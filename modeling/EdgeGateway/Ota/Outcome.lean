import EdgeGateway.Ota.CalmRun

/-! # The outcome of an upgrade -/

namespace EdgeGateway.Ota

open Procedure

variable (around : Surroundings) (config : OtaConfig) (request : OtaRequest) (digest : Content → StdString)

/-- The handler of a failed upgrade, without the exception that it passes on. -/
def handle (message : String) : Step Unit := do
  let job ← get
  if job.status.stage = "applying" then do
    reportStage around config "rollback" 100 "running rollback script" (← ask around.currentTimeMs)
    let _ ← tryRollback around config
  require (← ask around.recordOpened) "failed to append ota failure history"
  reportStage around config "failed" 0 message (← ask around.currentTimeMs)

def finish : Step Unit := do
  require (← ask around.recordOpened) "failed to write ota version marker"
  require (← ask around.recordOpened) "failed to append ota upgrade history"
  reportStage around config "completed" 100 "upgrade completed" (← ask around.currentTimeMs)

section Outcomes

variable {around config request digest}

def Reported (stage : String) (job : Job) : Prop := ∃ status ∈ job.reports, status.stage = stage

/-- The attempt goes on: nothing failed so far was reported, and a script that ran is the one being applied. -/
structure Underway (job : Job) : Prop where
  accepted : Reported "accepted" job
  unfailed : ∀ status ∈ job.reports, status.stage ≠ "failed"
  applying : ∀ run ∈ job.runs, run.script = .apply ∧ job.status.stage = "applying"

def Unapplied (job : Job) : Prop := Underway job ∧ job.runs = []

theorem Reported.later {stage : String} {job : Job} (h : Reported stage job) :
    Reported stage { job with reports := job.reports ++ [job.status] } := by
  obtain ⟨status, hStatus, hStage⟩ := h
  exact ⟨status, List.mem_append_left _ hStatus, hStage⟩

theorem Underway.reported {job : Job} (h : Underway job) (hStage : job.status.stage ≠ "failed") :
    Underway { job with reports := job.reports ++ [job.status] } where
  accepted := h.accepted.later
  unfailed := List.forall_mem_append.mpr ⟨h.unfailed, List.forall_mem_singleton.mpr hStage⟩
  applying := h.applying

theorem Unapplied.named {job : Job} (h : Unapplied job) (status : OtaStatus) : Unapplied { job with status } := by
  refine ⟨⟨h.1.accepted, h.1.unfailed, fun run hRun => ?_⟩, h.2⟩
  rw [show job.runs = [] from h.2] at hRun
  cases hRun

def Unfailed (job : Job) : Prop := Reported "accepted" job ∧ ∀ status ∈ job.reports, status.stage ≠ "failed"

theorem Unfailed.reported {job : Job} (h : Unfailed job) (hStage : job.status.stage ≠ "failed") :
    Unfailed { job with reports := job.reports ++ [job.status] } :=
  ⟨h.1.later, List.forall_mem_append.mpr ⟨h.2, List.forall_mem_singleton.mpr hStage⟩⟩

theorem Underway.calm {job : Job} (h : Underway job) : Unfailed job := ⟨h.accepted, h.unfailed⟩

variable (around config request digest)

variable {around config request digest}

end Outcomes

end EdgeGateway.Ota
