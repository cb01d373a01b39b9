import EdgeGateway.GraphEms.PowerNodes

/-! # The power solve node -/

namespace EdgeGateway.GraphEms

structure Phases (α : Type) where
  a : α
  b : α
  c : α
deriving DecidableEq, Repr

namespace Phases

variable {α β γ : Type}

def map (f : α → β) (x : Phases α) : Phases β := ⟨f x.a, f x.b, f x.c⟩

def zipWith (f : α → β → γ) (x : Phases α) (y : Phases β) : Phases γ := ⟨f x.a y.a, f x.b y.b, f x.c y.c⟩

def toList (x : Phases α) : List α := [x.a, x.b, x.c]

def all (x : Phases (Option α)) : Option (Phases α) :=
  match x.a, x.b, x.c with
  | some a, some b, some c => some ⟨a, b, c⟩
  | _, _, _ => none

end Phases

structure PcsPowerSolve where
  outQCosIndex : Phases UInt32 := ⟨601, 602, 603⟩
  skRunIndex : UInt32 := 26
  skP3Index : UInt32 := 590
  skQ3Index : UInt32 := 591
  zrEnableIndex : UInt32 := 23
  zrP1Index : UInt32 := 588
  positiveLimitEnableIndex : UInt32 := 454
  positiveLimitIndex : UInt32 := 453
  negativeLimitEnableIndex : UInt32 := 458
  negativeLimitIndex : UInt32 := 457
  fhPIndex : Phases UInt32 := ⟨309, 310, 311⟩
  outP3CdIndex : UInt32 := 613
  outP3FdIndex : UInt32 := 614
  outPDsIndex : Phases UInt32 := ⟨615, 616, 617⟩
  outPLvIndex : Phases UInt32 := ⟨605, 606, 607⟩
  outPHvIndex : Phases UInt32 := ⟨609, 610, 611⟩
  outPGfIndex : Phases UInt32 := ⟨619, 620, 621⟩
  outPPhIndex : Phases UInt32 := ⟨623, 624, 625⟩
  pMaxIndex : UInt32 := 535
  qMaxIndex : UInt32 := 504
  s3MaxIndex : UInt32 := 151
  chargeKwAllowIndex : UInt32 := 1552
  dischargeKwAllowIndex : UInt32 := 1553
  bmsSocIndex : UInt32 := 1570
  bmsSocMaxIndex : UInt32 := 161
  bmsSocMinIndex : UInt32 := 162
  cosRunOutput : UInt32 := 8
  lvRunOutput : UInt32 := 10
  hvRunOutput : UInt32 := 12
  gfRunOutput : UInt32 := 22
  zrRunOutput : UInt32 := 24
  pOutput : Phases UInt32 := ⟨627, 628, 629⟩
  qOutput : Phases UInt32 := ⟨630, 631, 632⟩

structure PcsPowers (K : Type) where
  pcsPOut : Phases K
  pcsQOut : Phases K
  zrRunValue : K
  bmsLowLimit : Bool
  bmsUpLimit : Bool

namespace PcsPowerSolve

variable {K : Type} [Field K] [LinearOrder K]

def stronger (cdFdP3 : K) (pcsPOut : Phases K) : Phases K :=
  if cdFdP3 ≠ 0 then
    let cdFdPhaseP := cdFdP3 / 3
    if 0 < cdFdPhaseP then pcsPOut.map fun p => max p cdFdPhaseP else pcsPOut.map fun p => min p cdFdPhaseP
  else pcsPOut

def lower (p : K) : Option K → K
  | some value => if value < 0 then min p value else p
  | none => p

def raise (p : K) : Option K → K
  | some value => if 0 < value then max p value else p
  | none => p

def strategies (node : PcsPowerSolve) (latestValue : UInt32 → Option K) : Phases K :=
  let pcsPOut := node.outPDsIndex.map fun index => (latestValue index).getD 0
  let cdFdP3 := (latestValue node.outP3CdIndex).getD 0 + (latestValue node.outP3FdIndex).getD 0
  let pcsPOut := stronger cdFdP3 pcsPOut
  let pcsPOut := pcsPOut.zipWith lower (node.outPLvIndex.map latestValue)
  let pcsPOut := pcsPOut.zipWith raise (node.outPHvIndex.map latestValue)
  let pcsPOut := pcsPOut.zipWith raise (node.outPGfIndex.map latestValue)
  pcsPOut.zipWith (fun p value => p + value.getD 0) (node.outPPhIndex.map latestValue)

def limitPositive (limit p load : K) : K :=
  let powerCdSy := limit - load
  if 0 < p then
    let p := min p powerCdSy
    if p < 0 then 0 else p
  else p

def limitNegative (limit p load : K) : K :=
  let powerFdSy := limit - load
  if p < 0 then
    let p := max p powerFdSy
    if 0 < p then 0 else p
  else p

def clampByApparentPower (sqrt : K → K) (s1Max p q : K) : K :=
  if ¬ 0 < s1Max ∨ apparentPower sqrt p q ≤ s1Max then p else remainingActive sqrt s1Max p q

def total (p : Phases K) : K := p.a + p.b + p.c

def chargeAndDischarge (p : Phases K) : K × K :=
  p.toList.foldl (fun (sums : K × K) value => if 0 < value then (sums.1 + value, sums.2) else (sums.1, sums.2 + value)) (0, 0)

def limitCharge (chargeKwAllow : K) (p : Phases K) : Phases K :=
  if chargeKwAllow < total p then
    let (pcsPos, pcsNeg) := chargeAndDischarge p
    if 0 < pcsPos then
      let bmsPer := (chargeKwAllow - pcsNeg) / pcsPos
      p.map fun value => if 0 < value then value * bmsPer else value
    else p
  else p

def limitDischarge (dischargeKwAllow : K) (p : Phases K) : Phases K :=
  let bmsDischargeKwAllow := -dischargeKwAllow
  if total p < bmsDischargeKwAllow then
    let (pcsPos, pcsNeg) := chargeAndDischarge p
    if pcsNeg < 0 then
      let bmsPer := (bmsDischargeKwAllow - pcsPos) / pcsNeg
      p.map fun value => if value < 0 then value * bmsPer else value
    else p
  else p

variable (node : PcsPowerSolve) (sqrt : K → K) (latestValue : UInt32 → Option K)

def isOne (index : UInt32) : Bool := decide (latestValue index = some 1)

def manual (powers : Phases K × Phases K) : Phases K × Phases K :=
  match latestValue node.skP3Index, latestValue node.skQ3Index with
  | some skP3, some skQ3 =>
    if isOne latestValue node.skRunIndex then (⟨skP3 / 3, skP3 / 3, skP3 / 3⟩, ⟨skQ3 / 3, skQ3 / 3, skQ3 / 3⟩) else powers
  | _, _ => powers

def limitDemand (pcsPOut : Phases K) : Phases K × K :=
  let fhP := (node.fhPIndex.map latestValue).all
  let tqPxzNegValue := latestValue node.negativeLimitIndex
  let pcsPOut := match latestValue node.positiveLimitIndex, fhP with
    | some limit, some loads =>
      if isOne latestValue node.positiveLimitEnableIndex then pcsPOut.zipWith (limitPositive limit) loads else pcsPOut
    | _, _ => pcsPOut
  let pcsPOut := match tqPxzNegValue, fhP with
    | some limit, some loads =>
      if isOne latestValue node.negativeLimitEnableIndex then pcsPOut.zipWith (limitNegative limit) loads else pcsPOut
    | _, _ => pcsPOut
  match tqPxzNegValue, latestValue node.zrP1Index, fhP with
  | some limit, some zrP1, some loads =>
    if isOne latestValue node.zrEnableIndex then
      let powerZxSy := loads.map fun load => limit - load - zrP1
      (pcsPOut.zipWith (fun p power => if power < 0 then min p power else p) powerZxSy,
        if powerZxSy.a < 0 ∨ powerZxSy.b < 0 ∨ powerZxSy.c < 0 then 1 else 0)
    else (pcsPOut, 0)
  | _, _, _ => (pcsPOut, 0)

def limitConverter (powers : Phases K × Phases K) : Phases K × Phases K :=
  let pcsPOut := match latestValue node.pMaxIndex with
    | some pMax => powers.1.map fun p => clampAbs p pMax
    | none => powers.1
  let pcsQOut := match latestValue node.qMaxIndex with
    | some qMax => powers.2.map fun q => clampAbs q qMax
    | none => powers.2
  let pcsPOut := match latestValue node.s3MaxIndex with
    | some s3Max =>
      if 0 < s3Max then pcsPOut.zipWith (clampByApparentPower sqrt (s3Max / 3)) pcsQOut else pcsPOut
    | none => pcsPOut
  (pcsPOut, pcsQOut)

def limitBms (pcsPOut : Phases K) : Phases K :=
  if 0 < total pcsPOut then match latestValue node.chargeKwAllowIndex with
    | some chargeKwAllow => limitCharge chargeKwAllow pcsPOut
    | none => pcsPOut
  else if total pcsPOut < 0 then match latestValue node.dischargeKwAllowIndex with
    | some dischargeKwAllow => limitDischarge dischargeKwAllow pcsPOut
    | none => pcsPOut
  else pcsPOut

/-- A battery that is too low is not discharged, and one that is too full is not charged. -/
def limitSoc (powers : Phases K × Phases K) (zrRunValue : K) : PcsPowers K :=
  match latestValue node.bmsSocIndex, latestValue node.bmsSocMaxIndex, latestValue node.bmsSocMinIndex with
  | some bmsSoc, some bmsSocMax, some bmsSocMin =>
    let low : Phases K × Phases K :=
      if bmsSoc < bmsSocMin then (powers.1.map fun p => if p < 0 then 0 else p, ⟨0, 0, 0⟩) else powers
    let pcsPOut := if bmsSocMax < bmsSoc then low.1.map fun p => if 0 < p then 0 else p else low.1
    ⟨pcsPOut, low.2, zrRunValue, decide (bmsSoc < bmsSocMin), decide (bmsSocMax < bmsSoc)⟩
  | _, _, _ => ⟨powers.1, powers.2, zrRunValue, false, false⟩

def solve : PcsPowers K :=
  let pcsQOut := node.outQCosIndex.map fun index => (latestValue index).getD 0
  let (pcsPOut, pcsQOut) := node.manual latestValue (node.strategies latestValue, pcsQOut)
  let (pcsPOut, zrRunValue) := node.limitDemand latestValue pcsPOut
  let (pcsPOut, pcsQOut) := node.limitConverter sqrt latestValue (pcsPOut, pcsQOut)
  node.limitSoc latestValue (node.limitBms latestValue pcsPOut, pcsQOut) zrRunValue

def outputs (solution : PcsPowers K) : List (UInt32 × K) :=
  (if solution.bmsLowLimit then [(node.cosRunOutput, 0), (node.lvRunOutput, 0)] else []) ++
    (if solution.bmsUpLimit then [(node.hvRunOutput, 0), (node.gfRunOutput, 0)] else []) ++
    [(node.zrRunOutput, solution.zrRunValue)] ++ node.pOutput.toList.zip solution.pcsPOut.toList ++
    node.qOutput.toList.zip solution.pcsQOut.toList

end PcsPowerSolve

/-- Rejected outputs are passed over, and the node has updated if any was accepted. -/
def runPcsPowerSolve {K : Type} [Field K] [LinearOrder K] (node : PcsPowerSolve) (sqrt : K → K)
    (rejection : UInt32 → K → Option String) (cycle : PowerCycle K) : Bool × PowerCycle K :=
  (node.outputs (node.solve sqrt cycle.latestValue)).foldl (fun (run : Bool × PowerCycle K) output =>
    match run.2.set rejection output with
    | (some _, cycle) => (run.1, cycle)
    | (none, cycle) => (true, cycle)) (false, cycle)

end EdgeGateway.GraphEms
