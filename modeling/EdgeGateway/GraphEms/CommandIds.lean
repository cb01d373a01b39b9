import EdgeGateway.Foundation.Splitting
import EdgeGateway.GraphEms.ControlWrite
import EdgeGateway.PointStore.Layout
import Mathlib.Data.Nat.Digits.Lemmas

/-! # Ids of commands -/

namespace EdgeGateway.GraphEms

open Numerals QuotedText PointStore Splitting

def base36Value (c : Char) : Nat := if c.toNat < 58 then c.toNat - 48 else c.toNat - 87

theorem base36Digit_spec : ∀ digit < 36,
    base36Value (base36Digit digit) = digit ∧ base36Digit digit ≠ '_' ∧ base36Digit digit ≠ '\x00' := by
  decide

theorem base36_digits (value : Nat) :
    ∃ digits, base36 value = (digits.map base36Digit).reverse ∧ (∀ digit ∈ digits, digit < 36) ∧
      Nat.ofDigits 36 digits = value ∧ digits.length = max 1 (Nat.digits 36 value).length := by
  rw [base36]
  split
  · rename_i hZero
    subst hZero
    exact ⟨[0], rfl, by simp, by simp, by simp⟩
  · rename_i hValue
    have hSome : 0 < (Nat.digits 36 value).length :=
      List.length_pos_of_ne_nil (Nat.digits_ne_nil_iff_ne_zero.mpr hValue)
    exact ⟨Nat.digits 36 value, rfl, fun digit h => Nat.digits_lt_base (by decide) h, Nat.ofDigits_digits 36 value,
      (max_eq_right hSome).symm⟩

theorem base36_injective : Function.Injective base36 := by
  intro a b h
  obtain ⟨xs, hXs, hXsLess, hA, -⟩ := base36_digits a
  obtain ⟨ys, hYs, hYsLess, hB, -⟩ := base36_digits b
  rw [hXs, hYs, List.reverse_inj] at h
  have hRead : ∀ digits : List Nat, (∀ digit ∈ digits, digit < 36) →
      (digits.map base36Digit).map base36Value = digits := by
    intro digits hLess
    rw [List.map_map]
    refine (List.map_congr_left fun digit hDigit => ?_).trans (List.map_id digits)
    exact (base36Digit_spec digit (hLess digit hDigit)).1
  rw [← hA, ← hB, ← hRead xs hXsLess, ← hRead ys hYsLess, h]

theorem base36_notMem {value : Nat} {c : Char} (h : ∀ digit < 36, base36Digit digit ≠ c) : c ∉ base36 value := by
  obtain ⟨digits, hDigits, hLess, -⟩ := base36_digits value
  rw [hDigits, List.mem_reverse, List.mem_map]
  rintro ⟨digit, hDigit, hSame⟩
  exact h digit (hLess digit hDigit) hSame

theorem base36_length {value k : Nat} (h : value < 36 ^ k) (hk : 0 < k) : (base36 value).length ≤ k := by
  obtain ⟨digits, hDigits, -, -, hLength⟩ := base36_digits value
  rw [hDigits, List.length_reverse, List.length_map, hLength]
  exact max_le hk ((Nat.digits_length_le_iff (by decide) value).mpr h)

theorem nul_notMem_commandToken (value : StdString) : '\x00' ∉ commandToken value := by
  rw [commandToken, List.mem_map]
  rintro ⟨c, -, hNul⟩
  split at hNul
  · rename_i hKept
    subst hNul
    cases hKept
  · cases hNul

theorem hex32_spec (value : UInt32) : (hex32 value).length = 8 ∧ '\x00' ∉ hex32 value := by
  refine ⟨by simp [hex32], ?_⟩
  have hDigits : ∀ digit < 16, Nat.digitChar digit ≠ '\x00' := by decide
  rw [hex32, List.mem_map]
  rintro ⟨i, -, hNul⟩
  exact hDigits _ (Nat.mod_lt _ (by decide)) hNul

/-- The two names share what the numbers leave of the slot. -/
theorem graphCmdId_shape (ruleCode nodeId : StdString) (index : UInt32) (nowMs : Int) (sequence : Nat) :
    ∃ ruleLength nodeLength, graphCmdId ruleCode nodeId index nowMs sequence =
      "GRAPH_EMS_".toList ++ (commandToken ruleCode).take ruleLength ++ '_' :: (commandToken nodeId).take nodeLength ++
        ('_' :: hex32 (commandTokenHash (ruleCode ++ Char.ofNat 31 :: nodeId)) ++ '_' :: base36 index.toNat ++
          '_' :: base36 nowMs.toNat ++ '_' :: base36 sequence) ∧
      ((base36 index.toNat).length + (base36 nowMs.toNat).length + (base36 sequence).length < 39 → ruleLength + nodeLength +
        (base36 index.toNat).length + (base36 nowMs.toNat).length + (base36 sequence).length ≤ 40) := by
  refine ⟨_, _, rfl, ?_⟩
  have hTen : "GRAPH_EMS_".toList.length = 10 := by decide
  have hEight := (hex32_spec (commandTokenHash (ruleCode ++ Char.ofNat 31 :: nodeId))).1
  simp only [List.length_append, List.length_cons, hTen, hEight]
  intro hShort
  split <;> omega

/-- The numbers of an id are the texts between its last separators. -/
theorem graphCmdId_split (ruleCode nodeId : StdString) (index : UInt32) (nowMs : Int) (sequence : Nat) :
    ∃ start, graphCmdId ruleCode nodeId index nowMs sequence =
      ((start ++ '_' :: base36 index.toNat) ++ '_' :: base36 nowMs.toNat) ++ '_' :: base36 sequence ∧ '\x00' ∉ start ∧
      ((base36 index.toNat).length + (base36 nowMs.toNat).length + (base36 sequence).length < 39 →
        start.length + (base36 index.toNat).length + (base36 nowMs.toNat).length + (base36 sequence).length ≤ 60) := by
  obtain ⟨ruleLength, nodeLength, hId, hBudget⟩ := graphCmdId_shape ruleCode nodeId index nowMs sequence
  obtain ⟨hEight, hHashNul⟩ := hex32_spec (commandTokenHash (ruleCode ++ Char.ofNat 31 :: nodeId))
  have hPrefix : '\x00' ∉ "GRAPH_EMS_".toList := by decide
  have hTen : "GRAPH_EMS_".toList.length = 10 := by decide
  refine ⟨"GRAPH_EMS_".toList ++ (commandToken ruleCode).take ruleLength ++ '_' :: (commandToken nodeId).take nodeLength ++
    '_' :: hex32 (commandTokenHash (ruleCode ++ Char.ofNat 31 :: nodeId)), ?_, ?_, ?_⟩
  · rw [hId]
    simp only [List.append_assoc, List.cons_append]
  · simp only [List.mem_append, List.mem_cons, not_or]
    exact ⟨⟨⟨hPrefix, fun h => nul_notMem_commandToken _ (List.mem_of_mem_take h)⟩, by decide,
      fun h => nul_notMem_commandToken _ (List.mem_of_mem_take h)⟩, by decide, hHashNul⟩
  · intro hShort
    have hNames := hBudget hShort
    simp only [List.length_append, List.length_cons, List.length_take, hEight, hTen]
    omega

theorem graphCmdId_length (ruleCode nodeId : StdString) (index : UInt32) (nowMs : Int64) (sequence : UInt64) :
    (graphCmdId ruleCode nodeId index nowMs.toInt sequence.toNat).length ≤ 63 := by
  obtain ⟨start, hId, -, hFits⟩ := graphCmdId_split ruleCode nodeId index nowMs.toInt sequence.toNat
  have hIndex : (base36 index.toNat).length ≤ 7 := base36_length (index.toNat_lt.trans (by decide)) (by decide)
  have hTime : (base36 nowMs.toInt.toNat).length ≤ 13 := by
    refine base36_length ?_ (by decide)
    have hLess := nowMs.toInt_lt
    omega
  have hSequence : (base36 sequence.toNat).length ≤ 13 := base36_length (sequence.toNat_lt.trans (by decide)) (by decide)
  rw [hId]
  simp only [List.length_append, List.length_cons]
  omega

theorem split_inj {a b x y : StdString} (hx : '_' ∉ x) (hy : '_' ∉ y) (h : a ++ '_' :: x = b ++ '_' :: y) :
    a = b ∧ x = y := by
  have hReverse := congrArg List.reverse h
  simp only [List.reverse_append, List.reverse_cons, List.append_assoc, List.singleton_append] at hReverse
  have hBehind := congrArg (List.takeWhile (· ≠ '_')) hReverse
  have hBefore := congrArg (List.dropWhile (· ≠ '_')) hReverse
  rw [takeWhile_ne_append (by simpa), takeWhile_ne_append (by simpa), List.reverse_inj] at hBehind
  rw [dropWhile_ne_append (by simpa), dropWhile_ne_append (by simpa), List.cons_inj_right, List.reverse_inj] at hBefore
  exact ⟨hBefore, hBehind⟩

theorem graphCmdId_numbers {ruleCode nodeId ruleCode' nodeId' : StdString} {index index' : UInt32} {nowMs nowMs' : Int}
    {sequence sequence' : Nat}
    (h : graphCmdId ruleCode nodeId index nowMs sequence = graphCmdId ruleCode' nodeId' index' nowMs' sequence') :
    index = index' ∧ nowMs.toNat = nowMs'.toNat ∧ sequence = sequence' := by
  obtain ⟨start, hId, -⟩ := graphCmdId_split ruleCode nodeId index nowMs sequence
  obtain ⟨start', hId', -⟩ := graphCmdId_split ruleCode' nodeId' index' nowMs' sequence'
  have hFree : ∀ value, '_' ∉ base36 value :=
    fun value => base36_notMem fun digit hDigit => (base36Digit_spec digit hDigit).2.1
  rw [hId, hId'] at h
  obtain ⟨h, hSequence⟩ := split_inj (hFree _) (hFree _) h
  obtain ⟨h, hTime⟩ := split_inj (hFree _) (hFree _) h
  obtain ⟨-, hIndex⟩ := split_inj (hFree _) (hFree _) h
  exact ⟨UInt32.toNat_inj.mp (base36_injective hIndex), base36_injective hTime, base36_injective hSequence⟩

theorem graphCmdId_stored (ruleCode nodeId : StdString) (index : UInt32) (nowMs : Int64) (sequence : UInt64) :
    readString (copyString kCmdIdSize (graphCmdId ruleCode nodeId index nowMs.toInt sequence.toNat)) kCmdIdSize =
      graphCmdId ruleCode nodeId index nowMs.toInt sequence.toNat := by
  have hLength := graphCmdId_length ruleCode nodeId index nowMs sequence
  refine readString_copyString_of_fits (by rw [kCmdIdSize]; omega) ?_
  obtain ⟨start, hId, hNul, -⟩ := graphCmdId_split ruleCode nodeId index nowMs.toInt sequence.toNat
  have hFree : ∀ value, '\x00' ∉ base36 value :=
    fun value => base36_notMem fun digit hDigit => (base36Digit_spec digit hDigit).2.2
  rw [hId]
  simp only [List.mem_append, List.mem_cons, not_or]
  exact ⟨⟨⟨hNul, by decide, hFree _⟩, by decide, hFree _⟩, by decide, hFree _⟩

def commandIds (ruleCode : StdString) (commandSequence : UInt64) : List (StdString × UInt32 × Int64) → List StdString
  | [] => []
  | (nodeId, index, ts) :: commands =>
    graphCmdId ruleCode nodeId index ts.toInt (commandSequence + 1).toNat :: commandIds ruleCode (commandSequence + 1) commands

theorem commandIds_length (ruleCode : StdString) (commandSequence : UInt64) (commands : List (StdString × UInt32 × Int64)) :
    (commandIds ruleCode commandSequence commands).length = commands.length := by
  induction commands generalizing commandSequence with
  | nil => rfl
  | cons command commands ih => rw [commandIds, List.length_cons, ih, List.length_cons]

theorem commandIds_get (ruleCode : StdString) (commandSequence : UInt64) (commands : List (StdString × UInt32 × Int64))
    (i : Nat) : (commandIds ruleCode commandSequence commands)[i]? = commands[i]?.map fun command =>
      graphCmdId ruleCode command.1 command.2.1 command.2.2.toInt (commandSequence + UInt64.ofNat (i + 1)).toNat := by
  induction commands generalizing commandSequence i with
  | nil => rfl
  | cons command commands ih =>
    cases i with
    | zero => rfl
    | succ i =>
      rw [commandIds, List.getElem?_cons_succ, List.getElem?_cons_succ, ih]
      have hNext : commandSequence + 1 + UInt64.ofNat (i + 1) = commandSequence + UInt64.ofNat (i + 1 + 1) := by
        rw [UInt64.ofNat_add (i + 1) 1, UInt64.add_comm (UInt64.ofNat (i + 1)), ← UInt64.add_assoc]
        rfl
      rw [hNext]

theorem commandIds_nodup (ruleCode : StdString) (commandSequence : UInt64) {commands : List (StdString × UInt32 × Int64)}
    (h : commands.length ≤ 2 ^ 64) : (commandIds ruleCode commandSequence commands).Nodup := by
  rw [List.nodup_iff_getElem?_ne_getElem?]
  intro i j hLess hj hSame
  rw [commandIds_length] at hj
  rw [commandIds_get, commandIds_get, List.getElem?_eq_getElem hj, List.getElem?_eq_getElem (hLess.trans hj)] at hSame
  obtain ⟨-, -, hSequence⟩ := graphCmdId_numbers (Option.some.inj hSame)
  rw [UInt64.toNat_add, UInt64.toNat_add, UInt64.toNat_ofNat', UInt64.toNat_ofNat'] at hSequence
  omega

/-- Ids fit their slot and tell the numbers in them apart, as long as the sequence number of an engine does not repeat. -/
theorem graphCmdId_fits_distinct :
    (∀ ruleCode nodeId index, ∀ nowMs : Int64, ∀ sequence : UInt64,
      (graphCmdId ruleCode nodeId index nowMs.toInt sequence.toNat).length ≤ 63 ∧
      readString (copyString kCmdIdSize (graphCmdId ruleCode nodeId index nowMs.toInt sequence.toNat)) kCmdIdSize =
        graphCmdId ruleCode nodeId index nowMs.toInt sequence.toNat) ∧
    (∀ ruleCode nodeId index index', ∀ nowMs nowMs' : Int64, ∀ sequence sequence' : UInt64,
      graphCmdId ruleCode nodeId index nowMs.toInt sequence.toNat =
        graphCmdId ruleCode nodeId index' nowMs'.toInt sequence'.toNat →
      index = index' ∧ max 0 nowMs.toInt = max 0 nowMs'.toInt ∧ sequence = sequence') ∧
    ∀ ruleCode commandSequence commands, commands.length ≤ 2 ^ 64 →
      (commandIds ruleCode commandSequence commands).Nodup := by
  refine ⟨fun ruleCode nodeId index nowMs sequence => ⟨?_, ?_⟩, ?_, fun ruleCode commandSequence commands h => ?_⟩
  · exact graphCmdId_length ruleCode nodeId index nowMs sequence
  · exact graphCmdId_stored ruleCode nodeId index nowMs sequence
  · intro ruleCode nodeId index index' nowMs nowMs' sequence sequence' h
    obtain ⟨hIndex, hTime, hSequence⟩ := graphCmdId_numbers h
    exact ⟨hIndex, by omega, UInt64.toNat_inj.mp hSequence⟩
  · exact commandIds_nodup ruleCode commandSequence h

/-- One command too many, and the sequence number of the first is used again. -/
theorem commandIds_repeat :
    ¬(commandIds "rule".toList 0 (List.replicate (2 ^ 64 + 1) ("write".toList, 1, 5000))).Nodup := by
  have hId : ∀ i, i < 2 ^ 64 + 1 →
      (commandIds "rule".toList 0 (List.replicate (2 ^ 64 + 1) ("write".toList, 1, 5000)))[i]? =
        some (graphCmdId "rule".toList "write".toList 1 (5000 : Int64).toInt (0 + UInt64.ofNat (i + 1)).toNat) := by
    intro i hi
    rw [commandIds_get, List.getElem?_replicate, if_pos hi]
    rfl
  intro hNodup
  have hBound : 2 ^ 64 < (commandIds "rule".toList 0 (List.replicate (2 ^ 64 + 1) ("write".toList, 1, 5000))).length := by
    rw [commandIds_length, List.length_replicate]
    exact Nat.lt_succ_self _
  refine List.nodup_iff_getElem?_ne_getElem?.mp hNodup 0 (2 ^ 64) (by decide) hBound ?_
  rw [hId 0 (by decide), hId (2 ^ 64) (by decide)]
  rfl

end EdgeGateway.GraphEms
