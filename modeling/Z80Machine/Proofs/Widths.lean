import Mathlib.Algebra.Ring.Nat
import Z80Machine.Proofs.LongSums
import Z80Machine.Proofs.Shape

/-! Numbers of so many bits. What does not fit breaks the computation off instead of wrapping. Beside each computation
of the processor stands one that forms the same sums, differences, products and shifts in the widths they are given. -/

namespace Z80Machine

namespace Width

def fit (bits n : Nat) : Option Nat :=
  if n < 2 ^ bits then some n else none

def plus (bits a b : Nat) : Option Nat :=
  fit bits (a + b)

def times (bits a b : Nat) : Option Nat :=
  fit bits (a * b)

def minus (a b : Nat) : Option Nat :=
  if b ≤ a then some (a - b) else none

def oneHot (n : Nat) : Option UInt8 :=
  if n < 8 then some (1 <<< UInt8.ofNat n) else none

lemma fit_of_lt {bits n : Nat} (h : n < 2 ^ bits) : fit bits n = some n :=
  if_pos h

lemma plus_of_lt {bits a b : Nat} (h : a + b < 2 ^ bits) : plus bits a b = some (a + b) :=
  if_pos h

lemma times_of_lt {bits a b : Nat} (h : a * b < 2 ^ bits) : times bits a b = some (a * b) :=
  if_pos h

lemma minus_of_le {a b : Nat} (h : b ≤ a) : minus a b = some (a - b) :=
  if_pos h

lemma foldlM_plus (bits : Nat) (ns : List Nat) (n : Nat) (h : n + ns.sum < 2 ^ bits) :
    ns.foldlM (plus bits) n = some (n + ns.sum) := by
  induction ns generalizing n with
  | nil => rfl
  | cons m ns ih =>
    rw [List.sum_cons, ← Nat.add_assoc] at h
    have hplus : plus bits n m = some (n + m) := plus_of_lt (Nat.lt_of_le_of_lt (Nat.le_add_right _ _) h)
    rw [List.foldlM_cons, hplus, Option.bind_eq_bind, Option.bind_some, ih _ h, List.sum_cons, Nat.add_assoc]

end Width

open Width

namespace Arithmetic

def checkedAdd (a b : UInt8) (carry : Bool) : Option (UInt8 × Flags) := do
  let sum ← plus 16 a.toNat b.toNat
  let _ ← plus 16 sum (carryBit carry)
  let digits ← plus 8 (a.toNat % 16) (b.toNat % 16)
  let _ ← plus 8 digits (carryBit carry)
  return add a b carry

def checkedSub (a b : UInt8) (carry : Bool) : Option (UInt8 × Flags) := do
  let _ ← plus 16 (b.toNat % 16) (carryBit carry)
  return sub a b carry

def checkedPerform (op : AluOp) (a b : UInt8) (carry : Bool) : Option (UInt8 × Flags) :=
  match op with
  | .add => checkedAdd a b false
  | .adc => checkedAdd a b carry
  | .sub => checkedSub a b false
  | .sbc => checkedSub a b carry
  | .cp => do return (a, (← checkedSub a b false).2.withCopies b)
  | op => some (perform op a b carry)

def checkedAddWords (a b : UInt16) (f : Flags) : Option (UInt16 × Flags) := do
  let _ ← plus 32 a.toNat b.toNat
  let _ ← plus 16 (a.toNat % 4096) (b.toNat % 4096)
  return addWords a b f

def checkedAdcWords (a b : UInt16) (carry : Bool) : Option (UInt16 × Flags) := do
  let sum ← plus 32 a.toNat b.toNat
  let _ ← plus 32 sum (carryBit carry)
  let low ← plus 32 (a.toNat % 4096) (b.toNat % 4096)
  let _ ← plus 32 low (carryBit carry)
  return adcWords a b carry

def checkedSbcWords (a b : UInt16) (carry : Bool) : Option (UInt16 × Flags) := do
  let _ ← plus 32 (b.toNat % 4096) (carryBit carry)
  let _ ← plus 32 b.toNat (carryBit carry)
  return sbcWords a b carry

def checkedTestBit (n : Fin 8) (b : UInt8) (carry : Bool) : Option Flags := do
  let _ ← oneHot n
  return testBit n b carry

def checkedResetBit (n : Fin 8) (b : UInt8) : Option UInt8 := do
  return b &&& ~~~(← oneHot n)

def checkedSetBit (n : Fin 8) (b : UInt8) : Option UInt8 := do
  return b ||| (← oneHot n)

section

variable (a b : UInt8) (v w : UInt16) (carry : Bool)

lemma checkedAdd_eq : checkedAdd a b carry = some (add a b carry) := by
  have ha := a.toNat_lt
  have hb := b.toNat_lt
  have hc := carryBit_le carry
  simp only [checkedAdd, Option.bind_eq_bind, Option.pure_def]
  rw [plus_of_lt (by omega), Option.bind_some, plus_of_lt (by omega), Option.bind_some, plus_of_lt (by omega),
    Option.bind_some, plus_of_lt (by omega), Option.bind_some]

lemma checkedSub_eq : checkedSub a b carry = some (sub a b carry) := by
  have hc := carryBit_le carry
  simp only [checkedSub, Option.bind_eq_bind, Option.pure_def]
  rw [plus_of_lt (by omega), Option.bind_some]

lemma checkedPerform_eq (op : AluOp) : checkedPerform op a b carry = some (perform op a b carry) := by
  cases op with
  | add => exact checkedAdd_eq a b false
  | adc => exact checkedAdd_eq a b carry
  | sub => exact checkedSub_eq a b false
  | sbc => exact checkedSub_eq a b carry
  | cp => rw [checkedPerform, checkedSub_eq]; rfl
  | and => rfl
  | xor => rfl
  | or => rfl

lemma checkedAddWords_eq (f : Flags) : checkedAddWords v w f = some (addWords v w f) := by
  have hv := v.toNat_lt
  have hw := w.toNat_lt
  simp only [checkedAddWords, Option.bind_eq_bind, Option.pure_def]
  rw [plus_of_lt (by omega), Option.bind_some, plus_of_lt (by omega), Option.bind_some]

lemma checkedAdcWords_eq : checkedAdcWords v w carry = some (adcWords v w carry) := by
  have hv := v.toNat_lt
  have hw := w.toNat_lt
  have hc := carryBit_le carry
  simp only [checkedAdcWords, Option.bind_eq_bind, Option.pure_def]
  rw [plus_of_lt (by omega), Option.bind_some, plus_of_lt (by omega), Option.bind_some, plus_of_lt (by omega),
    Option.bind_some, plus_of_lt (by omega), Option.bind_some]

lemma checkedSbcWords_eq : checkedSbcWords v w carry = some (sbcWords v w carry) := by
  have hw := w.toNat_lt
  have hc := carryBit_le carry
  simp only [checkedSbcWords, Option.bind_eq_bind, Option.pure_def]
  rw [plus_of_lt (by omega), Option.bind_some, plus_of_lt (by omega), Option.bind_some]

lemma oneHot_eq (n : Fin 8) : oneHot n = some (Byte.oneHot n) :=
  if_pos n.isLt

lemma checkedTestBit_eq (n : Fin 8) : checkedTestBit n b carry = some (testBit n b carry) := by
  rw [checkedTestBit, oneHot_eq]
  rfl

lemma checkedResetBit_eq (n : Fin 8) : checkedResetBit n b = some (resetBit n b) := by
  rw [checkedResetBit, oneHot_eq]
  rfl

lemma checkedSetBit_eq (n : Fin 8) : checkedSetBit n b = some (setBit n b) := by
  rw [checkedSetBit, oneHot_eq]
  rfl

end

end Arithmetic

namespace CycleShape

def counters (s : CycleShape) : List Nat :=
  [s.fetches, s.reads, s.writes, s.inputs, s.outputs, s.internal]

def Fits (s : CycleShape) : Prop :=
  ∀ n ∈ s.counters, n < 2 ^ 8

instance (s : CycleShape) : Decidable s.Fits :=
  inferInstanceAs (Decidable (∀ n ∈ s.counters, n < 2 ^ 8))

def checked (s : CycleShape) : Option CycleShape :=
  if s.Fits then some s else none

inductive Part where
  | fetch
  | reads (n : Nat)
  | writes (n : Nat)
  | input
  | output
  | internal (n : Nat)
  | acknowledge

def add (s : CycleShape) : Part → CycleShape
  | .fetch => s.addFetch
  | .reads n => s.addReads n
  | .writes n => s.addWrites n
  | .input => s.addInput
  | .output => s.addOutput
  | .internal n => s.addInternal n
  | .acknowledge => s.withAcknowledge

lemma Fits.checked {s : CycleShape} (h : s.Fits) : s.checked = some s :=
  if_pos h

lemma fits_of_time {s : CycleShape} (h : s.tStates < 2 ^ 8) : s.Fits := by
  rw [tStates] at h
  simp only [Fits, counters, List.forall_mem_cons, List.not_mem_nil, false_imp_iff, implies_true, and_true]
  omega

lemma Fits.of_add {s : CycleShape} {x : Part} (h : (s.add x).Fits) : s.Fits := by
  cases x <;> simp_all [Fits, counters, add, addFetch, addReads, addWrites, addInput, addOutput, addInternal,
    withAcknowledge] <;> omega

lemma Fits.of_build {s : CycleShape} {parts : List Part} (h : (parts.foldl add s).Fits) : s.Fits := by
  induction parts generalizing s with
  | nil => exact h
  | cons x parts ih => exact (ih h).of_add

/-- Counters never go down, so a check of the whole shape makes all those on the way to it. -/
lemma checked_build (s : CycleShape) (hs : s.Fits) (parts : List Part) :
    parts.foldlM (fun s x => (s.add x).checked) s = (parts.foldl add s).checked := by
  induction parts generalizing s with
  | nil => exact hs.checked.symm
  | cons x parts ih =>
    rw [List.foldlM_cons, List.foldl_cons]
    by_cases h : (s.add x).Fits
    · rw [h.checked, Option.bind_eq_bind, Option.bind_some, ih _ h]
    · have hall : ¬ (parts.foldl add (s.add x)).Fits := by
        intro hall
        exact h (Fits.of_build hall)
      rw [checked, checked, if_neg h, if_neg hall, Option.bind_eq_bind, Option.bind_none]

def checkedTime (s : CycleShape) : Option Nat := do
  let fetches ← times 32 s.fetches 4
  let memory ← times 32 (← plus 32 s.reads s.writes) 3
  let time ← plus 32 fetches memory
  let ports ← times 32 (← plus 32 s.inputs s.outputs) 4
  let time ← plus 32 time ports
  let time ← plus 32 time s.internal
  if s.acknowledge then plus 32 time 7 else return time

lemma Fits.checkedTime {s : CycleShape} (h : s.Fits) : s.checkedTime = some s.tStates := by
  simp only [Fits, counters, List.forall_mem_cons, List.not_mem_nil, false_imp_iff, implies_true, and_true] at h
  obtain ⟨hfetches, hreads, hwrites, hinputs, houtputs, hinternal⟩ := h
  simp only [CycleShape.checkedTime, Option.bind_eq_bind, Option.pure_def]
  rw [times_of_lt (by omega), Option.bind_some, plus_of_lt (by omega), Option.bind_some, times_of_lt (by omega),
    Option.bind_some, plus_of_lt (by omega), Option.bind_some, plus_of_lt (by omega), Option.bind_some,
    times_of_lt (by omega), Option.bind_some, plus_of_lt (by omega), Option.bind_some, plus_of_lt (by omega),
    Option.bind_some, plus_of_lt (by omega), tStates]
  split <;> exact congrArg some (by omega)

end CycleShape

namespace Encoding

open CycleShape

def checkedMain (opcode : UInt8) (mode : IndexMode) (start : CycleShape) : Encoding (Option Encoded) := do
  let y := fieldY opcode
  if fieldX opcode = 0 ∧ fieldZ opcode = 0 ∧ y ∉ [0, 1, 2, 3] then
    let offset ← byte
    return do
      let place ← minus y.toNat 4
      return { op := .jr (some (.ofField (UInt8.ofNat place))) offset, shape := start.addReads 1 }
  else if fieldX opcode = 3 ∧ fieldZ opcode = 7 then
    return do
      let vector ← times 8 y.toNat 8
      return { op := .rst (UInt8.ofNat vector), shape := (start.addInternal 1).addWrites 2 }
  else return some (← mainTable opcode mode start)

def checkedBit (opcode : UInt8) : Option Unit :=
  if fieldX opcode = 0 then some () else (oneHot (fieldY opcode).toNat).map fun _ => ()

def checkedIndexed (mode : IndexMode) : Encoding (Option Encoded) := do
  let next ← byte
  if next = 0xCB then
    let offset ← byte
    let opcode ← byte
    return do
      checkedBit opcode
      ((indexedBits mode).read? [offset, opcode]).map (·.1)
  else if next ∈ [0xDD, 0xED, 0xFD] then return some { op := .nop, shape := m1, ahead := 1 }
  else checkedMain next mode m1.addFetch

def checkedRow (opcode : UInt8) : Encoding (Option Encoded) := do
  if opcode = 0xCB then
    let opcode ← byte
    return do
      checkedBit opcode
      return bits opcode
  else if opcode = 0xED then return some (← extended (← byte))
  else if opcode = 0xDD then checkedIndexed .ix
  else if opcode = 0xFD then checkedIndexed .iy
  else checkedMain opcode .hl m1

def checkedOfOpcode (opcode : UInt8) : Encoding (Option Encoded) := do
  let row ← checkedRow opcode
  return do
    let e ← row
    let _ ← e.shape.checked
    return e

variable {α β γ : Type}

lemma bind_congr_of_every {p : Nat → α → Prop} {f g : α → Encoding β} {e : Encoding α} {n : Nat} (h : e.Every p n)
    (hfg : ∀ n a, p n a → f a = g a) : e.bind f = e.bind g := by
  induction e generalizing n with
  | complete a => exact hfg n a h
  | more next ih => exact congrArg more (funext fun b => ih b (h b))

lemma bind_complete_bind (e : Encoding α) (f : α → β) (g : β → Encoding γ) :
    (e.bind fun a => .complete (f a)).bind g = e.bind fun a => g (f a) := by
  induction e with
  | complete a => rfl
  | more next ih => exact congrArg more (funext ih)

lemma fetch_bind_complete (e : Encoding α) (f : α → β) (addr : UInt16) (seen : List UInt8) :
    (e.bind fun a => .complete (f a)).fetch addr seen = (e.fetch addr seen).bind fun s => .done (f s.1, s.2) := by
  induction e generalizing addr seen with
  | complete a => rfl
  | more next ih => exact congrArg (Dialogue.read addr) (funext fun b => ih b _ _)

lemma fieldY_lt (opcode : UInt8) : (fieldY opcode).toNat < 8 :=
  UInt8.lt_iff_toNat_lt.mp (by grind [fieldY] : fieldY opcode < 8)

lemma checkedBit_eq (opcode : UInt8) : checkedBit opcode = some () := by
  rw [checkedBit, oneHot, if_pos (fieldY_lt opcode)]
  split <;> rfl

lemma checkedMain_eq (opcode : UInt8) (mode : IndexMode) (start : CycleShape) :
    checkedMain opcode mode start = (mainTable opcode mode start).bind fun e => .complete (some e) := by
  have hlt := fieldY_lt opcode
  unfold checkedMain
  dsimp only
  split
  case isTrue hjump =>
    obtain ⟨hx, hz, hy⟩ := hjump
    simp only [List.mem_cons, List.not_mem_nil, or_false, not_or] at hy
    have h4 : 4 ≤ (fieldY opcode).toNat := UInt8.le_iff_toNat_le.mp (by grind : 4 ≤ fieldY opcode)
    have hplace : UInt8.ofNat ((fieldY opcode).toNat - 4) = fieldY opcode - 4 := by
      rw [UInt8.ofNat_sub h4, UInt8.ofNat_toNat]
      rfl
    simp only [mainTable, hx, hz, quarter0]
    rw [minus_of_le h4]
    split
    case h_5 => simp only [bind_eq, pure_eq, Option.bind_eq_bind, Option.bind_some, Option.pure_def, hplace]; rfl
    all_goals simp_all
  case isFalse =>
    split
    case isTrue hrestart =>
      obtain ⟨hx, hz⟩ := hrestart
      have hvector : UInt8.ofNat ((fieldY opcode).toNat * 8) = fieldY opcode * 8 := by
        rw [UInt8.ofNat_mul, UInt8.ofNat_toNat]
        rfl
      simp only [mainTable, hx, hz, quarter3]
      rw [times_of_lt (by omega)]
      simp only [pure_eq, Option.bind_eq_bind, Option.bind_some, Option.pure_def, hvector]
      rfl
    case isFalse => rfl

lemma checkedIndexed_eq (mode : IndexMode) :
    checkedIndexed mode = (indexed mode).bind fun e => .complete (some e) := by
  refine congrArg more (funext fun next => ?_)
  dsimp only [Encoding.bind]
  split
  case isTrue hcb =>
    subst hcb
    refine congrArg more (funext fun offset => congrArg more (funext fun opcode => ?_))
    dsimp only [Encoding.bind]
    rw [checkedBit_eq]
    rfl
  case isFalse hcb =>
    split
    case isTrue hprefix =>
      simp only [List.mem_cons, List.not_mem_nil, or_false] at hprefix
      rcases hprefix with rfl | rfl | rfl <;> rfl
    case isFalse hprefix =>
      simp only [List.mem_cons, List.not_mem_nil, or_false, not_or] at hprefix
      rw [checkedMain_eq]
      split <;> simp_all

lemma checkedRow_eq (opcode : UInt8) : checkedRow opcode = (ofOpcode opcode).bind fun e => .complete (some e) := by
  unfold checkedRow
  by_cases hcb : opcode = 0xCB
  · subst hcb
    refine congrArg more (funext fun b => ?_)
    dsimp only [Encoding.bind]
    rw [checkedBit_eq]
    rfl
  by_cases hed : opcode = 0xED
  · subst hed
    rfl
  by_cases hix : opcode = 0xDD
  · subst hix
    exact checkedIndexed_eq .ix
  by_cases hiy : opcode = 0xFD
  · subst hiy
    exact checkedIndexed_eq .iy
  rw [if_neg hcb, if_neg hed, if_neg hix, if_neg hiy, checkedMain_eq]
  unfold ofOpcode
  split <;> simp_all

end Encoding

lemma Encoded.Faithful.fits {e : Encoded} {n : Nat} (h : e.Faithful n) : e.shape.Fits := by
  have htime := h.time_le false
  exact CycleShape.fits_of_time (by omega)

lemma Encoding.checkedOfOpcode_eq (opcode : UInt8) :
    checkedOfOpcode opcode = (ofOpcode opcode).bind fun e => .complete (some e) := by
  rw [checkedOfOpcode, checkedRow_eq, bind_eq, bind_complete_bind]
  refine bind_congr_of_every (ofOpcode_faithful opcode) fun n e h => ?_
  simp only [pure_eq, Option.pure_def, Option.bind_eq_bind, Option.bind_some, h.fits.checked]

end Z80Machine
