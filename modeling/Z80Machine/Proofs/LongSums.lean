import Mathlib.Data.List.Basic
import Mathlib.Data.Nat.Digits.Defs
import Mathlib.Tactic.Linarith
import Z80Machine.Execute
import Z80Machine.Proofs.Dialogue

/-! Arithmetic on numbers of any length. The accumulator takes their bytes one after another from the lowest on, and the
carry flag is all that goes from one byte to the next. -/

namespace Z80Machine

open Arithmetic

@[simp] lemma Arithmetic.carryBit_false : carryBit false = 0 := rfl

@[simp] lemma Arithmetic.carryBit_true : carryBit true = 1 := rfl

lemma Arithmetic.carryBit_le (c : Bool) : carryBit c ≤ 1 := by
  cases c <;> decide

lemma Arithmetic.toNat_add (x y : UInt8) (c : Bool) : (add x y c).1.toNat = (x.toNat + y.toNat + carryBit c) % 256 :=
  UInt8.toNat_ofNat'

lemma Arithmetic.toNat_sub (x y : UInt8) (c : Bool) :
    (sub x y c).1.toNat = (512 + x.toNat - y.toNat - carryBit c) % 256 :=
  UInt8.toNat_ofNat'

namespace AluOp

def takesCarry : AluOp → Bool
  | adc | sbc => true
  | _ => false

def withCarry : AluOp → AluOp
  | add => adc
  | sub => sbc
  | op => op

lemma withCarry_withCarry (op : AluOp) : op.withCarry.withCarry = op.withCarry := by
  cases op <;> rfl

end AluOp

lemma exists_columns {xs ys : List UInt8} (h : xs.length = ys.length) :
    ∃ pairs : List (UInt8 × UInt8), xs = pairs.map Prod.fst ∧ ys = pairs.map Prod.snd ∧ xs.zip ys = pairs :=
  ⟨xs.zip ys, (List.map_fst_zip h.le).symm, (List.map_snd_zip h.ge).symm, rfl⟩

namespace Registers

def carry (r : Registers) : Nat :=
  carryBit r.flags.c

def clearCarry (r : Registers) : Registers :=
  r.setFlags { r.flags with c := false }

def operate (op : AluOp) (b : UInt8) (r : Registers) : Registers :=
  r.setA (perform op r.a b r.flags.c)

lemma onRegisters_alu (op : AluOp) (src : Operand) (address : UInt16) (r : Registers) :
    (Op.alu op src).onRegisters address r = do return (r.operate op (← src.load r), 0) := rfl

def digit (adjust : Registers → Registers) (op : AluOp) (pair : UInt8 × UInt8) (r : Registers) : Registers :=
  adjust ({ r with a := pair.1 }.operate op pair.2)

lemma digit_id (op : AluOp) (pair : UInt8 × UInt8) (r : Registers) :
    let t := perform op pair.1 pair.2 r.flags.c
    (r.digit id op pair).a = t.1 ∧ (r.digit id op pair).flags = t.2 :=
  ⟨rfl, Flags.ofByte_toByte _⟩

def long (adjust : Registers → Registers) (op : AluOp) (r : Registers) :
    List (UInt8 × UInt8) → List UInt8 × Registers
  | [] => ([], r)
  | pair :: pairs =>
    let s := r.digit adjust op pair
    let t := s.long adjust op.withCarry pairs
    (s.a :: t.1, t.2)

variable (r : Registers) (adjust : Registers → Registers) (op : AluOp) (pair : UInt8 × UInt8)
  (pairs : List (UInt8 × UInt8))

lemma length_long : (r.long adjust op pairs).1.length = pairs.length := by
  induction pairs generalizing r op with
  | nil => rfl
  | cons pair pairs ih => exact congrArg (· + 1) (ih (r.digit adjust op pair) op.withCarry)

lemma long_concat {op : AluOp} (h : op.withCarry = op) : r.long adjust op (pairs ++ [pair]) =
    let t := r.long adjust op pairs
    let s := t.2.digit adjust op pair
    (t.1 ++ [s.a], s) := by
  induction pairs generalizing r with
  | nil => rfl
  | cons first pairs ih => simp only [List.cons_append, long, h, ih]

def entering (r : Registers) (op : AluOp) : Registers :=
  if op.takesCarry then r else r.clearCarry

lemma carry_entering : (r.entering op).carry = carryBit (op.takesCarry && r.flags.c) := by
  rw [entering]
  cases op.takesCarry with
  | true => rfl
  | false => simp [carry, clearCarry]

lemma digit_entering : r.digit adjust op pair = (r.entering op).digit adjust op.withCarry pair := by
  cases op
  all_goals first
    | rfl
    | simp [digit, operate, entering, clearCarry, AluOp.withCarry, AluOp.takesCarry, perform, setA, setFlags, flags]

lemma long_entering {pairs : List (UInt8 × UInt8)} (h : pairs ≠ []) :
    r.long adjust op pairs = (r.entering op).long adjust op.withCarry pairs := by
  cases pairs with
  | nil => exact absurd rfl h
  | cons pair pairs => rw [long, long, ← digit_entering, AluOp.withCarry_withCarry]

lemma exists_long_concat {pairs : List (UInt8 × UInt8)} (h : pairs ≠ []) :
    ∃ low high, pairs = low ++ [high] ∧ r.long adjust op pairs =
      let t := (r.entering op).long adjust op.withCarry low
      let s := t.2.digit adjust op.withCarry high
      (t.1 ++ [s.a], s) := by
  obtain hnil | ⟨low, high, hpairs⟩ := List.eq_nil_or_concat' pairs
  · exact absurd hnil h
  · refine ⟨low, high, hpairs, ?_⟩
    rw [r.long_entering adjust op h, hpairs, long_concat _ _ _ _ op.withCarry_withCarry]

end Registers

structure Numeral where
  base : Nat
  worth : UInt8 → Nat
  Digit : UInt8 → Prop
  one_lt : 1 < base
  worth_lt : ∀ b, Digit b → worth b < base

namespace Numeral

variable (d : Numeral) (b : UInt8) (bs : List UInt8)

def value (bs : List UInt8) : Nat :=
  Nat.ofDigits d.base (bs.map d.worth)

lemma value_cons : d.value (b :: bs) = d.worth b + d.base * d.value bs := by
  rw [value, List.map_cons, Nat.ofDigits_cons]
  rfl

lemma value_concat : d.value (bs ++ [b]) = d.value bs + d.base ^ bs.length * d.worth b := by
  rw [value, List.map_append, Nat.ofDigits_append, List.length_map, List.map_singleton, Nat.ofDigits_singleton]
  rfl

lemma value_lt {bs : List UInt8} (h : ∀ b ∈ bs, d.Digit b) : d.value bs < d.base ^ bs.length := by
  have hlt := Nat.ofDigits_lt_base_pow_length d.one_lt (l := bs.map d.worth) fun x hx => by
    obtain ⟨b, hb, rfl⟩ := List.mem_map.mp hx
    exact d.worth_lt b (h b hb)
  rwa [List.length_map] at hlt

def Sum (d : Numeral) (z x y : UInt8) (i j : Nat) : Prop :=
  d.worth z + d.base * j = d.worth x + d.worth y + i

def Difference (d : Numeral) (z x y : UInt8) (i j : Nat) : Prop :=
  d.Sum x z y i j

inductive Columns (R : UInt8 → UInt8 → UInt8 → Nat → Nat → Prop) :
    List UInt8 → List UInt8 → List UInt8 → Nat → Nat → Prop where
  | nil (k : Nat) : Columns R [] [] [] k k
  | cons {z x y : UInt8} {zs xs ys : List UInt8} {i j k : Nat} (h : R z x y i j) (hs : Columns R zs xs ys j k) :
      Columns R (z :: zs) (x :: xs) (y :: ys) i k

def Makes (d : Numeral) (adjust : Registers → Registers) (op : AluOp)
    (R : UInt8 → UInt8 → UInt8 → Nat → Nat → Prop) : Prop :=
  ∀ (r : Registers) (x y : UInt8), d.Digit x → d.Digit y →
    let s := r.digit adjust op (x, y)
    d.Digit s.a ∧ R s.a x y r.carry s.carry

def Digits (d : Numeral) (pairs : List (UInt8 × UInt8)) : Prop :=
  ∀ p ∈ pairs, d.Digit p.1 ∧ d.Digit p.2

variable {d} {adjust : Registers → Registers} {op : AluOp} {R : UInt8 → UInt8 → UInt8 → Nat → Nat → Prop}
  {pairs : List (UInt8 × UInt8)} {zs xs ys : List UInt8} {i k : Nat}

theorem Makes.long (h : d.Makes adjust op R) (hop : op.withCarry = op) (hp : d.Digits pairs) (r : Registers) :
    let t := r.long adjust op pairs
    (∀ z ∈ t.1, d.Digit z) ∧ Columns R t.1 (pairs.map Prod.fst) (pairs.map Prod.snd) r.carry t.2.carry := by
  -- Of the registers only the carry comes from the pairs before, but it is whatever they have left.
  induction pairs generalizing r with
  | nil => exact ⟨List.forall_mem_nil _, .nil _⟩
  | cons p pairs ih =>
    obtain ⟨⟨hx, hy⟩, hp⟩ := List.forall_mem_cons.mp hp
    obtain ⟨hz, hcolumn⟩ := h r p.1 p.2 hx hy
    obtain ⟨hzs, hrest⟩ := ih hp (r.digit adjust op p)
    simp only [Registers.long, hop]
    exact ⟨List.forall_mem_cons.mpr ⟨hz, hzs⟩, .cons hcolumn hrest⟩

lemma Columns.length_eq (h : Columns R zs xs ys i k) : zs.length = xs.length ∧ zs.length = ys.length := by
  induction h with
  | nil => exact ⟨rfl, rfl⟩
  | cons _ _ ih => exact ⟨congrArg (· + 1) ih.1, congrArg (· + 1) ih.2⟩

lemma Columns.undo (h : Columns d.Difference zs xs ys i k) : Columns d.Sum xs zs ys i k := by
  induction h with
  | nil k => exact .nil k
  | cons h _ ih => exact .cons h ih

theorem Columns.value (h : Columns d.Sum zs xs ys i k) :
    d.value zs + d.base ^ zs.length * k = d.value xs + d.value ys + i := by
  induction h with
  | nil k => simp [Numeral.value]
  | @cons z x y zs xs ys i j k h _ ih =>
    -- The carry `j` leaves its column with the weight of the base and enters the next one.
    have hscaled := congrArg (d.base * ·) ih
    simp only [Sum] at h
    simp only [value_cons, List.length_cons, pow_succ]
    linarith

lemma Columns.sum {c : Bool} (h : Columns d.Sum zs xs ys i (carryBit c)) (hz : ∀ z ∈ zs, d.Digit z) :
    d.value zs = (d.value xs + d.value ys + i) % d.base ^ zs.length ∧
      (c = true ↔ d.base ^ zs.length ≤ d.value xs + d.value ys + i) := by
  have hlt := d.value_lt hz
  rw [← h.value]
  generalize d.base ^ zs.length = m at hlt ⊢
  refine ⟨?_, ?_⟩
  · rw [Nat.add_mul_mod_self_left, Nat.mod_eq_of_lt hlt]
  · cases c with
    | false => simpa using hlt
    | true => simp

lemma Columns.difference {c : Bool} (h : Columns d.Difference zs xs ys i (carryBit c)) (hz : ∀ z ∈ zs, d.Digit z) :
    (d.value zs : Int) = (d.value xs - d.value ys - i) % d.base ^ zs.length ∧
      (c = true ↔ d.value xs < d.value ys + i) := by
  have hlt := d.value_lt hz
  have hvalue := h.undo.value
  rw [← h.length_eq.1] at hvalue
  rw [← Nat.cast_pow]
  generalize d.base ^ zs.length = m at hlt hvalue ⊢
  refine ⟨?_, ?_⟩
  · have hdiff : (d.value xs - d.value ys - i : Int) = d.value zs - m * carryBit c := by
      rw [eq_sub_iff_add_eq]
      omega
    rw [hdiff, Int.sub_mul_emod_self_left, Int.emod_eq_of_lt (Int.natCast_nonneg _) (Int.ofNat_lt.mpr hlt)]
  · cases c with
    | false =>
      rw [carryBit_false, Nat.mul_zero] at hvalue
      exact iff_of_false Bool.false_ne_true (by omega)
    | true =>
      rw [carryBit_true, Nat.mul_one] at hvalue
      exact iff_of_true rfl (by omega)

lemma Makes.entering (h : d.Makes adjust op.withCarry R) (hp : d.Digits pairs) (hne : pairs ≠ []) (r : Registers) :
    let t := r.long adjust op pairs
    (∀ z ∈ t.1, d.Digit z) ∧ Columns R t.1 (pairs.map Prod.fst) (pairs.map Prod.snd)
      (carryBit (op.takesCarry && r.flags.c)) (carryBit t.2.flags.c) := by
  rw [← r.carry_entering, r.long_entering adjust op hne]
  exact h.long op.withCarry_withCarry hp (r.entering op)

theorem Makes.sum (h : d.Makes adjust op.withCarry d.Sum) (hp : d.Digits pairs) (r : Registers) :
    let t := r.long adjust op pairs
    let total := d.value (pairs.map Prod.fst) + d.value (pairs.map Prod.snd) + carryBit (op.takesCarry && r.flags.c)
    (∀ z ∈ t.1, d.Digit z) ∧ d.value t.1 = total % d.base ^ pairs.length ∧
      (pairs ≠ [] → (t.2.flags.c = true ↔ d.base ^ pairs.length ≤ total)) := by
  by_cases hne : pairs = []
  · subst hne
    exact ⟨List.forall_mem_nil _, (Nat.mod_one _).symm, absurd rfl⟩
  · obtain ⟨hz, hcolumns⟩ := h.entering hp hne r
    obtain ⟨hvalue, hcarry⟩ := hcolumns.sum hz
    rw [r.length_long] at hvalue hcarry
    exact ⟨hz, hvalue, fun _ => hcarry⟩

theorem Makes.difference (h : d.Makes adjust op.withCarry d.Difference) (hp : d.Digits pairs) (r : Registers) :
    let t := r.long adjust op pairs
    let x := d.value (pairs.map Prod.fst)
    let y := d.value (pairs.map Prod.snd)
    let k := carryBit (op.takesCarry && r.flags.c)
    (∀ z ∈ t.1, d.Digit z) ∧ (d.value t.1 : Int) = (x - y - k) % d.base ^ pairs.length ∧
      (pairs ≠ [] → (t.2.flags.c = true ↔ x < y + k)) := by
  by_cases hne : pairs = []
  · subst hne
    exact ⟨List.forall_mem_nil _, (Int.emod_one _).symm, absurd rfl⟩
  · obtain ⟨hz, hcolumns⟩ := h.entering hp hne r
    obtain ⟨hvalue, hcarry⟩ := hcolumns.difference hz
    rw [r.length_long] at hvalue
    exact ⟨hz, hvalue, fun _ => hcarry⟩

end Numeral

end Z80Machine
