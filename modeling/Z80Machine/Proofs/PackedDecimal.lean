import Z80Machine.Proofs.LongSums

/-! Packed decimal numbers of any length. The adjustment behind each operation makes a pair of decimal digits of the
byte in A, and leaves the decimal carry where the next operation takes it from. -/

namespace Z80Machine

namespace Arithmetic

def lowOut (a : UInt8) (f : Flags) : Bool :=
  f.h || decide (9 < a.toNat % 16)

def highOut (a : UInt8) (f : Flags) : Bool :=
  f.c || decide (0x99 < a.toNat)

def correction (a : UInt8) (f : Flags) : Nat :=
  0x06 * carryBit (lowOut a f) + 0x60 * carryBit (highOut a f)

lemma decimalAdjust_c (a : UInt8) (f : Flags) : (decimalAdjust a f).2.c = highOut a f := by
  simp [decimalAdjust, highOut, UInt8.lt_iff_toNat_lt]

lemma decimalAdjust_toNat (a : UInt8) (f : Flags) : (decimalAdjust a f).1.toNat =
    if f.n then (256 + a.toNat - correction a f) % 256 else (a.toNat + correction a f) % 256 := by
  have ha := a.toNat_lt
  have hlow : (f.h || decide (a % 16 > 9)) = lowOut a f := by
    simp [lowOut, UInt8.lt_iff_toNat_lt]
  have hhigh : (f.c || decide (a > 0x99)) = highOut a f := by
    simp [highOut, UInt8.lt_iff_toNat_lt]
  simp only [decimalAdjust, hlow, hhigh, correction]
  cases lowOut a f <;> cases highOut a f <;> cases f.n
  all_goals
    simp [UInt8.toNat_sub, UInt8.toNat_add]
    try omega

end Arithmetic

def Registers.daa (r : Registers) : Registers :=
  r.setA (Arithmetic.decimalAdjust r.a r.flags)

lemma Registers.onRegisters_daa (address : UInt16) (r : Registers) : Op.daa.onRegisters address r = return (r.daa, 0) :=
  rfl

namespace Numeral

open Arithmetic Registers

def packed : Numeral where
  base := 100
  worth b := 10 * (b.toNat / 16) + b.toNat % 16
  Digit b := b.toNat / 16 < 10 ∧ b.toNat % 16 < 10
  one_lt := by decide
  worth_lt b h := by omega

lemma worth_packed (b : UInt8) : packed.worth b = 10 * (b.toNat / 16) + b.toNat % 16 := rfl

section Digit

variable {x y : UInt8} (c : Bool)

lemma lowOut_add (hx : packed.Digit x) (hy : packed.Digit y) : lowOut (add x y c).1 (add x y c).2 =
    decide (9 < x.toNat % 16 + y.toNat % 16 + carryBit c) := by
  obtain ⟨-, hx⟩ := hx
  obtain ⟨-, hy⟩ := hy
  have hc := carryBit_le c
  rw [lowOut, toNat_add, add, ← Bool.decide_or, decide_eq_decide]
  omega

lemma highOut_add : highOut (add x y c).1 (add x y c).2 = decide (0x99 < x.toNat + y.toNat + carryBit c) := by
  have hx := x.toNat_lt
  have hy := y.toNat_lt
  have hc := carryBit_le c
  rw [highOut, toNat_add, add, ← Bool.decide_or, decide_eq_decide]
  omega

lemma lowOut_sub (hx : packed.Digit x) : lowOut (sub x y c).1 (sub x y c).2 =
    decide (x.toNat % 16 < y.toNat % 16 + carryBit c) := by
  obtain ⟨-, hx⟩ := hx
  have hy := y.toNat_lt
  have hc := carryBit_le c
  rw [lowOut, toNat_sub, sub, ← Bool.decide_or, decide_eq_decide]
  omega

lemma highOut_sub (hx : packed.Digit x) : highOut (sub x y c).1 (sub x y c).2 =
    decide (x.toNat < y.toNat + carryBit c) := by
  obtain ⟨hxh, hxl⟩ := hx
  have hy := y.toNat_lt
  have hc := carryBit_le c
  rw [highOut, toNat_sub, sub, ← Bool.decide_or, decide_eq_decide]
  omega

lemma packed_add (hx : packed.Digit x) (hy : packed.Digit y) :
    let s := add x y c
    let t := decimalAdjust s.1 s.2
    packed.Digit t.1 ∧ packed.worth t.1 + 100 * carryBit t.2.c = packed.worth x + packed.worth y + carryBit c := by
  intro s t
  have ht : t.1.toNat = _ := decimalAdjust_toNat s.1 s.2
  have hout : t.2.c = _ := decimalAdjust_c s.1 s.2
  have hn : s.2.n = false := rfl
  rw [hn, if_neg Bool.false_ne_true, correction, lowOut_add c hx hy, highOut_add, toNat_add] at ht
  rw [hout, highOut_add, worth_packed, worth_packed, worth_packed]
  obtain ⟨hxh, hxl⟩ := hx
  obtain ⟨hyh, hyl⟩ := hy
  have hc := carryBit_le c
  generalize carryBit c = k at *
  -- A half that comes to ten or more is corrected by six, so that the sixteen it carries stand for ten.
  by_cases hlow : 9 < x.toNat % 16 + y.toNat % 16 + k <;> by_cases hhigh : 0x99 < x.toNat + y.toNat + k
  all_goals
    simp only [hlow, hhigh, decide_true, decide_false, carryBit_true, carryBit_false] at ht ⊢
    refine ⟨⟨?_, ?_⟩, ?_⟩ <;> omega

lemma packed_sub (hx : packed.Digit x) (hy : packed.Digit y) :
    let s := sub x y c
    let t := decimalAdjust s.1 s.2
    packed.Digit t.1 ∧ packed.worth x + 100 * carryBit t.2.c = packed.worth t.1 + packed.worth y + carryBit c := by
  intro s t
  have ht : t.1.toNat = _ := decimalAdjust_toNat s.1 s.2
  have hout : t.2.c = _ := decimalAdjust_c s.1 s.2
  have hn : s.2.n = true := rfl
  rw [hn, if_pos rfl, correction, lowOut_sub c hx, highOut_sub c hx, toNat_sub] at ht
  rw [hout, highOut_sub c hx, worth_packed, worth_packed, worth_packed]
  obtain ⟨hxh, hxl⟩ := hx
  obtain ⟨hyh, hyl⟩ := hy
  have hc := carryBit_le c
  generalize carryBit c = k at *
  by_cases hlow : x.toNat % 16 < y.toNat % 16 + k <;> by_cases hhigh : x.toNat < y.toNat + k
  all_goals
    simp only [hlow, hhigh, decide_true, decide_false, carryBit_true, carryBit_false] at ht ⊢
    refine ⟨⟨?_, ?_⟩, ?_⟩ <;> omega

variable (r : Registers)

lemma digit_daa (op : AluOp) :
    let s := perform op x y r.flags.c
    let t := decimalAdjust s.1 s.2
    (r.digit daa op (x, y)).a = t.1 ∧ (r.digit daa op (x, y)).flags = t.2 := by
  have hf : ({ r with a := x }.operate op y).flags = (perform op x y r.flags.c).2 := (r.digit_id op (x, y)).2
  refine ⟨?_, ?_⟩
  · rw [digit, daa, hf]
    rfl
  · rw [digit, daa, hf]
    exact Flags.ofByte_toByte _

end Digit

lemma packed_adc : packed.Makes daa .adc packed.Sum := by
  intro r x y hx hy
  obtain ⟨ha, hf⟩ := digit_daa (x := x) (y := y) r .adc
  obtain ⟨hdigit, hworth⟩ := packed_add r.flags.c hx hy
  simp only [ha, hf, carry]
  exact ⟨hdigit, hworth⟩

lemma packed_sbc : packed.Makes daa .sbc packed.Difference := by
  intro r x y hx hy
  obtain ⟨ha, hf⟩ := digit_daa (x := x) (y := y) r .sbc
  obtain ⟨hdigit, hworth⟩ := packed_sub r.flags.c hx hy
  simp only [ha, hf, carry]
  exact ⟨hdigit, hworth⟩

variable {pairs : List (UInt8 × UInt8)} {op : AluOp}

lemma packed_n (r : Registers) (hop : op.withCarry = .sbc) (hne : pairs ≠ []) :
    (r.long daa op pairs).2.flags.n = true := by
  obtain ⟨low, high, -, hlong⟩ := r.exists_long_concat daa op hne
  rw [hlong, hop]
  exact congrArg Flags.n (digit_daa _ .sbc).2

end Numeral

open Arithmetic Numeral

/-- Packed decimal numbers of any length, added or subtracted byte by byte with the adjustment behind each operation:
digits of the result in every byte, and the decimal carry out of it. -/
theorem Registers.long_packed (r : Registers) (xs ys : List UInt8) (hlen : xs.length = ys.length)
    (hx : ∀ b ∈ xs, packed.Digit b) (hy : ∀ b ∈ ys, packed.Digit b) :
    let n := xs.length
    let x := packed.value xs
    let y := packed.value ys
    (∀ op, op = AluOp.add ∨ op = AluOp.adc →
      let k := carryBit (op.takesCarry && r.flags.c)
      let t := r.long daa op (xs.zip ys)
      t.1.length = n ∧ (∀ z ∈ t.1, packed.Digit z) ∧ packed.value t.1 = (x + y + k) % 100 ^ n ∧
        (n ≠ 0 → (t.2.flags.c = true ↔ 100 ^ n ≤ x + y + k))) ∧
    (∀ op, op = AluOp.sub ∨ op = AluOp.sbc →
      let k := carryBit (op.takesCarry && r.flags.c)
      let t := r.long daa op (xs.zip ys)
      t.1.length = n ∧ (∀ z ∈ t.1, packed.Digit z) ∧ (packed.value t.1 : Int) = (x - y - k) % 100 ^ n ∧
        (n ≠ 0 → (t.2.flags.c = true ↔ x < y + k) ∧ t.2.flags.n = true)) := by
  obtain ⟨pairs, rfl, rfl, hzip⟩ := exists_columns hlen
  simp only [hzip, List.length_map]
  have hne : pairs.length ≠ 0 → pairs ≠ [] := mt List.length_eq_zero_iff.mpr
  have hdigits : packed.Digits pairs := fun p hp =>
    ⟨hx p.1 (List.mem_map_of_mem hp), hy p.2 (List.mem_map_of_mem hp)⟩
  refine ⟨fun op hop => ?_, fun op hop => ?_⟩
  · have hadc : op.withCarry = .adc := by obtain rfl | rfl := hop <;> rfl
    obtain ⟨hz, hvalue, hcarry⟩ := Makes.sum (hadc ▸ packed_adc) hdigits r
    exact ⟨r.length_long daa op pairs, hz, hvalue, fun h => hcarry (hne h)⟩
  · have hsbc : op.withCarry = .sbc := by obtain rfl | rfl := hop <;> rfl
    obtain ⟨hz, hvalue, hcarry⟩ := Makes.difference (hsbc ▸ packed_sbc) hdigits r
    exact ⟨r.length_long daa op pairs, hz, hvalue, fun h => ⟨hcarry (hne h), packed_n r hsbc (hne h)⟩⟩

theorem Registers.long_packed_borrow :
    let xs : List UInt8 := [0x00, 0x01]
    let ys : List UInt8 := [0x99, 0x01]
    let t := Registers.powerOn.long daa .sub (xs.zip ys)
    xs.length = ys.length ∧ (∀ b ∈ xs, packed.Digit b) ∧ (∀ b ∈ ys, packed.Digit b) ∧
      (packed.value t.1 : Int) = 9901 ∧ t.2.flags.c = true ∧ t.2.flags.n = true := by
  have hx : ∀ b ∈ [(0x00 : UInt8), 0x01], packed.Digit b := by
    simp [packed]
  have hy : ∀ b ∈ [(0x99 : UInt8), 0x01], packed.Digit b := by
    simp [packed]
  intro xs ys t
  obtain ⟨-, hsub⟩ := Registers.powerOn.long_packed xs ys rfl hx hy
  obtain ⟨-, -, hvalue, hflags⟩ := hsub .sub (.inl rfl)
  obtain ⟨hc, hn⟩ := hflags (by decide)
  exact ⟨rfl, hx, hy, hvalue.trans (by decide), hc.mpr (by decide), hn⟩

end Z80Machine
