import Z80Machine.Proofs.LongSums

/-! Binary numbers of any length, unsigned and in two's complement: what the carry, the sign and the overflow flag say
about their sums and differences. -/

namespace Z80Machine

namespace Byte

lemma bit_seven (b : UInt8) : bit b 7 = decide (128 ≤ b.toNat) := by
  have hlt := b.toNat_lt
  rw [bit, Nat.testBit_eq_decide_div_mod_eq, decide_eq_decide]
  omega

lemma toSigned_eq (b : UInt8) : toSigned b = b.toNat - if bit b 7 then 256 else 0 := by
  have hlt := b.toNat_lt
  simp only [toSigned, bit_seven, decide_eq_true_eq, UInt8.lt_iff_toNat_lt, UInt8.reduceToNat]
  split <;> split <;> omega

end Byte

namespace Arithmetic

variable (a b : UInt8) (c : Bool)

lemma add_worth : (add a b c).1.toNat + 256 * carryBit (add a b c).2.c = a.toNat + b.toNat + carryBit c := by
  have ha := a.toNat_lt
  have hb := b.toNat_lt
  have hc := carryBit_le c
  rw [toNat_add, add]
  generalize carryBit c = k at hc ⊢
  by_cases h : a.toNat + b.toNat + k > 255
  · simp only [h, decide_true, carryBit_true]
    omega
  · simp only [h, decide_false, carryBit_false]
    omega

lemma sub_worth : a.toNat + 256 * carryBit (sub a b c).2.c = (sub a b c).1.toNat + b.toNat + carryBit c := by
  have ha := a.toNat_lt
  have hb := b.toNat_lt
  have hc := carryBit_le c
  rw [toNat_sub, sub]
  generalize carryBit c = k at hc ⊢
  by_cases h : a.toNat < b.toNat + k
  · simp only [h, decide_true, carryBit_true]
    omega
  · simp only [h, decide_false, carryBit_false]
    omega

lemma add_overflows : (add a b c).2.pv = true ↔
    Byte.toSigned (add a b c).1 ≠ Byte.toSigned a + Byte.toSigned b + carryBit c := by
  have hsum := add_worth a b c
  have ha := a.toNat_lt
  have hb := b.toNat_lt
  have hz := (add a b c).1.toNat_lt
  have hpv : (add a b c).2.pv = ((Byte.bit a 7 == Byte.bit b 7) && (Byte.bit (add a b c).1 7 != Byte.bit a 7)) := rfl
  have hin := carryBit_le c
  have hout := carryBit_le (add a b c).2.c
  rw [hpv]
  simp only [Byte.toSigned_eq, Byte.bit_seven]
  by_cases h : 128 ≤ a.toNat <;> by_cases h' : 128 ≤ b.toNat <;> by_cases h'' : 128 ≤ (add a b c).1.toNat
  all_goals
    simp [h, h', h'']
    omega

lemma sub_overflows : (sub a b c).2.pv = true ↔
    Byte.toSigned (sub a b c).1 ≠ Byte.toSigned a - Byte.toSigned b - carryBit c := by
  have hsum := sub_worth a b c
  have ha := a.toNat_lt
  have hb := b.toNat_lt
  have hz := (sub a b c).1.toNat_lt
  have hpv : (sub a b c).2.pv = ((Byte.bit a 7 != Byte.bit b 7) && (Byte.bit (sub a b c).1 7 != Byte.bit a 7)) := rfl
  have hin := carryBit_le c
  have hout := carryBit_le (sub a b c).2.c
  rw [hpv]
  simp only [Byte.toSigned_eq, Byte.bit_seven]
  by_cases h : 128 ≤ a.toNat <;> by_cases h' : 128 ≤ b.toNat <;> by_cases h'' : 128 ≤ (sub a b c).1.toNat
  all_goals
    simp [h, h', h'']
    omega

end Arithmetic

namespace Numeral

open Arithmetic Registers

def binary : Numeral where
  base := 256
  worth := UInt8.toNat
  Digit _ := True
  one_lt := by decide
  worth_lt b _ := b.toNat_lt

lemma digits_binary (pairs : List (UInt8 × UInt8)) : binary.Digits pairs := fun _ _ => ⟨trivial, trivial⟩

lemma binary_adc : binary.Makes id .adc binary.Sum := by
  intro r x y _ _
  obtain ⟨ha, hf⟩ := r.digit_id .adc (x, y)
  refine ⟨trivial, ?_⟩
  rw [ha, carry, carry, hf]
  exact add_worth x y r.flags.c

lemma binary_sbc : binary.Makes id .sbc binary.Difference := by
  intro r x y _ _
  obtain ⟨ha, hf⟩ := r.digit_id .sbc (x, y)
  refine ⟨trivial, ?_⟩
  rw [ha, carry, carry, hf]
  exact sub_worth x y r.flags.c

def signed (bs : List UInt8) : Int :=
  Int.bmod (binary.value bs) (256 ^ bs.length)

variable {zs xs ys : List UInt8} {i : Nat}

lemma value_binary_lt (bs : List UInt8) : binary.value bs < 256 ^ bs.length :=
  binary.value_lt fun _ _ => trivial

lemma signed_concat (bs : List UInt8) (b : UInt8) :
    signed (bs ++ [b]) = binary.value bs + (256 ^ bs.length : Nat) * Byte.toSigned b := by
  have hlow := value_binary_lt bs
  have hlt := b.toNat_lt
  rw [signed, value_concat, List.length_append, List.length_singleton, pow_succ, Byte.toSigned_eq, Byte.bit_seven]
  change Int.bmod (binary.value bs + 256 ^ bs.length * b.toNat : Nat) _ = _
  generalize 256 ^ bs.length = m at hlow ⊢
  generalize binary.value bs = v at hlow ⊢
  by_cases h : 128 ≤ b.toNat
  · have hge := Nat.mul_le_mul_left m h
    have hle : m * b.toNat ≤ m * 255 := Nat.mul_le_mul_left m (by omega)
    rw [decide_eq_true h, if_pos rfl, mul_sub, ← Int.sub_bmod_right, Int.bmod_eq_of_le (by omega) (by omega)]
    push_cast
    ring
  · have hle : m * b.toNat ≤ m * 127 := Nat.mul_le_mul_left m (by omega)
    rw [decide_eq_false h, if_neg Bool.false_ne_true, sub_zero, Int.bmod_eq_of_le (by omega) (by omega)]
    push_cast
    ring

lemma sign_concat (bs : List UInt8) (b : UInt8) :
    Byte.bit b 7 = (binary.value (bs ++ [b])).testBit (8 * (bs ++ [b]).length - 1) := by
  have hlow := value_binary_lt bs
  rw [value_concat, List.length_append, List.length_singleton]
  change _ = (_ + 256 ^ bs.length * b.toNat).testBit _
  rw [show 256 ^ bs.length = 2 ^ (8 * bs.length) from (pow_mul 2 8 _).symm] at hlow ⊢
  rw [Nat.add_comm, Nat.testBit_two_pow_mul_add _ hlow, if_neg (by omega), Byte.bit]
  congr 1
  omega

lemma Columns.overflows {c : Bool} (h : Columns binary.Sum zs xs ys i (carryBit c)) (x y : UInt8) :
    (add x y c).2.pv = true ↔ signed (zs ++ [(add x y c).1]) ≠ signed (xs ++ [x]) + signed (ys ++ [y]) + i := by
  have hpos : (0 : Int) < (256 ^ zs.length : Nat) := by positivity
  have hvalue : (binary.value zs + (256 ^ zs.length : Nat) * carryBit c : Int) = binary.value xs + binary.value ys + i :=
    mod_cast h.value
  obtain ⟨hx, hy⟩ := h.length_eq
  rw [add_overflows, signed_concat, signed_concat, signed_concat, ← hx, ← hy]
  -- The bytes below are read without sign, so that only their carry reaches the highest bytes.
  have hsum : (binary.value xs + (256 ^ zs.length : Nat) * Byte.toSigned x +
      (binary.value ys + (256 ^ zs.length : Nat) * Byte.toSigned y) + i : Int) =
      binary.value zs + (256 ^ zs.length : Nat) * (Byte.toSigned x + Byte.toSigned y + carryBit c) := by
    linarith
  rw [hsum, Ne, Ne, add_right_inj, mul_right_inj' hpos.ne']

lemma Columns.underflows {c : Bool} (h : Columns binary.Difference zs xs ys i (carryBit c)) (x y : UInt8) :
    (sub x y c).2.pv = true ↔ signed (zs ++ [(sub x y c).1]) ≠ signed (xs ++ [x]) - signed (ys ++ [y]) - i := by
  have hpos : (0 : Int) < (256 ^ xs.length : Nat) := by positivity
  have hvalue : (binary.value xs + (256 ^ xs.length : Nat) * carryBit c : Int) = binary.value zs + binary.value ys + i :=
    mod_cast h.undo.value
  obtain ⟨hz, hy⟩ := h.undo.length_eq
  rw [sub_overflows, signed_concat, signed_concat, signed_concat, ← hz, ← hy]
  have hdiff : (binary.value xs + (256 ^ xs.length : Nat) * Byte.toSigned x -
      (binary.value ys + (256 ^ xs.length : Nat) * Byte.toSigned y) - i : Int) =
      binary.value zs + (256 ^ xs.length : Nat) * (Byte.toSigned x - Byte.toSigned y - carryBit c) := by
    linarith
  rw [hdiff, Ne, Ne, add_right_inj, mul_right_inj' hpos.ne']

variable {pairs : List (UInt8 × UInt8)} {op : AluOp} {R : UInt8 → UInt8 → UInt8 → Nat → Nat → Prop}

lemma exists_highest (r : Registers) (h : binary.Makes id op.withCarry R) (hne : pairs ≠ []) :
    ∃ (zs xs ys : List UInt8) (x y : UInt8) (c : Bool),
      let t := r.long id op pairs
      let v := perform op.withCarry x y c
      pairs.map Prod.fst = xs ++ [x] ∧ pairs.map Prod.snd = ys ++ [y] ∧ t.1 = zs ++ [v.1] ∧ t.2.flags = v.2 ∧
        Columns R zs xs ys (carryBit (op.takesCarry && r.flags.c)) (carryBit c) := by
  obtain ⟨low, high, rfl, hlong⟩ := r.exists_long_concat id op hne
  obtain ⟨-, hcolumns⟩ := h.long op.withCarry_withCarry (digits_binary low) (r.entering op)
  obtain ⟨ha, hf⟩ := ((r.entering op).long id op.withCarry low).2.digit_id op.withCarry high
  rw [r.carry_entering] at hcolumns
  refine ⟨_, _, _, high.1, high.2, _, List.map_append, List.map_append, ?_, ?_, hcolumns⟩
  · rw [hlong, ← ha]
  · rw [hlong, ← hf]

lemma signed_sum (r : Registers) (hop : op.withCarry = .adc) (hne : pairs ≠ []) :
    let t := r.long id op pairs
    t.2.flags.s = (binary.value t.1).testBit (8 * pairs.length - 1) ∧
      (t.2.flags.pv = true ↔ signed t.1 ≠ signed (pairs.map Prod.fst) + signed (pairs.map Prod.snd) +
        carryBit (op.takesCarry && r.flags.c)) := by
  obtain ⟨zs, xs, ys, x, y, c, hx, hy, hz, hf, hcolumns⟩ := exists_highest r (hop ▸ binary_adc) hne
  rw [hop] at hz hf
  dsimp only
  rw [← r.length_long id op pairs, hx, hy, hz, hf]
  exact ⟨sign_concat _ _, hcolumns.overflows _ _⟩

lemma signed_difference (r : Registers) (hop : op.withCarry = .sbc) (hne : pairs ≠ []) :
    let t := r.long id op pairs
    t.2.flags.s = (binary.value t.1).testBit (8 * pairs.length - 1) ∧
      (t.2.flags.pv = true ↔ signed t.1 ≠ signed (pairs.map Prod.fst) - signed (pairs.map Prod.snd) -
        carryBit (op.takesCarry && r.flags.c)) := by
  obtain ⟨zs, xs, ys, x, y, c, hx, hy, hz, hf, hcolumns⟩ := exists_highest r (hop ▸ binary_sbc) hne
  rw [hop] at hz hf
  dsimp only
  rw [← r.length_long id op pairs, hx, hy, hz, hf]
  exact ⟨sign_concat _ _, hcolumns.underflows _ _⟩

end Numeral

open Arithmetic Numeral

/-- Numbers of any length, added or subtracted byte by byte: the bytes of the result, the carry out of it, its sign, and
whether it overflows in two's complement. -/
theorem Registers.long_binary (r : Registers) (xs ys : List UInt8) (hlen : xs.length = ys.length) :
    let n := xs.length
    let x := binary.value xs
    let y := binary.value ys
    (∀ op, op = AluOp.add ∨ op = AluOp.adc →
      let k := carryBit (op.takesCarry && r.flags.c)
      let t := r.long id op (xs.zip ys)
      t.1.length = n ∧ binary.value t.1 = (x + y + k) % 256 ^ n ∧ (n ≠ 0 →
        (t.2.flags.c = true ↔ 256 ^ n ≤ x + y + k) ∧
        t.2.flags.s = (binary.value t.1).testBit (8 * n - 1) ∧
        (t.2.flags.pv = true ↔ signed t.1 ≠ signed xs + signed ys + k))) ∧
    (∀ op, op = AluOp.sub ∨ op = AluOp.sbc →
      let k := carryBit (op.takesCarry && r.flags.c)
      let t := r.long id op (xs.zip ys)
      t.1.length = n ∧ (binary.value t.1 : Int) = (x - y - k) % 256 ^ n ∧ (n ≠ 0 →
        (t.2.flags.c = true ↔ x < y + k) ∧
        t.2.flags.s = (binary.value t.1).testBit (8 * n - 1) ∧
        (t.2.flags.pv = true ↔ signed t.1 ≠ signed xs - signed ys - k))) := by
  obtain ⟨pairs, rfl, rfl, hzip⟩ := exists_columns hlen
  simp only [hzip, List.length_map]
  have hne : pairs.length ≠ 0 → pairs ≠ [] := mt List.length_eq_zero_iff.mpr
  refine ⟨fun op hop => ?_, fun op hop => ?_⟩
  · have hadc : op.withCarry = .adc := by obtain rfl | rfl := hop <;> rfl
    obtain ⟨-, hvalue, hcarry⟩ := Makes.sum (hadc ▸ binary_adc) (digits_binary pairs) r
    exact ⟨r.length_long id op pairs, hvalue, fun h => ⟨hcarry (hne h), signed_sum r hadc (hne h)⟩⟩
  · have hsbc : op.withCarry = .sbc := by obtain rfl | rfl := hop <;> rfl
    obtain ⟨-, hvalue, hcarry⟩ := Makes.difference (hsbc ▸ binary_sbc) (digits_binary pairs) r
    exact ⟨r.length_long id op pairs, hvalue, fun h => ⟨hcarry (hne h), signed_difference r hsbc (hne h)⟩⟩

theorem Registers.long_binary_overflow :
    let xs : List UInt8 := [0xFF, 0x7F]
    let ys : List UInt8 := [0x00, 0x00]
    let r : Registers := { Registers.powerOn with f := 0x01 }
    let t := r.long id .adc (xs.zip ys)
    xs.length = ys.length ∧ xs.length ≠ 0 ∧ binary.value t.1 = 0x8000 ∧ t.2.flags.c = false ∧ t.2.flags.pv = true := by
  intro xs ys r t
  obtain ⟨hsum, -⟩ := r.long_binary xs ys rfl
  obtain ⟨-, hvalue, hflags⟩ := hsum .adc (.inr rfl)
  obtain ⟨hc, -, hpv⟩ := hflags (by decide)
  exact ⟨rfl, by decide, hvalue.trans (by decide), by simpa using hc.not.mpr (by decide), hpv.mpr (by decide)⟩

end Z80Machine
