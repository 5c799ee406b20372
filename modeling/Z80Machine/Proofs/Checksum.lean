import Mathlib.Data.Nat.Bitwise
import Mathlib.Data.Nat.Digits.Lemmas
import Mathlib.Logic.Function.Iterate
import Z80Machine.Image

/-! The checksum of a program image. Shifting the remainder is linear and loses nothing. For the one reason the bytes of
a message may be looked up in a table, and for the other no change within four bytes of it, which are as many as the
remainder holds, goes unnoticed. -/

namespace Z80Machine

namespace Crc32

/-! One shift -/

lemma and_one_iff (r : UInt32) : r &&& 1 = 1 ↔ r.toNat.testBit 0 = true := by
  rw [← UInt32.toNat_inj, UInt32.toNat_and, UInt32.toNat_one, Nat.and_one_is_mod, Nat.testBit_zero, decide_eq_true_eq]

lemma shift_eq (r : UInt32) : shift r = (r >>> 1) ^^^ bif r.toNat.testBit 0 then polynomial else 0 := by
  unfold shift
  cases h : r.toNat.testBit 0 with
  | true => rw [if_pos ((and_one_iff r).mpr h), cond_true]
  | false => rw [if_neg (by rw [and_one_iff, h]; exact Bool.false_ne_true), cond_false, UInt32.xor_zero]

lemma shift_xor (a b : UInt32) : shift (a ^^^ b) = shift a ^^^ shift b := by
  rw [shift_eq, shift_eq a, shift_eq b, UInt32.shiftRight_xor, UInt32.toNat_xor, Nat.testBit_xor]
  have hself : polynomial ^^^ polynomial = 0 := UInt32.xor_self
  cases a.toNat.testBit 0 <;> cases b.toNat.testBit 0
  case true.true =>
    calc (a >>> 1) ^^^ (b >>> 1) ^^^ (0 : UInt32)
      _ = (a >>> 1) ^^^ (b >>> 1) ^^^ (polynomial ^^^ polynomial) := by rw [hself]
      _ = ((a >>> 1) ^^^ polynomial) ^^^ ((b >>> 1) ^^^ polynomial) := by ac_rfl
  case false.false => simp only [Bool.false_xor, cond_false, UInt32.xor_zero]
  all_goals
    simp only [Bool.xor_false, Bool.false_xor, cond_true, cond_false, UInt32.xor_zero]
    ac_rfl

lemma shift_double {m : Nat} (h : 2 * m < 2 ^ 32) : shift (UInt32.ofNat (2 * m)) = UInt32.ofNat m := by
  have hn : (UInt32.ofNat (2 * m)).toNat = 2 * m := UInt32.toNat_ofNat_of_lt' h
  have heven : (2 * m).testBit 0 = false := by simp
  rw [shift_eq, hn, heven, cond_false, UInt32.xor_zero]
  apply UInt32.toNat_inj.mp
  rw [UInt32.toNat_shiftRight, hn, UInt32.toNat_ofNat_of_lt' (Nat.lt_of_le_of_lt (by omega) h)]
  simp [Nat.shiftRight_eq_div_pow]

lemma eq_zero_of_shift {r : UInt32} (h : shift r = 0) : r = 0 := by
  rw [shift_eq, UInt32.xor_eq_zero_iff] at h
  have hr : r.toNat / 2 = (bif r.toNat.testBit 0 then polynomial else 0).toNat := by
    rw [← h, UInt32.toNat_shiftRight]
    simp [Nat.shiftRight_eq_div_pow]
  have hlt := r.toNat_lt
  cases hodd : r.toNat.testBit 0 with
  | true =>
    -- The highest term of the polynomial stays, where half of a remainder has none.
    rw [hodd, cond_true, show polynomial.toNat = 0xEDB88320 from rfl] at hr
    omega
  | false =>
    rw [hodd, cond_false, UInt32.toNat_zero] at hr
    rw [Nat.testBit_zero, decide_eq_false_iff_not] at hodd
    apply UInt32.toNat_inj.mp
    rw [UInt32.toNat_zero]
    omega

lemma shift_injective : Function.Injective shift := fun a b h => by
  have hxor : shift (a ^^^ b) = 0 := by rw [shift_xor, h, UInt32.xor_self]
  exact UInt32.xor_eq_zero_iff.mp (eq_zero_of_shift hxor)

/-! Up to thirty-two bits -/

def word (bs : List Bool) : Nat :=
  Nat.ofDigits 2 (bs.map Bool.toNat)

lemma word_cons (x : Bool) (bs : List Bool) : word (x :: bs) = x.toNat + 2 * word bs := by
  simp [word, Nat.ofDigits_cons]

lemma digit_lt {n : Nat} {bs : List Bool} (h : n ∈ bs.map Bool.toNat) : n < 2 := by
  obtain ⟨x, -, rfl⟩ := List.mem_map.mp h
  exact x.toNat_lt

lemma word_lt (bs : List Bool) : word bs < 2 ^ bs.length := by
  have h := Nat.ofDigits_lt_base_pow_length Nat.one_lt_two fun n (hn : n ∈ bs.map Bool.toNat) => digit_lt hn
  rwa [List.length_map] at h

lemma word_inj {bs cs : List Bool} (hlen : bs.length = cs.length) (h : word bs = word cs) : bs = cs := by
  have hmap := Nat.ofDigits_inj_of_len_eq Nat.one_lt_two (by rwa [List.length_map, List.length_map])
    (fun _ => digit_lt) (fun _ => digit_lt) h
  exact List.map_injective_iff.mpr (by decide) hmap

lemma xor_double (x : Bool) (m : Nat) : x.toUInt32 ^^^ UInt32.ofNat (2 * m) = UInt32.ofNat (x.toNat + 2 * m) := by
  cases x with
  | false =>
    rw [Bool.toNat_false, Nat.zero_add]
    exact UInt32.zero_xor
  | true =>
    rw [Bool.toNat_true, Nat.add_comm, ← Nat.xor_one_of_even (even_two_mul m), UInt32.ofNat_xor, UInt32.xor_comm]
    rfl

theorem foldl_takeBit (bs : List Bool) (h : bs.length ≤ 32) (r : UInt32) :
    bs.foldl takeBit r = shift^[bs.length] (r ^^^ UInt32.ofNat (word bs)) := by
  induction bs generalizing r with
  | nil => simp [word]
  | cons x bs ih =>
    have hlt : 2 * word bs < 2 ^ 32 := by
      have hword := word_lt bs
      have hpow : 2 ^ (bs.length + 1) ≤ 2 ^ 32 := Nat.pow_le_pow_right (by decide) h
      omega
    have hlen : bs.length ≤ 32 := Nat.le_of_succ_le h
    rw [List.foldl_cons, ih hlen, takeBit, ← shift_double hlt, ← shift_xor, UInt32.xor_assoc, xor_double, ← word_cons,
      List.length_cons, Function.iterate_succ_apply]

/-! Bytes -/

lemma length_bits (b : UInt8) : (bits b).length = 8 := by
  simp [bits]

lemma word_bits (b : UInt8) : word (bits b) = b.toNat := by
  have hlt := b.toNat_lt
  have hbit (k : Nat) : (b.toNat.testBit k).toNat = b.toNat / 2 ^ k % 2 := by
    rw [Nat.testBit_eq_decide_div_mod_eq]
    rcases Nat.mod_two_eq_zero_or_one (b.toNat / 2 ^ k) with h | h <;> simp [h]
  simp only [bits, List.range, List.range.loop, List.map_cons, List.map_nil, word_cons, hbit]
  simp only [word, List.map_nil, Nat.ofDigits_nil]
  omega

lemma bits_injective : Function.Injective bits := fun b c h =>
  UInt8.toNat_inj.mp (by rw [← word_bits, ← word_bits, h])

lemma shiftEight_xor (a b : UInt32) : shiftEight (a ^^^ b) = shiftEight a ^^^ shiftEight b := by
  simp only [shiftEight, shift_xor]

lemma foldl_bits (r : UInt32) (b : UInt8) : (bits b).foldl takeBit r = shiftEight (r ^^^ b.toUInt32) := by
  have hword : UInt32.ofNat b.toNat = b.toUInt32 := by
    apply UInt32.toNat_inj.mp
    simp
  rw [foldl_takeBit _ (by rw [length_bits]; decide), length_bits, word_bits, hword]
  rfl

lemma shiftEight_high {m : Nat} (h : 2 ^ 8 * m < 2 ^ 32) : shiftEight (UInt32.ofNat (2 ^ 8 * m)) = UInt32.ofNat m := by
  have hpow : 2 ^ 8 * m = 2 * (2 * (2 * (2 * (2 * (2 * (2 * (2 * m))))))) := by omega
  rw [hpow, shiftEight]
  repeat rw [shift_double (by omega)]

lemma eq_high_xor_low (r : UInt32) : r = UInt32.ofNat (2 ^ 8 * (r.toNat / 2 ^ 8)) ^^^ r.toUInt8.toUInt32 := by
  have hlow : r.toUInt8.toUInt32 = UInt32.ofNat (r.toNat % 2 ^ 8) := by
    apply UInt32.toNat_inj.mp
    simp
    omega
  have hsum : 2 ^ 8 * (r.toNat / 2 ^ 8) + r.toNat % 2 ^ 8 = r.toNat := Nat.div_add_mod r.toNat (2 ^ 8)
  rw [hlow, ← UInt32.ofNat_xor]
  conv_lhs => rw [← UInt32.ofNat_toNat (x := r), ← hsum]
  congr 1
  apply Nat.eq_of_testBit_eq
  intro i
  rw [Nat.testBit_two_pow_mul_add _ (Nat.mod_lt _ (by decide)), Nat.testBit_xor, Nat.testBit_two_pow_mul,
    Nat.testBit_mod_two_pow]
  by_cases hi : i < 8
  · simp [hi, Nat.not_le.mpr hi]
  · simp [hi, Nat.not_lt.mp hi]

lemma shiftEight_eq (r : UInt32) : shiftEight r = (r >>> 8) ^^^ shiftEight r.toUInt8.toUInt32 := by
  have hhigh : r >>> 8 = UInt32.ofNat (r.toNat / 2 ^ 8) := by
    apply UInt32.toNat_inj.mp
    have hlt := r.toNat_lt
    simp [Nat.shiftRight_eq_div_pow]
    omega
  conv_lhs => rw [eq_high_xor_low r]
  rw [shiftEight_xor, shiftEight_high (Nat.lt_of_le_of_lt (Nat.mul_div_le _ _) r.toNat_lt), hhigh]

lemma takeByte_eq (r : UInt32) (b : UInt8) : takeByte r b = (bits b).foldl takeBit r := by
  have htop : b.toUInt32 >>> 8 = 0 := by
    apply UInt32.toNat_inj.mp
    have hlt := b.toNat_lt
    simp [Nat.shiftRight_eq_div_pow]
    omega
  have hlow : (r ^^^ b.toUInt32).toUInt8 = r.toUInt8 ^^^ b := by
    rw [UInt32.toUInt8_xor, UInt8.toUInt8_toUInt32]
  have hentry (i : UInt8) (h : i.toNat < 256) : table[i.toNat] = shiftEight i.toUInt32 := by
    simp [table]
  rw [foldl_bits, shiftEight_eq, UInt32.shiftRight_xor, htop, UInt32.xor_zero, hlow, takeByte]
  exact congrArg _ (hentry _ _)

lemma remainder_eq_divide (r : UInt32) (message : List UInt8) : remainder r message = divide r message := by
  induction message generalizing r with
  | nil => rfl
  | cons b bs ih =>
    rw [divide, List.flatMap_cons, List.foldl_append, ← takeByte_eq]
    exact ih (takeByte r b)

/-- From any remainder on, looking bytes up comes to what dividing bit by bit comes to. So the checksum is the
complement of a division, and one that may be interrupted after any byte. -/
theorem ofBytes_divides (message : List UInt8) :
    (∀ r, remainder r message = divide r message) ∧ ofBytes message = ~~~ divide initial message ∧
      ∀ first rest, remainder initial (first ++ rest) = remainder (remainder initial first) rest :=
  ⟨fun r => remainder_eq_divide r message, congrArg (~~~ ·) (remainder_eq_divide initial message),
    fun first rest => remainder_append initial first rest⟩

/-! Damage -/

lemma foldl_takeBit_injective (bs : List Bool) : Function.Injective fun r => bs.foldl takeBit r := by
  induction bs with
  | nil => exact Function.injective_id
  | cons x bs ih =>
    intro r s h
    exact UInt32.xor_left_inj _ |>.mp (shift_injective (ih h))

lemma length_flatMap_bits (message : List UInt8) : (message.flatMap bits).length = 8 * message.length := by
  induction message with
  | nil => rfl
  | cons b bs ih =>
    rw [List.flatMap_cons, List.length_append, ih, length_bits, List.length_cons]
    omega

lemma flatMap_bits_inj {xs ys : List UInt8} (hlen : xs.length = ys.length) (h : xs.flatMap bits = ys.flatMap bits) :
    xs = ys := by
  induction xs generalizing ys with
  | nil => exact (List.length_eq_zero_iff.mp hlen.symm).symm
  | cons x xs ih =>
    obtain ⟨y, ys, rfl⟩ := List.exists_cons_of_length_eq_add_one hlen.symm
    rw [List.flatMap_cons, List.flatMap_cons] at h
    obtain ⟨hx, hxs⟩ := List.append_inj h (by rw [length_bits, length_bits])
    rw [bits_injective hx, ih (by simpa using hlen) hxs]

lemma divide_inj {r : UInt32} {xs ys : List UInt8} (hlen : xs.length = ys.length) (hle : xs.length ≤ 4)
    (h : divide r xs = divide r ys) : xs = ys := by
  have hx := length_flatMap_bits xs
  have hy := length_flatMap_bits ys
  rw [divide, divide, foldl_takeBit _ (by omega), foldl_takeBit _ (by omega), hx, hy, hlen] at h
  have hwords := (UInt32.xor_right_inj r).mp (shift_injective.iterate _ h)
  have hlt {zs : List UInt8} (hz : zs.length ≤ 4) : word (zs.flatMap bits) < 2 ^ 32 := by
    refine Nat.lt_of_lt_of_le (word_lt _) (Nat.pow_le_pow_right (by decide) ?_)
    have := length_flatMap_bits zs
    omega
  have hnat := congrArg UInt32.toNat hwords
  rw [UInt32.toNat_ofNat_of_lt' (hlt hle), UInt32.toNat_ofNat_of_lt' (hlt (hlen ▸ hle))] at hnat
  exact flatMap_bits_inj hlen (word_inj (by omega) hnat)

lemma remainder_ne_of_window {before xs ys after : List UInt8} (hlen : xs.length = ys.length) (hle : xs.length ≤ 4)
    (hne : xs ≠ ys) (r : UInt32) : remainder r (before ++ xs ++ after) ≠ remainder r (before ++ ys ++ after) := by
  intro h
  rw [remainder_append, remainder_append, remainder_append, remainder_append] at h
  simp only [remainder_eq_divide] at h
  exact hne (divide_inj hlen hle (foldl_takeBit_injective _ h))

end Crc32

lemma exists_window {xs ys : List UInt8} (hlen : xs.length = ys.length) {k : Nat}
    (hk : ∀ i, xs[i]? ≠ ys[i]? → k ≤ i ∧ i < k + 4) :
    ∃ before us vs after, xs = before ++ us ++ after ∧ ys = before ++ vs ++ after ∧ us.length = vs.length ∧
      us.length ≤ 4 := by
  have hsame (i : Nat) (hi : i < k ∨ k + 4 ≤ i) : xs[i]? = ys[i]? := by
    by_contra hne
    have := hk i hne
    omega
  have hbefore : xs.take k = ys.take k := by
    apply List.ext_getElem?
    intro i
    rw [List.getElem?_take, List.getElem?_take]
    split
    case isTrue hi => exact hsame i (.inl hi)
    case isFalse => rfl
  have hafter : xs.drop (k + 4) = ys.drop (k + 4) := by
    apply List.ext_getElem?
    intro i
    rw [List.getElem?_drop, List.getElem?_drop]
    exact hsame _ (.inr (Nat.le_add_right _ _))
  refine ⟨xs.take k, (xs.drop k).take 4, (ys.drop k).take 4, xs.drop (k + 4), ?_, ?_, ?_, ?_⟩
  · rw [List.append_assoc, ← List.drop_drop, List.take_append_drop, List.take_append_drop]
  · rw [hbefore, hafter, List.append_assoc, ← List.drop_drop, List.take_append_drop, List.take_append_drop]
  · simp [hlen]
  · simp

namespace Image

/-- No damage within four bytes of an image escapes its checksum, wherever it lies. -/
theorem damage_detected {xs ys : List UInt8} (hlen : xs.length = ys.length) (hne : xs ≠ ys) {k : Nat}
    (hk : ∀ i, xs[i]? ≠ ys[i]? → k ≤ i ∧ i < k + 4) :
    Crc32.ofBytes xs ≠ Crc32.ofBytes ys ∧
      ∀ original damaged : Image, original.bytes = xs → damaged.bytes = ys →
        damaged.verify original.crc = .error (.checksumMismatch original.crc damaged.crc) := by
  obtain ⟨before, us, vs, after, rfl, rfl, huv, hle⟩ := exists_window hlen hk
  have hne' : us ≠ vs := fun h => hne (by rw [h])
  have hcrc : Crc32.ofBytes (before ++ us ++ after) ≠ Crc32.ofBytes (before ++ vs ++ after) := fun h =>
    Crc32.remainder_ne_of_window huv hle hne' _ (UInt32.not_inj.mp h)
  refine ⟨hcrc, fun original damaged ho hd => ?_⟩
  have hrefused : damaged.crc ≠ original.crc := by
    rw [crc, crc, ho, hd]
    exact hcrc.symm
  rw [verify, if_neg hrefused]

theorem damage_detected_top :
    let original : Image := ⟨[0, 1, 2, 3, 4, 5], 0xFFFA, by decide, by decide⟩
    let damaged : Image := ⟨[0, 0xFE, 0xFD, 0xFC, 0xFB, 5], 0xFFFA, by decide, by decide⟩
    original.bytes.length = damaged.bytes.length ∧ original.bytes ≠ damaged.bytes ∧
      (∀ i, original.bytes[i]? ≠ damaged.bytes[i]? → 1 ≤ i ∧ i < 1 + 4) ∧
      damaged.verify original.crc = .error (.checksumMismatch original.crc damaged.crc) := by
  intro original damaged
  have hlen : original.bytes.length = damaged.bytes.length := rfl
  have hne : original.bytes ≠ damaged.bytes := by decide
  have hk : ∀ i, original.bytes[i]? ≠ damaged.bytes[i]? → 1 ≤ i ∧ i < 1 + 4 := by
    intro i hi
    rcases i with _ | _ | _ | _ | _ | _ | i
    case zero => exact absurd rfl hi
    case succ.succ.succ.succ.succ.zero => exact absurd rfl hi
    case succ.succ.succ.succ.succ.succ => exact absurd rfl hi
    all_goals decide
  exact ⟨hlen, hne, hk, (damage_detected hlen hne hk).2 original damaged rfl rfl⟩

end Image

end Z80Machine
