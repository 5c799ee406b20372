import Mathlib.Data.List.Forall2
import Mathlib.Data.Nat.Digits.Defs
import Z80Machine.CommandLine

/-! Hexadecimal numbers on the command line. What is read is a number behind at most one mark, and beyond that also a
number behind several marks or a plus sign. -/

namespace Z80Machine

namespace Hex

def Digits (cs : List Char) (n : Nat) : Prop :=
  cs ≠ [] ∧ ∃ ds, List.Forall₂ (fun c d => digitValue? c = some d) cs ds ∧ Nat.ofDigits 16 ds.reverse = n

lemma digitValue_lt {c : Char} {d : Nat} (h : digitValue? c = some d) : d < 16 := by
  have hle (x y : Char) : x ≤ y ↔ x.toNat ≤ y.toNat := Iff.rfl
  simp only [digitValue?, hle, show '9'.toNat = 57 from rfl, show 'f'.toNat = 102 from rfl,
    show 'F'.toNat = 70 from rfl] at h
  split_ifs at h
  all_goals
    obtain rfl := Option.some.inj h
    omega

lemma Digits.isSome {cs : List Char} {n : Nat} (h : Digits cs n) {c : Char} (hc : c ∈ cs) : (digitValue? c).isSome := by
  obtain ⟨-, ds, hds, -⟩ := h
  obtain ⟨i, hi, rfl⟩ := List.getElem_of_mem hc
  exact Option.isSome_of_eq_some (hds.get hi (hds.length_eq ▸ hi))

end Hex

namespace Text

open Hex

def marks (mark : Char) (k : Nat) : List Char :=
  (List.replicate k ['0', mark]).flatten

inductive Spelled : List Char → Nat → Prop
  | bare {cs : List Char} {n : Nat} (h : Digits cs n) : Spelled cs n
  | small {cs : List Char} {n : Nat} (h : Digits cs n) : Spelled ('0' :: 'x' :: cs) n
  | capital {cs : List Char} {n : Nat} (h : Digits cs n) : Spelled ('0' :: 'X' :: cs) n

inductive Signed : List Char → Nat → Prop
  | unsigned {cs : List Char} {n : Nat} (h : Digits cs n) : Signed cs n
  | signed {cs : List Char} {n : Nat} (h : Digits cs n) : Signed ('+' :: cs) n

/-- A number as it is read: first marks with a small letter, then marks with a capital letter, then digits that may have
a plus sign. -/
def Accepted (cs : List Char) (n : Nat) : Prop :=
  ∃ j k tail, cs = marks 'x' j ++ (marks 'X' k ++ tail) ∧ Signed tail n

def Repeated (cs : List Char) : Prop :=
  ∃ c d rest, cs = '0' :: c :: '0' :: d :: rest ∧ (c = 'x' ∨ c = 'X') ∧ (d = 'x' ∨ d = 'X')

/-! Digits -/

variable {limit n v : Nat} {cs : List Char}

lemma digit_sixteen {c : Char} {d : Nat} : digit? 16 c = some d ↔ digitValue? c = some d := by
  rw [digit?, Option.filter_eq_some_iff, decide_eq_true_eq]
  exact and_iff_left_of_imp digitValue_lt

lemma le_foldl (ds : List Nat) (n : Nat) : n ≤ ds.foldl (16 * · + ·) n := by
  induction ds generalizing n with
  | nil => exact Nat.le_refl n
  | cons d ds ih => exact Nat.le_trans (by omega) (ih (16 * n + d))

lemma readDigits_eq_ok (hn : n < limit) : readDigits 16 limit n cs = .ok v ↔
    ∃ ds, List.Forall₂ (fun c d => digitValue? c = some d) cs ds ∧ ds.foldl (16 * · + ·) n = v ∧ v < limit := by
  induction cs generalizing n with
  | nil =>
    simp only [readDigits, Except.ok.injEq, List.forall₂_nil_left_iff, exists_eq_left, List.foldl_nil]
    exact ⟨fun h => ⟨h, h ▸ hn⟩, And.left⟩
  | cons c cs ih =>
    simp only [List.forall₂_cons_left_iff]
    cases hc : digitValue? c with
    | none =>
      have hd : digit? 16 c = none := by rw [digit?, hc, Option.filter_none]
      simp [readDigits, hd]
    | some d =>
      rw [readDigits, digit_sixteen.mpr hc]
      by_cases hlt : 16 * n + d < limit
      · simp only [if_pos hlt, ih hlt]
        constructor
        · rintro ⟨ds, hds, hv, hlimit⟩
          exact ⟨d :: ds, ⟨d, ds, rfl, hds, rfl⟩, hv, hlimit⟩
        · rintro ⟨_, ⟨d', ds, hd, hds, rfl⟩, hv, hlimit⟩
          obtain rfl := Option.some.inj hd
          exact ⟨ds, hds, hv, hlimit⟩
      · simp only [if_neg hlt]
        refine iff_of_false nofun ?_
        rintro ⟨_, ⟨d', ds, hd, -, rfl⟩, rfl, hlimit⟩
        obtain rfl := Option.some.inj hd
        exact hlt (Nat.lt_of_le_of_lt (le_foldl ds _) hlimit)

lemma digits_iff (hlimit : 0 < limit) : Digits cs n ∧ n < limit ↔ cs ≠ [] ∧ readDigits 16 limit 0 cs = .ok n := by
  have hworth (ds : List Nat) : Nat.ofDigits 16 ds.reverse = ds.foldl (16 * · + ·) 0 := by
    rw [Nat.ofDigits_eq_foldr, List.foldr_reverse]
    simp only [Nat.cast_id, Nat.add_comm]
  simp only [Digits, readDigits_eq_ok hlimit, hworth]
  constructor
  · rintro ⟨⟨hne, ds, hds, hn⟩, hlt⟩
    exact ⟨hne, ds, hds, hn, hlt⟩
  · rintro ⟨hne, ds, hds, hn, hlt⟩
    exact ⟨⟨hne, ds, hds, hn⟩, hlt⟩

lemma not_digits_of_mem {c : Char} (hc : digitValue? c = none) (hmem : c ∈ cs) : ¬ Digits cs n := fun h => by
  have hsome := h.isSome hmem
  rw [hc] at hsome
  cases hsome

lemma signed_plus : Signed ('+' :: cs) n ↔ Digits cs n := by
  constructor
  · intro h
    cases h with
    | unsigned h => exact absurd h (not_digits_of_mem (by decide) List.mem_cons_self)
    | signed h => exact h
  · exact .signed

lemma signed_of_ne {c : Char} (hc : c ≠ '+') : Signed (c :: cs) n ↔ Digits (c :: cs) n := by
  constructor
  · intro h
    cases h with
    | unsigned h => exact h
    | signed h => exact absurd rfl hc
  · exact .unsigned

lemma readNumber_eq_ok (hlimit : 0 < limit) : readNumber 16 limit cs = .ok n ↔ Signed cs n ∧ n < limit := by
  have hnil : ¬ Digits [] n := fun h => h.1 rfl
  fun_cases readNumber 16 limit cs with
  | case1 =>
    refine iff_of_false nofun fun h => ?_
    cases h.1 with
    | unsigned h => exact hnil h
  | case2 => exact iff_of_false nofun fun h => hnil (signed_plus.mp h.1)
  | case3 digits hne =>
    rw [signed_plus, digits_iff hlimit]
    exact (and_iff_right hne).symm
  | case4 digits hne _ hplus =>
    obtain ⟨c, cs, rfl⟩ := List.exists_cons_of_ne_nil hne
    rw [signed_of_ne fun hc => hplus cs (hc ▸ rfl), digits_iff hlimit]
    exact (and_iff_right hne).symm

/-! Marks -/

lemma marks_succ (mark : Char) (k : Nat) : marks mark (k + 1) = '0' :: mark :: marks mark k := by
  rw [marks, List.replicate_succ, List.flatten_cons]
  rfl

lemma exists_dropMarks (mark : Char) (cs : List Char) : ∃ k, cs = marks mark k ++ dropMarks mark cs := by
  fun_induction dropMarks mark cs with
  | case1 rest ih =>
    obtain ⟨k, hk⟩ := ih
    exact ⟨k + 1, by rw [marks_succ, List.cons_append, List.cons_append, ← hk]⟩
  | case2 => exact ⟨0, rfl⟩
  | case3 => exact ⟨0, rfl⟩

lemma dropMarks_marks (mark : Char) (k : Nat) (cs : List Char) :
    dropMarks mark (marks mark k ++ cs) = dropMarks mark cs := by
  induction k with
  | zero => rfl
  | succ k ih => rw [marks_succ, List.cons_append, List.cons_append, dropMarks, if_pos rfl, ih]

def Unmarked (mark : Char) (cs : List Char) : Prop :=
  ∀ rest, cs ≠ '0' :: mark :: rest

lemma Unmarked.dropMarks_eq {mark : Char} (h : Unmarked mark cs) : dropMarks mark cs = cs := by
  fun_cases dropMarks mark cs with
  | case1 rest => exact absurd rfl (h rest)
  | case2 => rfl
  | case3 => rfl

lemma Signed.unmarked (h : Signed cs n) {mark : Char} (hm : digitValue? mark = none) : Unmarked mark cs := by
  rintro rest rfl
  rw [signed_of_ne (by decide)] at h
  exact not_digits_of_mem hm (by simp) h

lemma unmarked_marks (k : Nat) (h : Unmarked 'x' cs) : Unmarked 'x' (marks 'X' k ++ cs) := by
  rcases k with _ | k
  · exact h
  · rw [marks_succ]
    rintro rest ⟨⟩

lemma readHex_eq_ok (hlimit : 0 < limit) : readHex limit cs = .ok n ↔ Accepted cs n ∧ n < limit := by
  rw [readHex, readNumber_eq_ok hlimit]
  refine and_congr_left fun _ => ⟨fun h => ?_, ?_⟩
  · obtain ⟨j, hj⟩ := exists_dropMarks 'x' cs
    obtain ⟨k, hk⟩ := exists_dropMarks 'X' (dropMarks 'x' cs)
    exact ⟨j, k, _, hk ▸ hj, h⟩
  · rintro ⟨j, k, tail, rfl, h⟩
    have hx : Unmarked 'x' tail := h.unmarked (by decide)
    have hX : Unmarked 'X' tail := h.unmarked (by decide)
    rwa [dropMarks_marks, (unmarked_marks k hx).dropMarks_eq, dropMarks_marks, hX.dropMarks_eq]

lemma Accepted.characters (h : Accepted cs n) {c : Char} (hc : c ∈ cs) :
    (digitValue? c).isSome ∨ c = 'x' ∨ c = 'X' ∨ c = '+' := by
  have hmarks (mark : Char) (k : Nat) (hc : c ∈ marks mark k) : (digitValue? c).isSome ∨ c = mark := by
    simp only [marks, List.mem_flatten, List.mem_replicate] at hc
    obtain ⟨_, ⟨-, rfl⟩, hc⟩ := hc
    rcases List.mem_pair.mp hc with rfl | rfl
    · exact .inl (by decide)
    · exact .inr rfl
  obtain ⟨j, k, tail, rfl, h⟩ := h
  rcases List.mem_append.mp hc with hc | hc
  · exact (hmarks 'x' j hc).imp_right .inl
  rcases List.mem_append.mp hc with hc | hc
  · exact (hmarks 'X' k hc).imp_right (.inr ∘ .inl)
  cases h with
  | unsigned h => exact .inl (h.isSome hc)
  | signed h =>
    rcases List.mem_cons.mp hc with rfl | hc
    · exact .inr (.inr (.inr rfl))
    · exact .inl (h.isSome hc)

lemma Spelled.accepted (h : Spelled cs n) : Accepted cs n := by
  cases h with
  | bare h => exact ⟨0, 0, _, rfl, .unsigned h⟩
  | small h => exact ⟨1, 0, _, rfl, .unsigned h⟩
  | capital h => exact ⟨0, 1, _, rfl, .unsigned h⟩

lemma Spelled.plain (h : Spelled cs n) : '+' ∉ cs ∧ ¬ Repeated cs := by
  have hplus {ds : List Char} (h : Digits ds n) : '+' ∉ ds := fun hmem => not_digits_of_mem (by decide) hmem h
  have hmark {ds : List Char} (h : Digits ds n) {mark : Char} (hm : mark = 'x' ∨ mark = 'X') : Unmarked mark ds := by
    rcases hm with rfl | rfl
    all_goals exact (Signed.unsigned h).unmarked (by decide)
  cases h with
  | bare h =>
    refine ⟨hplus h, ?_⟩
    rintro ⟨c, d, rest, rfl, hc, -⟩
    exact hmark h hc _ rfl
  | small h =>
    refine ⟨by simpa using hplus h, ?_⟩
    rintro ⟨c, d, rest, ⟨⟩, -, hd⟩
    exact hmark h hd rest rfl
  | capital h =>
    refine ⟨by simpa using hplus h, ?_⟩
    rintro ⟨c, d, rest, ⟨⟩, -, hd⟩
    exact hmark h hd rest rfl

lemma spelled_iff : Spelled cs n ↔ Accepted cs n ∧ '+' ∉ cs ∧ ¬ Repeated cs := by
  refine ⟨fun h => ⟨h.accepted, h.plain⟩, ?_⟩
  rintro ⟨⟨j, k, tail, rfl, h⟩, hplus, hrepeated⟩
  cases h with
  | signed h => exact absurd (by simp) hplus
  | unsigned h =>
    rcases j with _ | _ | j
    · rcases k with _ | _ | k
      · exact .bare h
      · exact .capital h
      · exact absurd ⟨'X', 'X', _, rfl, .inr rfl, .inr rfl⟩ hrepeated
    · rcases k with _ | k
      · exact .small h
      · exact absurd ⟨'x', 'X', _, rfl, .inl rfl, .inr rfl⟩ hrepeated
    · exact absurd ⟨'x', 'x', _, rfl, .inl rfl, .inl rfl⟩ hrepeated

lemma digits_zero (hne : cs ≠ []) : Digits ('0' :: cs) n ↔ Digits cs n := by
  have hzero : digitValue? '0' = some 0 := by decide
  have hworth (ds : List Nat) : Nat.ofDigits 16 (0 :: ds).reverse = Nat.ofDigits 16 ds.reverse := by
    simp [Nat.ofDigits_append]
  constructor
  · rintro ⟨-, _, hds, hn⟩
    cases hds with
    | cons h hds =>
      obtain rfl := Option.some.inj (hzero.symm.trans h)
      exact ⟨hne, _, hds, (hworth _).symm.trans hn⟩
  · rintro ⟨-, ds, hds, hn⟩
    exact ⟨List.cons_ne_nil _ _, 0 :: ds, .cons hzero hds, (hworth ds).trans hn⟩

lemma digits_zeros (hne : cs ≠ []) (k : Nat) : Digits (List.replicate k '0' ++ cs) n ↔ Digits cs n := by
  induction k with
  | zero => exact Iff.rfl
  | succ k ih => exact (digits_zero (List.append_ne_nil_of_right_ne_nil _ hne)).trans ih

end Text

namespace CommandLine

open Text

lemma ok_iff_accepted {W : Type} {limit : Nat} (ofNat : Nat → W) (toNat : W → Nat) (hlt : ∀ v, toNat v < limit)
    (hword : ∀ v, ofNat (toNat v) = v) (hnat : ∀ n < limit, toNat (ofNat n) = n) (cs : List Char) (v : W) :
    (do return ofNat (← readHex limit cs) : Except NumberError W) = .ok v ↔ Accepted cs (toNat v) := by
  have hread {n : Nat} : readHex limit cs = .ok n ↔ Accepted cs n ∧ n < limit :=
    readHex_eq_ok (Nat.zero_lt_of_lt (hlt v))
  constructor
  · intro h
    cases hn : readHex limit cs with
    | error e =>
      rw [hn] at h
      cases h
    | ok n =>
      rw [hn] at h
      cases h
      obtain ⟨haccepted, hn⟩ := hread.mp hn
      rwa [hnat n hn]
  · intro h
    rw [hread.mpr ⟨h, hlt v⟩]
    exact congrArg Except.ok (hword v)

lemma address_eq_ok (s : String) (v : UInt16) : address s = .ok v ↔ Accepted s.toList v.toNat :=
  ok_iff_accepted UInt16.ofNat UInt16.toNat UInt16.toNat_lt_size (fun _ => UInt16.ofNat_toNat)
    (fun _ => UInt16.toNat_ofNat_of_lt) s.toList v

lemma checksum_eq_ok (s : String) (v : UInt32) : checksum s = .ok v ↔ Accepted s.toList v.toNat :=
  ok_iff_accepted UInt32.ofNat UInt32.toNat UInt32.toNat_lt_size (fun _ => UInt32.ofNat_toNat)
    (fun _ => UInt32.toNat_ofNat_of_lt) s.toList v

/-- Which numbers are read, and with which values. Without a sign and without a second mark they are numbers as they are
written, and with more zeros in front they stay the same. -/
theorem numbers_read (s : String) :
    (∀ v, address s = .ok v ↔ Accepted s.toList v.toNat) ∧
      (∀ v, checksum s = .ok v ↔ Accepted s.toList v.toNat) ∧
      (∀ v : UInt16, Spelled s.toList v.toNat ↔ address s = .ok v ∧ '+' ∉ s.toList ∧ ¬ Repeated s.toList) ∧
      (∀ v : UInt32, Spelled s.toList v.toNat ↔ checksum s = .ok v ∧ '+' ∉ s.toList ∧ ¬ Repeated s.toList) ∧
      (∀ n, Accepted s.toList n → ∀ c ∈ s.toList, (Hex.digitValue? c).isSome ∨ c = 'x' ∨ c = 'X' ∨ c = '+') ∧
      ∀ k n, s.toList ≠ [] → (Hex.Digits (List.replicate k '0' ++ s.toList) n ↔ Hex.Digits s.toList n) := by
  refine ⟨address_eq_ok s, checksum_eq_ok s, fun v => ?_, fun v => ?_, fun n h c hc => h.characters hc,
    fun k n hne => digits_zeros hne k⟩
  · rw [address_eq_ok, spelled_iff]
  · rw [checksum_eq_ok, spelled_iff]

/-- A mark that comes twice is dropped twice, and a plus sign is passed over, though neither belongs to a number as it is
written. The order counts: a small mark behind a capital one is refused, and so is a sign in front of a mark. -/
theorem numbers_read_unspelled :
    (address "0x0x10" = .ok 0x10 ∧ checksum "0x0x10" = .ok 0x10 ∧ ¬ Spelled "0x0x10".toList 0x10) ∧
      (address "+10" = .ok 0x10 ∧ checksum "+10" = .ok 0x10 ∧ ¬ Spelled "+10".toList 0x10) ∧
      (address "0x0X10" = .ok 0x10 ∧ address "0X0x10" = .error .invalidDigit) ∧
      (address "0x+10" = .ok 0x10 ∧ address "+0x10" = .error .invalidDigit) ∧
      ¬ (∀ (s : String) (v : UInt16), address s = .ok v ↔ Spelled s.toList v.toNat) ∧
      ¬ ∀ (s : String) (v : UInt32), checksum s = .ok v ↔ Spelled s.toList v.toNat := by
  have hmarks : ¬ Spelled "0x0x10".toList 0x10 := fun h => h.plain.2 ⟨'x', 'x', _, rfl, .inl rfl, .inl rfl⟩
  have hsign : ¬ Spelled "+10".toList 0x10 := fun h => h.plain.1 (by decide)
  exact ⟨⟨rfl, rfl, hmarks⟩, ⟨rfl, rfl, hsign⟩, ⟨rfl, rfl⟩, ⟨rfl, rfl⟩,
    fun h => hmarks ((h "0x0x10" 0x10).mp rfl), fun h => hsign ((h "+10" 0x10).mp rfl)⟩

end CommandLine

end Z80Machine
