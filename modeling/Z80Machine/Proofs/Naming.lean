import Z80Machine.Proofs.Assembly
import Z80Machine.Proofs.Cutting
import Z80Machine.Proofs.Hexadecimal
import Z80Machine.TestVector.Opcodes

/-! Names of opcode sequences read back. A name has a word for each byte, and the word tells the byte, but for the third
of four: whatever it is, nothing is left of it. -/

namespace Z80Machine

namespace Hex

lemma digits_lowerDigits (b : UInt8) : Digits (lowerDigits b) b.toNat := by
  have hdigit : ∀ n < 16, digitValue? (lowerDigit n) = some n := by decide
  obtain ⟨hhigh, hlow⟩ := nibbles_lt b
  refine ⟨List.cons_ne_nil _ _, [b.toNat / 16, b.toNat % 16], ?_, ?_⟩
  · exact .cons (hdigit _ hhigh) (.cons (hdigit _ hlow) .nil)
  · change Nat.ofDigits 16 [b.toNat % 16, b.toNat / 16] = b.toNat
    rw [Nat.ofDigits_cons, Nat.ofDigits_singleton]
    exact Nat.mod_add_div b.toNat 16

lemma readHex_lowerDigits (b : UInt8) : Text.readHex 256 (lowerDigits b) = .ok b.toNat :=
  (Text.readHex_eq_ok (by decide)).mpr ⟨(Text.Spelled.bare (digits_lowerDigits b)).accepted, b.toNat_lt⟩

lemma lowerByte_inj {b c : UInt8} : lowerByte b = lowerByte c ↔ b = c := by
  refine ⟨fun h => ?_, congrArg lowerByte⟩
  have hread := readHex_lowerDigits b
  rw [String.ofList_injective h, readHex_lowerDigits, Except.ok.injEq] at hread
  exact (UInt8.toNat_inj.mp hread).symm

end Hex

namespace TestVector

open Text

def Displaced (bytes : List UInt8) : Prop :=
  ∃ p d op, (p = 0xDD ∨ p = 0xFD) ∧ bytes = [p, 0xCB, d, op]

def words (bytes : List UInt8) : List String :=
  bytes.mapIdx fun i b => if bytes.length = 4 ∧ i = 2 then "__" else Hex.lowerByte b

def separates (c : Char) : Bool :=
  c == ' ' || c == ','

def readWord (piece : List Char) : Except NumberError UInt8 := do
  return UInt8.ofNat (← readHex 256 piece)

variable {bytes other : List UInt8}

lemma words_of_length (h : bytes.length ≠ 4) : words bytes = bytes.map Hex.lowerByte := by
  apply List.ext_getElem
  · simp [words]
  · simp [words, h]

lemma words_four (p q d op : UInt8) :
    words [p, q, d, op] = [Hex.lowerByte p, Hex.lowerByte q, "__", Hex.lowerByte op] := rfl

lemma length_words (bytes : List UInt8) : (words bytes).length = bytes.length :=
  List.length_mapIdx

lemma name_eq (bytes : List UInt8) : name bytes = " ".intercalate (words bytes) := by
  fun_cases name bytes with
  | case1 p q d op => rfl
  | case2 bytes hne =>
    have hlen : bytes.length ≠ 4 := fun h => by
      obtain ⟨p, q, d, op, rfl⟩ := List.length_eq_four.mp h
      exact hne p q d op rfl
    rw [words_of_length hlen]

/-! Cutting a name at its blanks -/

lemma word_cases {w : String} (hw : w ∈ words bytes) : w = "__" ∨ ∃ b, w = Hex.lowerByte b := by
  obtain ⟨i, hi, rfl⟩ := List.mem_mapIdx.mp hw
  split
  · exact .inl rfl
  · exact .inr ⟨_, rfl⟩

lemma word_unbroken {w : String} (hw : w ∈ words bytes) :
    w.toList.isEmpty = false ∧ ∀ c ∈ w.toList, separates c = false := by
  have hblank : "__".toList = ['_', '_'] := rfl
  have hdigit : ∀ n < 16, separates (Hex.lowerDigit n) = false := by decide
  rcases word_cases hw with rfl | ⟨b, rfl⟩
  · rw [hblank]
    exact ⟨rfl, by simp [separates]⟩
  · obtain ⟨hhigh, hlow⟩ := Hex.nibbles_lt b
    rw [Hex.lowerByte, String.toList_ofList]
    exact ⟨rfl, by simp [Hex.lowerDigits, hdigit _ hhigh, hdigit _ hlow]⟩

lemma pieces_name (bytes : List UInt8) :
    (fields separates (name bytes).toList).filter (!·.isEmpty) = (words bytes).map String.toList := by
  have hfull : ∀ w ∈ (words bytes).map String.toList, w.isEmpty = false ∧ ∀ c ∈ w, separates c = false :=
    List.forall_mem_map.mpr fun w hw => word_unbroken hw
  rw [name_eq, String.toList_intercalate]
  cases hwords : (words bytes).map String.toList with
  | nil => rfl
  | cons w ws =>
    rw [hwords] at hfull
    have hcut := fields_intercalate (show separates ' ' = true from rfl) (List.cons_ne_nil w ws)
      fun v hv => (hfull v hv).2
    change (fields separates ([' '].intercalate (w :: ws))).filter _ = _
    rw [hcut, List.filter_eq_self]
    intro v hv
    rw [(hfull v hv).1]
    rfl

lemma words_of_name (h : name bytes = name other) : words bytes = words other := by
  have hpieces := pieces_name bytes
  rw [h, pieces_name] at hpieces
  exact (List.map_injective_iff.mpr (fun _ _ => String.toList_injective) hpieces).symm

/-! Reading the words -/

lemma readHexBytes_name (bytes : List UInt8) :
    readHexBytes (name bytes) = ((words bytes).map String.toList).mapM readWord :=
  congrArg (List.mapM readWord) (pieces_name bytes)

lemma readWord_lowerByte (b : UInt8) : readWord (Hex.lowerByte b).toList = .ok b := by
  rw [readWord, Hex.lowerByte, String.toList_ofList, Hex.readHex_lowerDigits]
  exact congrArg Except.ok UInt8.ofNat_toNat

lemma mapM_readWord (bytes : List UInt8) :
    ((bytes.map Hex.lowerByte).map String.toList).mapM readWord = .ok bytes := by
  induction bytes with
  | nil => rfl
  | cons b bs ih =>
    rw [List.map_cons, List.map_cons, List.mapM_cons, readWord_lowerByte, ih]
    rfl

lemma readHexBytes_of_length (h : bytes.length ≠ 4) : readHexBytes (name bytes) = .ok bytes := by
  rw [readHexBytes_name, words_of_length h, mapM_readWord]

lemma readHexBytes_four (h : bytes.length = 4) : readHexBytes (name bytes) = .error .invalidDigit := by
  obtain ⟨p, q, d, op, rfl⟩ := List.length_eq_four.mp h
  simp only [readHexBytes_name, words_four, List.map_cons, List.mapM_cons, readWord_lowerByte]
  rfl

lemma readHexBytes_name_iff (bytes : List UInt8) : readHexBytes (name bytes) = .ok bytes ↔ bytes.length ≠ 4 := by
  refine ⟨fun h hlen => ?_, readHexBytes_of_length⟩
  rw [readHexBytes_four hlen] at h
  cases h

/-! Telling names apart -/

lemma words_inj_of_length (h : bytes.length ≠ 4) (hw : words other = words bytes) : other = bytes := by
  have hlen := congrArg List.length hw
  rw [length_words, length_words] at hlen
  rw [words_of_length h, words_of_length (hlen ▸ h)] at hw
  exact List.map_injective_iff.mpr (fun _ _ => Hex.lowerByte_inj.mp) hw

lemma name_eq_name_iff (bytes other : List UInt8) : name other = name bytes ↔
    if other.length = 4 ∧ bytes.length = 4 then other.eraseIdx 2 = bytes.eraseIdx 2 else other = bytes := by
  split
  case isTrue h =>
    obtain ⟨p, q, d, op, rfl⟩ := List.length_eq_four.mp h.1
    obtain ⟨p', q', d', op', rfl⟩ := List.length_eq_four.mp h.2
    have hwords : words [p, q, d, op] = words [p', q', d', op'] ↔ [p, q, op] = [p', q', op'] := by
      simp [words_four, Hex.lowerByte_inj]
    refine ⟨fun h => hwords.mp (words_of_name h), fun h => ?_⟩
    rw [name_eq, name_eq, hwords.mpr h]
  case isFalse h =>
    refine ⟨fun hname => ?_, congrArg name⟩
    have hw := words_of_name hname
    have hlen := congrArg List.length hw
    rw [length_words, length_words] at hlen
    exact words_inj_of_length (fun h4 => h ⟨hlen.trans h4, h4⟩) hw

/-! The sequences that vectors are made for -/

lemma Displaced.length_eq (h : Displaced bytes) : bytes.length = 4 := by
  obtain ⟨p, d, op, -, rfl⟩ := h
  rfl

lemma displaced_of_mem (h : bytes ∈ sequences) (hlen : bytes.length = 4) : Displaced bytes := by
  obtain ⟨n, -, hn⟩ := List.mem_flatMap.mp h
  -- without a displacement there is a prefix at most before the opcode
  have hshort (before : List UInt8) (op : UInt8) (hbefore : before.length ≤ 1) :
      bytes ∉ if isSelector op then [] else [before ++ [op]] := by
    split
    · exact List.not_mem_nil
    · rw [List.mem_singleton]
      rintro rfl
      rw [List.length_append, List.length_singleton] at hlen
      omega
  simp only [sequencesOf, List.mem_append, List.mem_cons, List.not_mem_nil, or_false] at hn
  rcases hn with ((((hplain | rfl | rfl) | hplain) | rfl) | hplain) | rfl
  · exact absurd hplain (hshort _ _ (by decide))
  · cases hlen
  · cases hlen
  · exact absurd hplain (hshort _ _ (by decide))
  · exact ⟨0xDD, 0, _, .inl rfl, rfl⟩
  · exact absurd hplain (hshort _ _ (by decide))
  · exact ⟨0xFD, 0, _, .inr rfl, rfl⟩

/-- A name has a word for each byte and reads back as the bytes, unless there are four of them. Of four the third is left
out, and two names are the same just when they agree in the others. Of the sequences that vectors are made for, only those
with a displacement have four. -/
theorem name_reads_back (bytes : List UInt8) :
    name bytes = " ".intercalate
      (bytes.mapIdx fun i b => if bytes.length = 4 ∧ i = 2 then "__" else Hex.lowerByte b) ∧
    (readHexBytes (name bytes) = .ok bytes ↔ bytes.length ≠ 4) ∧
    (∀ other, name other = name bytes ↔
      if other.length = 4 ∧ bytes.length = 4 then other.eraseIdx 2 = bytes.eraseIdx 2 else other = bytes) ∧
    (Displaced bytes → ∀ other, Displaced other →
      (name other = name bytes ↔ other.eraseIdx 2 = bytes.eraseIdx 2)) ∧
    (bytes ∈ sequences → (readHexBytes (name bytes) = .ok bytes ↔ ¬ Displaced bytes)) := by
  refine ⟨name_eq bytes, readHexBytes_name_iff bytes, name_eq_name_iff bytes, fun h other h' => ?_, fun h => ?_⟩
  · rw [name_eq_name_iff, if_pos ⟨h'.length_eq, h.length_eq⟩]
  · rw [readHexBytes_name_iff]
    exact not_congr ⟨displaced_of_mem h, Displaced.length_eq⟩

/-- `RLC (IY+0)` and `RLC (IY+127)`. -/
theorem name_reads_back_displaced :
    let bytes : List UInt8 := [0xFD, 0xCB, 0x00, 0x06]
    let other : List UInt8 := [0xFD, 0xCB, 0x7F, 0x06]
    Displaced bytes ∧ Displaced other ∧ bytes ∈ sequences ∧ name other = name bytes ∧
      readHexBytes (name bytes) ≠ .ok bytes := by
  intro bytes other
  have h : Displaced bytes := ⟨0xFD, 0x00, 0x06, .inr rfl, rfl⟩
  have h' : Displaced other := ⟨0xFD, 0x7F, 0x06, .inr rfl, rfl⟩
  have hmem : bytes ∈ sequences := List.mem_flatMap.mpr ⟨0x06, by decide, by decide⟩
  obtain ⟨-, -, -, hsame, hread⟩ := name_reads_back bytes
  exact ⟨h, h', hmem, (hsame h other h').mpr rfl, fun hok => (hread hmem).mp hok h⟩

/-- The name of `LD IX,1234` leaves out the low byte of the constant, as if it were a displacement. It does not read back,
and other loads have the same name. -/
theorem name_reads_back_not :
    let bytes : List UInt8 := [0xDD, 0x21, 0x34, 0x12]
    ¬ Displaced bytes ∧ name bytes = "dd 21 __ 12" ∧ readHexBytes (name bytes) = .error .invalidDigit ∧
      name [0xDD, 0x21, 0x35, 0x12] = name bytes ∧
      ¬ ∀ bytes, ¬ Displaced bytes → readHexBytes (name bytes) = .ok bytes := by
  intro bytes
  have hplain : ¬ Displaced bytes := by
    rintro ⟨p, d, op, -, h⟩
    simp [bytes] at h
  have hread : readHexBytes (name bytes) = .error .invalidDigit := readHexBytes_four rfl
  refine ⟨hplain, rfl, hread, rfl, fun h => ?_⟩
  have hok := h bytes hplain
  rw [hread] at hok
  cases hok

end TestVector

end Z80Machine
