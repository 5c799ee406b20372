import Z80Machine.Proofs.Timing

/-! The rows of the tables, as far as they name things. A 3-bit field names a register unless it is 6, which stands for
a byte in memory, and no row has a pair where the operation could not take it. -/

namespace Z80Machine

def Operand.Fills (field : UInt8) : Operand → Prop
  | reg x => ∃ mode, Register.ofField? field mode = some x
  | imm _ => True
  | _ => field = 6

@[simp] lemma Operand.fills_imm (field value : UInt8) : (imm value).Fills field := trivial

@[simp] lemma Operand.fills_indirect (field : UInt8) (pair : Pair) : (indirect pair).Fills field ↔ field = 6 := Iff.rfl

@[simp] lemma Operand.fills_indexed (field : UInt8) (mode : IndexMode) (offset : UInt8) :
    (indexed mode offset).Fills field ↔ field = 6 := Iff.rfl

namespace Op

/-- The byte operands are those that the fields of the row stand for. Loads by way of BC, DE or an address, which are
all of A, have no field for it. -/
def Fills (x y z : UInt8) : Op → Prop
  | load dst src => x = 0 ∧ z = 2 ∨ dst.Fills y ∧ src.Fills z
  | alu _ src => src.Fills z
  | inc target | dec target => target.Fills y
  | shift _ target _ | bit _ target | res _ target _ | set _ target _ => target.Fills z
  | _ => True

def Paired : Op → Prop
  | loadPair dst _ | fetchPair dst _ => dst ≠ .af
  | incPair pair | decPair pair => pair ≠ .af
  | addPair dst _ => dst ≠ .sp
  | exSp pair => pair ≠ .af ∧ pair ≠ .sp
  | pop pair => pair ≠ .sp
  | _ => True

end Op

@[simp] lemma IndexMode.pair_ne_af (mode : IndexMode) : mode.pair ≠ .af := by
  cases mode <;> decide

@[simp] lemma IndexMode.pair_ne_sp (mode : IndexMode) : mode.pair ≠ .sp := by
  cases mode <;> decide

@[simp] lemma Pair.ofField_ne_af (field : UInt8) (mode : IndexMode) : Pair.ofField field mode ≠ .af := by
  unfold ofField
  split <;> simp

@[simp] lemma Pair.ofStackField_ne_sp (field : UInt8) (mode : IndexMode) : Pair.ofStackField field mode ≠ .sp := by
  unfold ofStackField
  split <;> simp

structure Encoded.Regular (e : Encoded) (x y z : UInt8) (n : Nat) : Prop where
  size : n ≤ 4
  known : ∀ opcode, e.op ≠ .unknown none opcode
  fills : e.op.Fills x y z
  paired : e.op.Paired

lemma Encoded.regular_iff (e : Encoded) (x y z : UInt8) (n : Nat) : e.Regular x y z n ↔
    n ≤ 4 ∧ (∀ opcode, e.op ≠ .unknown none opcode) ∧ e.op.Fills x y z ∧ e.op.Paired :=
  ⟨fun ⟨a, b, c, d⟩ => ⟨a, b, c, d⟩, fun ⟨a, b, c, d⟩ => ⟨a, b, c, d⟩⟩

namespace Encoding

lemma exists_ofField {field : UInt8} (hne : field ≠ 6) (hlt : field < 8) (mode : IndexMode) :
    ∃ x, Register.ofField? field mode = some x := by
  unfold Register.ofField?
  split
  case h_8 => grind
  all_goals exact ⟨_, rfl⟩

@[simp] lemma register_fills {field : UInt8} (hne : field ≠ 6) (hlt : field < 8) (mode : IndexMode) :
    (Operand.reg ((Register.ofField? field mode).getD .a)).Fills field := by
  obtain ⟨x, hx⟩ := exists_ofField hne hlt mode
  exact ⟨mode, by rw [hx]; rfl⟩

section

variable {y z : UInt8} (mode : IndexMode) (start : CycleShape) {n : Nat}

lemma quarter0_regular (hy : y < 8) (hn : n ≤ 2) :
    (quarter0 y z mode start).Every (fun n e => e.Regular 0 y z n) n := by
  unfold quarter0
  dsimp only
  repeat' split
  all_goals simp only [bind_eq, pure_eq, every_bind, every_byte, every_word, every_memory, every_complete]
  all_goals repeat' split
  all_goals simp_all [Encoded.regular_iff, Op.Fills, Op.Paired]
  all_goals omega

lemma quarter1_regular (hy : y < 8) (hz : z < 8) (hn : n ≤ 2) :
    (quarter1 y z mode start).Every (fun n e => e.Regular 1 y z n) n := by
  unfold quarter1
  repeat' split
  all_goals simp only [bind_eq, pure_eq, every_bind, every_memory, every_complete]
  all_goals repeat' split
  all_goals simp_all [Encoded.regular_iff, Op.Fills, Op.Paired]
  all_goals omega

lemma quarter2_regular (hz : z < 8) (hn : n ≤ 2) :
    (quarter2 y z mode start).Every (fun n e => e.Regular 2 y z n) n := by
  unfold quarter2
  split
  all_goals simp only [bind_eq, pure_eq, every_bind, every_memory, every_complete]
  all_goals repeat' split
  all_goals simp_all [Encoded.regular_iff, Op.Fills, Op.Paired]
  all_goals omega

lemma quarter3_regular (opcode : UInt8) (h3 : z = 3 → y ≠ 1) (h5 : z = 5 → y ≠ 3 ∧ y ≠ 5 ∧ y ≠ 7) (hn : n ≤ 2) :
    (quarter3 opcode y z mode start).Every (fun n e => e.Regular 3 y z n) n := by
  unfold quarter3
  dsimp only
  repeat' split
  all_goals first
    | contradiction
    | simp_all [Encoded.regular_iff, Op.Fills, Op.Paired]
  all_goals omega

lemma mainTable_regular {opcode : UInt8} (h : opcode ∉ [0xCB, 0xDD, 0xED, 0xFD]) (hn : n ≤ 2) :
    (mainTable opcode mode start).Every
      (fun n e => e.Regular (fieldX opcode) (fieldY opcode) (fieldZ opcode) n) n := by
  have hy : fieldY opcode < 8 := by grind [fieldY]
  have hz : fieldZ opcode < 8 := by grind [fieldZ]
  unfold mainTable
  dsimp only
  split
  case h_1 hx => exact hx ▸ quarter0_regular mode start hy hn
  case h_2 hx => exact hx ▸ quarter1_regular mode start hy hz hn
  case h_3 hx => exact hx ▸ quarter2_regular mode start hz hn
  case h_4 =>
    have hx : fieldX opcode = 3 := by grind [fieldX]
    refine hx ▸ quarter3_regular mode start opcode ?_ ?_ hn
    · grind [fieldX, fieldY, fieldZ]
    · grind [fieldX, fieldY, fieldZ]

lemma bits_regular (opcode : UInt8) :
    (bits opcode).Regular (fieldX opcode) (fieldY opcode) (fieldZ opcode) 2 := by
  have hz : fieldZ opcode < 8 := by grind [fieldZ]
  unfold bits bitFamily
  dsimp only
  repeat' split
  all_goals simp_all [Encoded.regular_iff, Op.Fills, Op.Paired]

lemma indexedBits_regular : (indexedBits mode).Every (fun n e => e.Regular 0 0 6 n) 2 := by
  intro offset opcode
  change (bitFamily _ _ _ _ _).Regular 0 0 6 4
  unfold bitFamily
  dsimp only
  split <;> simp [Encoded.regular_iff, Op.Fills, Op.Paired]

lemma extended_regular (opcode : UInt8) : (extended opcode).Every (fun n e => e.Regular 0 0 0 n) 2 := by
  unfold extended
  dsimp only
  repeat' split
  all_goals simp_all [Encoded.regular_iff, Op.Fills, Op.Paired]

end

def row? (first : UInt8) (rest : List UInt8) : Option UInt8 :=
  if first = 0xCB then rest.head?
  else if first = 0xED then none
  else if first = 0xDD ∨ first = 0xFD then rest.head?.filter (· ≠ 0xCB)
  else some first

structure Placed (first : UInt8) (rest : List UInt8) (e : Encoded) (x y z : UInt8) : Prop where
  regular : e.Regular x y z (rest.length + 1)
  fields : ∀ row, row? first rest = some row → x = fieldX row ∧ y = fieldY row ∧ z = fieldZ row

variable {first : UInt8} {rest : List UInt8} {e : Encoded}

lemma byte_of_read {α : Type} {f : UInt8 → Encoding α} {v : α × List UInt8} (h : (byte.bind f).read? rest = some v) :
    ∃ b bs, rest = b :: bs ∧ (f b).read? bs = some v := by
  cases rest with
  | nil => cases h
  | cons b bs => exact ⟨b, bs, rfl, h⟩

lemma Placed.of_every {x y z : UInt8} {g : Encoding Encoded} {bs : List UInt8} {n : Nat}
    (hg : g.Every (fun n e => e.Regular x y z n) n) (hr : g.read? bs = some (e, []))
    (hn : rest.length + 1 = bs.length + n)
    (hrow : ∀ row, row? first rest = some row → x = fieldX row ∧ y = fieldY row ∧ z = fieldZ row) :
    Placed first rest e x y z :=
  ⟨by rw [hn, Nat.add_comm]; exact hg.of_read hr, hrow⟩

lemma main_iff {b : UInt8} : b ∉ [0xCB, 0xDD, 0xED, 0xFD] ↔ b ≠ 0xCB ∧ b ≠ 0xDD ∧ b ≠ 0xED ∧ b ≠ 0xFD := by
  simp

lemma indexed_placed {mode : IndexMode} (hfirst : first = 0xDD ∨ first = 0xFD)
    (hr : (indexed mode).read? rest = some (e, [])) : ∃ x y z, Placed first rest e x y z := by
  obtain ⟨b, bs, rfl, hread⟩ := byte_of_read hr
  have hrow : row? first (b :: bs) = if b = 0xCB then none else some b := by
    rcases hfirst with rfl | rfl <;> simp [row?, Option.filter]
  by_cases hcb : b = 0xCB
  · subst hcb
    refine ⟨0, 0, 6, .of_every (indexedBits_regular mode) hread rfl fun row h => ?_⟩
    rw [hrow] at h
    cases h
  refine ⟨fieldX b, fieldY b, fieldZ b, ?_⟩
  have hfields (row : UInt8) (h : row? first (b :: bs) = some row) :
      fieldX b = fieldX row ∧ fieldY b = fieldY row ∧ fieldZ b = fieldZ row := by
    rw [hrow, if_neg hcb] at h
    cases h
    exact ⟨rfl, rfl, rfl⟩
  split at hread
  case h_4 => contradiction
  case h_5 hdd hfd hed _ =>
    have hmain : b ∉ [0xCB, 0xDD, 0xED, 0xFD] := main_iff.mpr ⟨hcb, hdd, hed, hfd⟩
    exact .of_every (mainTable_regular mode _ hmain (Nat.le_refl 2)) hread rfl hfields
  all_goals
    obtain ⟨rfl, rfl⟩ := Prod.mk.inj (Option.some.inj hread)
    refine ⟨?_, hfields⟩
    simp [Encoded.regular_iff, Op.Fills, Op.Paired]

theorem placed_of_read (hr : (ofOpcode first).read? rest = some (e, [])) : ∃ x y z, Placed first rest e x y z := by
  unfold ofOpcode at hr
  split at hr
  case h_1 =>
    obtain ⟨b, bs, rfl, hread⟩ := byte_of_read hr
    have hbits : (complete (bits b)).Every
        (fun n e => e.Regular (fieldX b) (fieldY b) (fieldZ b) n) 2 := bits_regular b
    refine ⟨_, _, _, .of_every hbits hread rfl fun row h => ?_⟩
    cases h
    exact ⟨rfl, rfl, rfl⟩
  case h_2 =>
    obtain ⟨b, bs, rfl, hread⟩ := byte_of_read hr
    exact ⟨0, 0, 0, .of_every (extended_regular b) hread rfl fun row h => nomatch h⟩
  case h_3 => exact indexed_placed (.inl rfl) hr
  case h_4 => exact indexed_placed (.inr rfl) hr
  case h_5 hcb hed hdd hfd =>
    have hmain : first ∉ [0xCB, 0xDD, 0xED, 0xFD] := main_iff.mpr ⟨hcb, hdd, hed, hfd⟩
    have hrow : row? first rest = some first := by
      rw [row?, if_neg hcb, if_neg hed, if_neg (not_or.mpr ⟨hdd, hfd⟩)]
    refine ⟨_, _, _, .of_every (mainTable_regular .hl _ hmain (by decide)) hr rfl fun row h => ?_⟩
    cases hrow.symm.trans h
    exact ⟨rfl, rfl, rfl⟩

end Encoding

end Z80Machine
