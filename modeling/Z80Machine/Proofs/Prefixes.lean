import Z80Machine.Proofs.Renaming
import Z80Machine.Proofs.Timing

/-! The main table behind an index prefix. It is read with the index register for HL, except where a byte behind HL is
an operand: there the prefix brings an offset of its own. So the rest of the table says the same twice, once with HL
and once with the index register. -/

namespace Z80Machine

def Encoded.prefixed (mode : IndexMode) (e : Encoded) : Encoded where
  op := e.op.renamed mode
  shape := e.shape.addFetch
  ahead := e.ahead

namespace Encoding

variable (mode : IndexMode) (y z : UInt8) (start : CycleShape)

lemma register_renamed (field : UInt8) : register field mode = (register field .hl).renamed mode := by
  unfold register Register.ofField?
  split <;> cases mode <;> rfl

lemma ofField_renamed (field : UInt8) : Pair.ofField field mode = (Pair.ofField field .hl).renamed mode := by
  unfold Pair.ofField
  split <;> cases mode <;> rfl

lemma ofStackField_renamed (field : UInt8) :
    Pair.ofStackField field mode = (Pair.ofStackField field .hl).renamed mode := by
  unfold Pair.ofStackField
  split <;> cases mode <;> rfl

lemma pair_renamed : mode.pair = Pair.hl.renamed mode := by
  cases mode <;> rfl

lemma quarter3_renamed (opcode : UInt8) : quarter3 opcode y z mode start.addFetch =
    (quarter3 opcode y z .hl start).bind fun e => complete (e.prefixed mode) := by
  unfold quarter3
  simp only [ofStackField_renamed mode, pair_renamed mode]
  repeat' split
  all_goals rfl

lemma quarter2_renamed (hz : (z == 6) = false) : quarter2 y z mode start.addFetch =
    (quarter2 y z .hl start).bind fun e => complete (e.prefixed mode) := by
  unfold quarter2
  simp only [hz, register_renamed mode, Bool.false_eq_true, if_false]
  rfl

lemma quarter1_renamed (h : ((y == 6) != (z == 6)) = false) : quarter1 y z mode start.addFetch =
    (quarter1 y z .hl start).bind fun e => complete (e.prefixed mode) := by
  have hyz : (y == 6) = (z == 6) := by simpa using h
  unfold quarter1
  simp only [hyz, register_renamed mode, Bool.and_self]
  split
  · rfl
  · rfl

lemma quarter0_renamed (h : z = 0 ∨ z = 1 ∨ z = 2 ∨ z = 3 ∨ z = 7 ∨ y ≠ 6) : quarter0 y z mode start.addFetch =
    (quarter0 y z .hl start).bind fun e => complete (e.prefixed mode) := by
  unfold quarter0
  simp only [ofField_renamed mode, pair_renamed mode, register_renamed mode]
  repeat' split
  -- Most entries agree as they stand; the last case is the memory operand, which `h` excludes.
  all_goals first
    | rfl
    | (cases mode <;> rfl)
    | simp_all

def hasHl (field : UInt8) : Bool :=
  field / 2 &&& 3 == 2

variable {mode} in
lemma register_of_not {field : UInt8} (h : hasHl field = false) : register field mode = register field .hl := by
  unfold register Register.ofField?
  split
  case h_5 => contradiction
  case h_6 => contradiction
  all_goals rfl

variable {mode} in
lemma ofField_of_not {field : UInt8} (h : hasHl field = false) :
    Pair.ofField (field / 2) mode = Pair.ofField (field / 2) .hl := by
  unfold Pair.ofField
  split
  case h_3 heq => simp [hasHl, heq] at h
  all_goals rfl

variable {mode} in
lemma ofStackField_of_not {field : UInt8} (h : hasHl field = false) :
    Pair.ofStackField (field / 2) mode = Pair.ofStackField (field / 2) .hl := by
  unfold Pair.ofStackField
  split
  case h_3 heq => simp [hasHl, heq] at h
  all_goals rfl

lemma quarter0_unnamed (h : z = 0 ∨ z = 1 ∨ z = 2 ∨ z = 3 ∨ z = 7 ∨ y ≠ 6)
    (hy : z = 0 ∨ z = 7 ∨ hasHl y = false) (hz : z = 1 → y % 2 = 0) :
    quarter0 y z mode start = quarter0 y z .hl start := by
  rcases hy with rfl | rfl | hy
  · rfl
  · rfl
  unfold quarter0
  simp only [ofField_of_not hy, register_of_not hy]
  split
  case h_2 => simp only [hz rfl, beq_self_eq_true, if_true]
  case h_3 =>
    split
    case h_5 => contradiction
    case h_6 => contradiction
    all_goals rfl
  case h_5 =>
    have hne : (y == 6) = false := by simpa using h
    simp only [hne, Bool.false_eq_true, if_false]
  case h_7 =>
    have hne : (y == 6) = false := by simp_all
    simp only [hne, Bool.false_eq_true, if_false]
  all_goals rfl

lemma quarter1_unnamed (h : ((y == 6) != (z == 6)) = false) (hy : hasHl y = false) (hz : hasHl z = false) :
    quarter1 y z mode start = quarter1 y z .hl start := by
  have hyz : (y == 6) = (z == 6) := by simpa using h
  unfold quarter1
  simp only [hyz, register_of_not hy, register_of_not hz, Bool.and_self]
  split
  · rfl
  · rfl

lemma quarter2_unnamed (h : (z == 6) = false) (hz : hasHl z = false) :
    quarter2 y z mode start = quarter2 y z .hl start := by
  unfold quarter2
  simp only [h, register_of_not hz, Bool.false_eq_true, if_false]

lemma quarter3_unnamed (opcode : UInt8) (hy : (z = 1 ∨ z = 3 ∨ z = 5) → hasHl y = false) (hz : z = 1 → y ≠ 7) :
    quarter3 opcode y z mode start = quarter3 opcode y z .hl start := by
  unfold quarter3
  split
  case h_2 =>
    have hy' := hy (.inl rfl)
    simp only [ofStackField_of_not hy']
    split
    case h_3 => contradiction
    case h_4 => exact absurd rfl (hz rfl)
    all_goals rfl
  case h_4 =>
    have hy' := hy (.inr (.inl rfl))
    split
    case h_5 => contradiction
    all_goals rfl
  case h_6 =>
    have hy' := hy (.inr (.inr rfl))
    simp only [ofStackField_of_not hy']
  all_goals rfl

def memoryHl (opcode : UInt8) : Bool :=
  let y := fieldY opcode
  let z := fieldZ opcode
  match fieldX opcode with
  | 0 => y == 6 && z != 0 && z != 1 && z != 2 && z != 3 && z != 7
  | 1 => (y == 6) != (z == 6)
  | 2 => z == 6
  | _ => false

def namesHl (opcode : UInt8) : Bool :=
  let y := fieldY opcode
  let z := fieldZ opcode
  match fieldX opcode with
  | 0 => z != 0 && z != 7 && (hasHl y || (z == 1 && y % 2 != 0))
  | 1 => hasHl y || hasHl z
  | 2 => hasHl z
  | _ => (hasHl y && (z == 1 || z == 3 || z == 5)) || (z == 1 && y == 7)

example : (List.range 256).filter (fun n => memoryHl (UInt8.ofNat n)) =
    [0x34, 0x35, 0x36, 0x46, 0x4E, 0x56, 0x5E, 0x66, 0x6E, 0x70, 0x71, 0x72, 0x73, 0x74, 0x75, 0x77, 0x7E,
     0x86, 0x8E, 0x96, 0x9E, 0xA6, 0xAE, 0xB6, 0xBE] := by
  decide +kernel

example : (List.range 256).filter (fun n => namesHl (UInt8.ofNat n) && !memoryHl (UInt8.ofNat n)) =
    [0x09, 0x19, 0x21, 0x22, 0x23, 0x24, 0x25, 0x26, 0x29, 0x2A, 0x2B, 0x2C, 0x2D, 0x2E, 0x39, 0x44, 0x45, 0x4C, 0x4D,
     0x54, 0x55, 0x5C, 0x5D, 0x60, 0x61, 0x62, 0x63, 0x64, 0x65, 0x67, 0x68, 0x69, 0x6A, 0x6B, 0x6C, 0x6D, 0x6F, 0x7C,
     0x7D, 0x84, 0x85, 0x8C, 0x8D, 0x94, 0x95, 0x9C, 0x9D, 0xA4, 0xA5, 0xAC, 0xAD, 0xB4, 0xB5, 0xBC, 0xBD, 0xE1, 0xE3,
     0xE5, 0xE9, 0xEB, 0xED, 0xF9] := by
  decide +kernel

lemma quarters (x : UInt8) : x = 0 ∨ x = 1 ∨ x = 2 ∨ x ≠ 0 ∧ x ≠ 1 ∧ x ≠ 2 := by
  grind

lemma mainTable_renamed (opcode : UInt8) (h : memoryHl opcode = false) : mainTable opcode mode start.addFetch =
    (mainTable opcode .hl start).bind fun e => complete (e.prefixed mode) := by
  revert h
  unfold memoryHl mainTable
  generalize fieldX opcode = x, fieldY opcode = y, fieldZ opcode = z
  dsimp only
  obtain rfl | rfl | rfl | ⟨h0, h1, h2⟩ := quarters x
  · intro h
    refine quarter0_renamed mode _ _ start ?_
    grind
  · exact quarter1_renamed mode _ _ start
  · exact quarter2_renamed mode _ _ start
  · simp only
    intro _
    exact quarter3_renamed mode _ _ start opcode

lemma mainTable_unnamed (opcode : UInt8) (hm : memoryHl opcode = false) (hn : namesHl opcode = false) :
    mainTable opcode mode start = mainTable opcode .hl start := by
  revert hm hn
  unfold memoryHl namesHl mainTable
  generalize fieldX opcode = x, fieldY opcode = y, fieldZ opcode = z
  dsimp only
  obtain rfl | rfl | rfl | ⟨h0, h1, h2⟩ := quarters x
  · intro hm hn
    refine quarter0_unnamed mode _ _ start ?_ ?_ ?_
    · grind
    · grind
    · rintro rfl
      simp_all
  · intro hm hn
    obtain ⟨hny, hnz⟩ := Bool.or_eq_false_iff.mp hn
    exact quarter1_unnamed mode _ _ start hm hny hnz
  · exact quarter2_unnamed mode _ _ start
  · simp only
    intro _ hn
    refine quarter3_unnamed mode _ _ start opcode ?_ ?_
    · grind
    · grind

section

variable {start : CycleShape} {n : Nat}

lemma quarter0_unwired : (quarter0 y z mode start).Every (fun _ e => e.op.wired = false) n := by
  unfold quarter0
  dsimp only
  repeat' split
  all_goals simp only [bind_eq, pure_eq, every_bind, every_byte, every_word, every_memory, every_complete]
  all_goals repeat' split
  all_goals simp [Op.wired]

lemma quarter1_unwired : (quarter1 y z mode start).Every (fun _ e => e.op.wired = false) n := by
  unfold quarter1
  repeat' split
  all_goals simp only [bind_eq, pure_eq, every_bind, every_memory, every_complete]
  all_goals repeat' split
  all_goals simp [Op.wired]

lemma quarter2_unwired : (quarter2 y z mode start).Every (fun _ e => e.op.wired = false) n := by
  unfold quarter2
  split
  all_goals simp only [bind_eq, pure_eq, every_bind, every_memory, every_complete]
  all_goals repeat' split
  all_goals simp [Op.wired]

lemma quarter3_unwired {opcode : UInt8} (h1 : z = 1 → y ≠ 3) (h3 : z = 3 → y ≠ 1 ∧ y ≠ 5)
    (h5 : z = 5 → y ≠ 3 ∧ y ≠ 5 ∧ y ≠ 7) :
    (quarter3 opcode y z mode start).Every (fun _ e => e.op.wired = false) n := by
  unfold quarter3
  dsimp only
  repeat' split
  all_goals first
    | contradiction
    | simp_all [Op.wired]

lemma mainTable_unwired {opcode : UInt8} (h : opcode ∉ [0xEB, 0xD9, 0xCB, 0xDD, 0xED, 0xFD]) :
    (mainTable opcode mode start).Every (fun _ e => e.op.wired = false) n := by
  unfold mainTable
  dsimp only
  split
  · exact quarter0_unwired ..
  · exact quarter1_unwired ..
  · exact quarter2_unwired ..
  · refine quarter3_unwired _ _ _ ?_ ?_ ?_
    · grind [fieldX, fieldY, fieldZ]
    · grind [fieldX, fieldY, fieldZ]
    · grind [fieldX, fieldY, fieldZ]

end

lemma Every.mono {α : Type} {p q : Nat → α → Prop} {e : Encoding α} {n : Nat} (h : e.Every p n)
    (hpq : ∀ n a, p n a → q n a) : e.Every q n := by
  induction e generalizing n with
  | complete a => exact hpq n a h
  | more next ih => exact fun b => ih b (h b)

structure Prefixed (mode m : IndexMode) (opcode : UInt8) : Prop where
  main : opcode ∉ [0xCB, 0xDD, 0xED, 0xFD]
  table : mainTable opcode mode CycleShape.m1.addFetch =
    (mainTable opcode .hl CycleShape.m1).bind fun e => complete (e.prefixed m)
  renames : (mainTable opcode .hl CycleShape.m1).Every (fun _ e => e.op.Renames m) 1

variable {opcode : UInt8}

lemma prefixed_renamed (hm : memoryHl opcode = false) (hf : opcode ∉ [0xEB, 0xD9, 0xCB, 0xDD, 0xED, 0xFD]) :
    Prefixed mode mode opcode where
  main h := hf (List.mem_cons_of_mem _ (List.mem_cons_of_mem _ h))
  table := mainTable_renamed mode _ opcode hm
  renames := (mainTable_unwired .hl hf).mono fun _ _ h => Op.renames_of_unwired mode h

lemma prefixed_real (hm : memoryHl opcode = false) (hn : namesHl opcode = false ∨ opcode = 0xEB ∨ opcode = 0xD9)
    (hf : opcode ∉ [0xCB, 0xDD, 0xED, 0xFD]) : Prefixed mode .hl opcode where
  main := hf
  table := by
    have hmode : mainTable opcode mode CycleShape.m1.addFetch = mainTable opcode .hl CycleShape.m1.addFetch := by
      rcases hn with hn | rfl | rfl
      · exact mainTable_unnamed mode _ opcode hm hn
      · rfl
      · rfl
    exact hmode.trans (mainTable_renamed .hl _ opcode hm)
  renames := by
    by_cases hex : opcode = 0xEB ∨ opcode = 0xD9
    · rcases hex with rfl | rfl
      · exact Op.renames_exchange (.inl rfl)
      · exact Op.renames_exchange (.inr rfl)
    · refine (mainTable_unwired .hl ?_).mono fun _ _ h => Op.renames_of_unwired .hl h
      simp_all

end Encoding

end Z80Machine
