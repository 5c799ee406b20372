import Z80Machine.Proofs.Rows
import Z80Machine.Proofs.Substitution

/-! Operations on a byte in memory. What they do to the byte, to A and to the flags does not hang on how the byte is
addressed, and the rows of the tables with (HL) for an operand have the same operation behind an index register. -/

namespace Z80Machine

inductive CellOp where
  | alu (op : AluOp)
  | inc
  | dec
  | put (value : UInt8)
  | take (x : Register)
  | give (x : Register)
  | shift (op : ShiftOp)
  | bit (n : Fin 8)
  | res (n : Fin 8)
  | set (n : Fin 8)

namespace CellOp

def op (o : Operand) (copy : Option Register) : CellOp → Op
  | alu op => .alu op o
  | inc => .inc o
  | dec => .dec o
  | put value => .load o (.imm value)
  | take x => .load (.reg x) o
  | give x => .load o (.reg x)
  | shift op => .shift op o copy
  | bit n => .bit n o
  | res n => .res n o copy
  | set n => .set n o copy

def dest (copy : Option Register) : CellOp → Option Register
  | take x => some x
  | shift _ | res _ | set _ => copy
  | _ => none

def moves : CellOp → Bool
  | take _ | give _ => true
  | _ => false

def looks : CellOp → Bool
  | put _ | give _ => false
  | _ => true

structure Effect where
  a : UInt8
  f : UInt8
  stored : Option UInt8

def effect (r : Registers) (x : UInt8) : CellOp → Effect
  | alu op => let (a, f) := Arithmetic.perform op r.a x r.flags.c; ⟨a, f.toByte, none⟩
  | inc => let (y, f) := Arithmetic.inc x r.flags.c; ⟨r.a, f.toByte, some y⟩
  | dec => let (y, f) := Arithmetic.dec x r.flags.c; ⟨r.a, f.toByte, some y⟩
  | put value => ⟨r.a, r.f, some value⟩
  | take _ => ⟨r.a, r.f, none⟩
  | give y => ⟨r.a, r.f, some (r.get y)⟩
  | shift op => let (y, f) := Arithmetic.shift op x r.flags.c; ⟨r.a, f.toByte, some y⟩
  | bit n => ⟨r.a, (Arithmetic.testBit n x r.flags.c).toByte, none⟩
  | res n => ⟨r.a, r.f, some (Arithmetic.resetBit n x)⟩
  | set n => ⟨r.a, r.f, some (Arithmetic.setBit n x)⟩

def moved (k : CellOp) (r : Registers) (x : UInt8) : UInt8 :=
  (k.effect r x).stored.getD x

def after (k : CellOp) (copy : Option Register) (r : Registers) (x : UInt8) : Registers :=
  let s := { r with a := (k.effect r x).a, f := (k.effect r x).f }
  (k.dest copy).elim s (s.set · (k.moved r x))

def finish (k : CellOp) (addr : UInt16) (copy : Option Register) (r : Registers) (x : UInt8) :
    Dialogue (Registers × Nat) :=
  (k.effect r x).stored.elim (.done (k.after copy r x, 0)) fun y => .write addr y (.done (k.after copy r x, 0))

def visit (k : CellOp) (addr : UInt16) (copy : Option Register) (r : Registers) : Dialogue (Registers × Nat) :=
  if k.looks then .read addr (k.finish addr copy r) else k.finish addr copy r 0

variable (k : CellOp) (copy : Option Register) (address : UInt16) (r : Registers)

theorem onRegisters_indirect : (k.op (.indirect .hl) copy).onRegisters address r = k.visit r.hl copy r := by
  cases k
  case shift | res | set => cases copy <;> rfl
  all_goals rfl

theorem onRegisters_indexed (mode : IndexMode) (offset : UInt8) :
    (k.op (.indexed mode offset) copy).onRegisters address r =
      k.visit (r.getPair mode.pair + Byte.signExtend offset) copy r := by
  cases k
  case shift | res | set => cases copy <;> cases mode <;> rfl
  case inc | dec => cases mode <;> rfl
  all_goals rfl

end CellOp

/-! The rows of the tables that have a byte in memory for an operand -/

def Operand.behind (mode : IndexMode) (offset : UInt8) : Operand :=
  match mode with
  | .hl => .indirect .hl
  | mode => .indexed mode offset

def IndexMode.displacement (mode : IndexMode) (offset : UInt8) : List UInt8 :=
  match mode with
  | .hl => []
  | _ => [offset]

namespace Encoding

def cellOp (opcode : UInt8) (rest : List UInt8) : CellOp :=
  let y := fieldY opcode
  let z := fieldZ opcode
  match fieldX opcode with
  | 0 => if z == 4 then .inc else if z == 6 then .put (rest.headD 0) else .dec
  | 1 => if z == 6 then .take ((Register.ofField? y .hl).getD .a) else .give ((Register.ofField? z .hl).getD .a)
  | _ => .alu (.ofField y)

def bitOp (opcode : UInt8) : CellOp :=
  let y := fieldY opcode
  match fieldX opcode with
  | 0 => .shift (.ofField y)
  | 1 => .bit (bitNumber y)
  | 2 => .res (bitNumber y)
  | _ => .set (bitNumber y)

section

variable {y z : UInt8} (mode : IndexMode) (start : CycleShape) (offset : UInt8) {rest : List UInt8}

lemma quarter0_cell (hz : z = 4 ∨ z = 5 ∨ z = 6) (hlen : rest.length = if z = 6 then 1 else 0) :
    ∃ shape, (quarter0 6 z mode start).read? (mode.displacement offset ++ rest) =
      some (⟨(if z == 4 then CellOp.inc else if z == 6 then .put (rest.headD 0) else .dec).op (.behind mode offset)
        none, shape, 0⟩, []) := by
  obtain rfl | rfl | rfl := hz
  · obtain rfl := List.length_eq_zero_iff.mp hlen
    cases mode <;> exact ⟨_, rfl⟩
  · obtain rfl := List.length_eq_zero_iff.mp hlen
    cases mode <;> exact ⟨_, rfl⟩
  · obtain ⟨n, rfl⟩ := List.length_eq_one_iff.mp hlen
    cases mode <;> exact ⟨_, rfl⟩

lemma quarter1_take (hy : (y == 6) = false) : ∃ shape,
    (quarter1 y 6 mode start).read? (mode.displacement offset) =
      some (⟨(CellOp.take ((Register.ofField? y .hl).getD .a)).op (.behind mode offset) none, shape, 0⟩, []) := by
  simp only [quarter1, hy]
  cases mode <;> exact ⟨_, rfl⟩

lemma quarter1_give (hz : (z == 6) = false) : ∃ shape,
    (quarter1 6 z mode start).read? (mode.displacement offset) =
      some (⟨(CellOp.give ((Register.ofField? z .hl).getD .a)).op (.behind mode offset) none, shape, 0⟩, []) := by
  simp only [quarter1, hz, Bool.and_false]
  cases mode <;> exact ⟨_, rfl⟩

lemma quarter2_cell : ∃ shape, (quarter2 y 6 mode start).read? (mode.displacement offset) =
    some (⟨(CellOp.alu (.ofField y)).op (.behind mode offset) none, shape, 0⟩, []) := by
  cases mode <;> exact ⟨_, rfl⟩

lemma mainTable_cell {opcode : UInt8} (h : memoryHl opcode = true)
    (hlen : rest.length = if opcode = 0x36 then 1 else 0) :
    ∃ shape, (mainTable opcode mode start).read? (mode.displacement offset ++ rest) =
      some (⟨(cellOp opcode rest).op (.behind mode offset) none, shape, 0⟩, []) := by
  have hlt : fieldZ opcode < 8 := by grind [fieldZ]
  have hput : opcode = 0x36 ↔ fieldX opcode = 0 ∧ fieldY opcode = 6 ∧ fieldZ opcode = 6 := by
    grind [fieldX, fieldY, fieldZ]
  simp only [hput] at hlen
  revert h hlen hlt
  unfold memoryHl mainTable cellOp
  generalize fieldX opcode = x, fieldY opcode = y, fieldZ opcode = z
  dsimp only
  obtain rfl | rfl | rfl | ⟨h0, h1, h2⟩ := quarters x
  · intro h hlt hlen
    obtain rfl : y = 6 := by grind
    refine quarter0_cell mode start offset ?_ ?_
    · grind
    · simpa using hlen
  · intro h hlt hlen
    obtain rfl : rest = [] := by simpa using hlen
    rw [List.append_nil]
    cases hz : z == 6 with
    | true =>
      obtain rfl := eq_of_beq hz
      exact quarter1_take mode start offset (by simpa using h)
    | false =>
      obtain rfl : y = 6 := by grind
      exact quarter1_give mode start offset hz
  · intro h hlt hlen
    obtain rfl : rest = [] := by simpa using hlen
    obtain rfl := eq_of_beq h
    rw [List.append_nil]
    exact quarter2_cell mode start offset
  · simp only
    intro h
    contradiction

lemma bitFamily_cell (opcode : UInt8) (target : Operand) (copy : Option Register) (tested changed : CycleShape) :
    ∃ shape, bitFamily opcode target copy tested changed = ⟨(bitOp opcode).op target copy, shape, 0⟩ := by
  unfold bitFamily bitOp
  dsimp only
  obtain h | h | h | ⟨h0, h1, h2⟩ := quarters (fieldX opcode)
  all_goals simp only [*]
  all_goals exact ⟨_, rfl⟩

end

lemma cellOp_moves {opcode : UInt8} (h : fieldX opcode ≠ 1) (rest : List UInt8) :
    (cellOp opcode rest).moves = false := by
  unfold cellOp
  dsimp only
  split
  case h_2 hx => exact absurd hx h
  · split
    · rfl
    · split <;> rfl
  · rfl

lemma cellOp_take {opcode : UInt8} (hm : memoryHl opcode = true) (hx : fieldX opcode = 1) (hz : fieldZ opcode = 6)
    (rest : List UInt8) :
    ∃ x, Register.ofField? (fieldY opcode) .hl = some x ∧ cellOp opcode rest = .take x := by
  have hy : fieldY opcode ≠ 6 := by
    intro hy
    simp [memoryHl, hx, hy, hz] at hm
  obtain ⟨x, h⟩ := exists_ofField hy (by grind [fieldY]) .hl
  exact ⟨x, h, by simp [cellOp, hx, hz, h]⟩

lemma cellOp_give {opcode : UInt8} (hx : fieldX opcode = 1) (hz : fieldZ opcode ≠ 6) (rest : List UInt8) :
    ∃ x, Register.ofField? (fieldZ opcode) .hl = some x ∧ cellOp opcode rest = .give x := by
  obtain ⟨x, h⟩ := exists_ofField hz (by grind [fieldZ]) .hl
  exact ⟨x, h, by simp [cellOp, hx, hz, h]⟩

lemma bitOp_moves (opcode : UInt8) : (bitOp opcode).moves = false := by
  unfold bitOp
  dsimp only
  split <;> rfl

lemma bitOp_dest (opcode : UInt8) (copy : Option Register) :
    (bitOp opcode).dest copy = if fieldX opcode = 1 then none else copy := by
  unfold bitOp
  dsimp only
  split <;> simp_all [CellOp.dest]

lemma bitOp_stored {opcode : UInt8} (h : fieldX opcode ≠ 1) (r : Registers) (x : UInt8) :
    ∃ v, ((bitOp opcode).effect r x).stored = some v := by
  unfold bitOp
  dsimp only
  split
  case h_2 hx => exact absurd hx h
  all_goals exact ⟨_, rfl⟩

variable {mode : IndexMode} {selector opcode : UInt8} {rest : List UInt8}

lemma unprefixed_of_memoryHl (h : memoryHl opcode = true) : opcode ∉ [0xCB, 0xDD, 0xED, 0xFD] := by
  rw [main_iff]
  refine ⟨?_, ?_, ?_, ?_⟩
  all_goals
    rintro rfl
    contradiction

lemma read_plain (h : memoryHl opcode = true) (hlen : rest.length = if opcode = 0x36 then 1 else 0) :
    ∃ shape, (ofOpcode opcode).read? rest =
      some (⟨(cellOp opcode rest).op (.indirect .hl) none, shape, 0⟩, []) := by
  rw [ofOpcode_main (unprefixed_of_memoryHl h)]
  exact mainTable_cell .hl _ 0 h hlen

lemma read_displaced (hm : mode.selector? = some selector) (offset : UInt8) (h : memoryHl opcode = true)
    (hlen : rest.length = if opcode = 0x36 then 1 else 0) :
    ∃ shape, (ofOpcode selector).read? (opcode :: offset :: rest) =
      some (⟨(cellOp opcode rest).op (.indexed mode offset) none, shape, 0⟩, []) := by
  obtain ⟨hcb, hdd, hed, hfd⟩ := main_iff.mp (unprefixed_of_memoryHl h)
  rw [ofOpcode_selector mode hm]
  simp only [indexed, byte, bind_eq, bind, read?]
  cases mode with
  | hl => cases hm
  | ix => exact mainTable_cell .ix _ offset h hlen
  | iy => exact mainTable_cell .iy _ offset h hlen

lemma read_plainBit (opcode : UInt8) : ∃ shape, (ofOpcode 0xCB).read? [opcode / 8 * 8 + 6] =
    some (⟨(bitOp opcode).op (.indirect .hl) none, shape, 0⟩, []) := by
  have hx : fieldX (opcode / 8 * 8 + 6) = fieldX opcode := by grind [fieldX]
  have hy : fieldY (opcode / 8 * 8 + 6) = fieldY opcode := by grind [fieldY]
  have hz : fieldZ (opcode / 8 * 8 + 6) = 6 := by grind [fieldZ]
  have hop : bitOp (opcode / 8 * 8 + 6) = bitOp opcode := by rw [bitOp, hx, hy, bitOp]
  obtain ⟨shape, h⟩ := bitFamily_cell (opcode / 8 * 8 + 6) (.indirect .hl) none
    ((CycleShape.m1.addFetch.addReads 1).addInternal 1)
    (((CycleShape.m1.addFetch.addReads 1).addInternal 1).addWrites 1)
  refine ⟨shape, ?_⟩
  rw [← hop, ← h]
  change some (bits _, _) = _
  rw [bits, hz]
  rfl

lemma read_displacedBit (hm : mode.selector? = some selector) (offset opcode : UInt8) :
    ∃ shape, (ofOpcode selector).read? [0xCB, offset, opcode] =
      some (⟨(bitOp opcode).op (.indexed mode offset) (Register.ofField? (fieldZ opcode) .hl), shape, 0⟩, []) := by
  rw [ofOpcode_selector mode hm]
  obtain ⟨shape, h⟩ := bitFamily_cell opcode (.indexed mode offset) (Register.ofField? (fieldZ opcode) .hl)
    ((((CycleShape.m1.addFetch.addReads 2).addInternal 2).addReads 1).addInternal 1)
    (((((CycleShape.m1.addFetch.addReads 2).addInternal 2).addReads 1).addInternal 1).addWrites 1)
  exact ⟨shape, congrArg (fun e => some (e, [])) h⟩

end Encoding

end Z80Machine
