import Z80Machine.Instruction

/-! How operations are written in bytes. Given the bytes read so far, an encoding is either complete or waits for one
byte more, so it can neither write nor look anywhere but at the byte that follows. -/

namespace Z80Machine

inductive Encoding (α : Type) where
  | complete (value : α)
  | more (next : UInt8 → Encoding α)

namespace Encoding

variable {α β : Type}

def bind : Encoding α → (α → Encoding β) → Encoding β
  | complete a, f => f a
  | more next, f => more fun b => (next b).bind f

instance : Monad Encoding where
  pure := complete
  bind := bind

def byte : Encoding UInt8 :=
  more complete

def word : Encoding UInt16 := do
  let low ← byte
  let high ← byte
  return Word.ofBytes high low

def read? : Encoding α → List UInt8 → Option (α × List UInt8)
  | complete a, bs => some (a, bs)
  | more _, [] => none
  | more next, b :: bs => (next b).read? bs

end Encoding

/-- An operation with its declared cycles. `ahead` counts bytes looked at that belong to the next instruction. -/
structure Encoded where
  op : Op
  shape : CycleShape
  ahead : Nat := 0

namespace Encoding

open CycleShape

def fieldX (opcode : UInt8) : UInt8 := opcode / 64
def fieldY (opcode : UInt8) : UInt8 := opcode / 8 % 8
def fieldZ (opcode : UInt8) : UInt8 := opcode % 8

def bitNumber (y : UInt8) : Fin 8 :=
  ⟨y.toNat % 8, Nat.mod_lt _ (by decide)⟩

def register (field : UInt8) (mode : IndexMode) : Operand :=
  .reg ((Register.ofField? field mode).getD .a)

/-- The memory operand of field 6: behind HL, or behind an index register and a displacement, which costs a read
and the time to add it. -/
def memory (mode : IndexMode) (shape : CycleShape) : Encoding (Operand × CycleShape) :=
  match mode with
  | .hl => return (.indirect .hl, shape)
  | mode => do
    let offset ← byte
    return (.indexed mode offset, (shape.addReads 1).addInternal 5)

def quarter0 (y z : UInt8) (mode : IndexMode) (start : CycleShape) : Encoding Encoded :=
  let p := y / 2
  let even := y % 2 == 0
  let pair := Pair.ofField p mode
  match z with
  | 0 => match y with
    | 0 => return { op := .nop, shape := start }
    | 1 => return { op := .exAf, shape := start }
    | 2 => return { op := .djnz (← byte), shape := (start.addInternal 1).addReads 1 }
    | 3 => return { op := .jr none (← byte), shape := (start.addReads 1).addInternal 5 }
    | _ => return { op := .jr (some (.ofField (y - 4))) (← byte), shape := start.addReads 1 }
  | 1 =>
    if even then return { op := .loadPair pair (← word), shape := start.addReads 2 }
    else return { op := .addPair mode.pair pair, shape := start.addInternal 7 }
  | 2 => match y with
    | 0 => return { op := .load (.indirect .bc) (.reg .a), shape := start.addWrites 1 }
    | 1 => return { op := .load (.reg .a) (.indirect .bc), shape := start.addReads 1 }
    | 2 => return { op := .load (.indirect .de) (.reg .a), shape := start.addWrites 1 }
    | 3 => return { op := .load (.reg .a) (.indirect .de), shape := start.addReads 1 }
    | 4 => return { op := .storePair (← word) mode.pair, shape := (start.addReads 2).addWrites 2 }
    | 5 => return { op := .fetchPair mode.pair (← word), shape := start.addReads 4 }
    | 6 => return { op := .load (.absolute (← word)) (.reg .a), shape := (start.addReads 2).addWrites 1 }
    | _ => return { op := .load (.reg .a) (.absolute (← word)), shape := start.addReads 3 }
  | 3 => return { op := if even then .incPair pair else .decPair pair, shape := start.addInternal 2 }
  | 6 => do
    if y == 6 then
      match mode with
      | .hl => return { op := .load (.indirect .hl) (.imm (← byte)), shape := (start.addReads 1).addWrites 1 }
      | mode =>
        let offset ← byte
        let value ← byte
        return { op := .load (.indexed mode offset) (.imm value),
                 shape := ((start.addReads 2).addInternal 2).addWrites 1 }
    else return { op := .load (register y mode) (.imm (← byte)), shape := start.addReads 1 }
  | 7 =>
    let op : Op := match y with
      | 0 => .rotateA .rlc
      | 1 => .rotateA .rrc
      | 2 => .rotateA .rl
      | 3 => .rotateA .rr
      | 4 => .daa
      | 5 => .cpl
      | 6 => .scf
      | _ => .ccf
    return { op, shape := start }
  | _ => do
    let step := if z == 4 then Op.inc else Op.dec
    if y == 6 then
      let (target, shape) ← memory mode start
      return { op := step target, shape := ((shape.addReads 1).addInternal 1).addWrites 1 }
    else return { op := step (register y mode), shape := start }

def quarter1 (y z : UInt8) (mode : IndexMode) (start : CycleShape) : Encoding Encoded := do
  if y == 6 && z == 6 then return { op := .halt, shape := start }
  else if z == 6 then
    let (src, shape) ← memory mode start
    return { op := .load (register y .hl) src, shape := shape.addReads 1 }
  else if y == 6 then
    let (dst, shape) ← memory mode start
    return { op := .load dst (register z .hl), shape := shape.addWrites 1 }
  else return { op := .load (register y mode) (register z mode), shape := start }

def quarter2 (y z : UInt8) (mode : IndexMode) (start : CycleShape) : Encoding Encoded := do
  if z == 6 then
    let (src, shape) ← memory mode start
    return { op := .alu (.ofField y) src, shape := shape.addReads 1 }
  else return { op := .alu (.ofField y) (register z mode), shape := start }

def quarter3 (opcode y z : UInt8) (mode : IndexMode) (start : CycleShape) : Encoding Encoded :=
  let p := y / 2
  match z with
  | 0 => return { op := .ret (some (.ofField y)), shape := start.addInternal 1 }
  | 1 => match y with
    | 1 => return { op := .ret none, shape := start.addReads 2 }
    | 3 => return { op := .exx, shape := start }
    | 5 => return { op := .jpPair mode.pair, shape := start }
    | 7 => return { op := .loadSp mode.pair, shape := start.addInternal 2 }
    | _ => return { op := .pop (.ofStackField p mode), shape := start.addReads 2 }
  | 2 => return { op := .jp (some (.ofField y)) (← word), shape := start.addReads 2 }
  | 3 => match y with
    | 0 => return { op := .jp none (← word), shape := start.addReads 2 }
    | 1 => return { op := .unknown none opcode, shape := start }
    | 2 => return { op := .outA (← byte), shape := (start.addReads 1).addOutput }
    | 3 => return { op := .inA (← byte), shape := (start.addReads 1).addInput }
    | 4 => return { op := .exSp mode.pair,
                    shape := (((start.addReads 2).addInternal 1).addWrites 2).addInternal 2 }
    | 5 => return { op := .exDeHl, shape := start }
    | 6 => return { op := .di, shape := start }
    | _ => return { op := .ei, shape := start }
  | 4 => return { op := .call (some (.ofField y)) (← word), shape := start.addReads 2 }
  | 5 => match y with
    | 1 => return { op := .call none (← word), shape := ((start.addReads 2).addInternal 1).addWrites 2 }
    | 3 => return { op := .unknown none opcode, shape := start }
    | 5 => return { op := .unknown none opcode, shape := start }
    | 7 => return { op := .unknown none opcode, shape := start }
    | _ => return { op := .push (.ofStackField p mode), shape := (start.addInternal 1).addWrites 2 }
  | 6 => return { op := .alu (.ofField y) (.imm (← byte)), shape := start.addReads 1 }
  | _ => return { op := .rst (y * 8), shape := (start.addInternal 1).addWrites 2 }

def mainTable (opcode : UInt8) (mode : IndexMode) (start : CycleShape) : Encoding Encoded :=
  let y := fieldY opcode
  let z := fieldZ opcode
  match fieldX opcode with
  | 0 => quarter0 y z mode start
  | 1 => quarter1 y z mode start
  | 2 => quarter2 y z mode start
  | _ => quarter3 opcode y z mode start

def bitFamily (opcode : UInt8) (target : Operand) (copy : Option Register) (tested changed : CycleShape) : Encoded :=
  let y := fieldY opcode
  match fieldX opcode with
  | 0 => { op := .shift (.ofField y) target copy, shape := changed }
  | 1 => { op := .bit (bitNumber y) target, shape := tested }
  | 2 => { op := .res (bitNumber y) target copy, shape := changed }
  | _ => { op := .set (bitNumber y) target copy, shape := changed }

def bits (opcode : UInt8) : Encoded :=
  let z := fieldZ opcode
  let start := m1.addFetch
  if z == 6 then
    let tested := (start.addReads 1).addInternal 1
    bitFamily opcode (.indirect .hl) none tested (tested.addWrites 1)
  else bitFamily opcode (register z .hl) none start start

/-- The table behind DD CB and FD CB, where the displacement comes before the opcode. A register field other than 6
names a register that takes a copy of the result. -/
def indexedBits (mode : IndexMode) : Encoding Encoded := do
  let offset ← byte
  let opcode ← byte
  let copy := Register.ofField? (fieldZ opcode) .hl
  let tested := (((m1.addFetch.addReads 2).addInternal 2).addReads 1).addInternal 1
  return bitFamily opcode (.indexed mode offset) copy tested (tested.addWrites 1)

def extended (opcode : UInt8) : Encoding Encoded :=
  let y := fieldY opcode
  let z := fieldZ opcode
  let even := y % 2 == 0
  let pair := Pair.ofField (y / 2) .hl
  let start := m1.addFetch
  let unknown : Encoded := { op := .unknown (some 0xED) opcode, shape := start }
  match fieldX opcode with
  | 1 => match z with
    | 0 => return { op := .inC (Register.ofField? y .hl), shape := start.addInput }
    | 1 => return { op := .outC (Register.ofField? y .hl), shape := start.addOutput }
    | 2 => return { op := if even then .sbcHl pair else .adcHl pair, shape := start.addInternal 7 }
    | 3 =>
      if even then return { op := .storePair (← word) pair, shape := (start.addReads 2).addWrites 2 }
      else return { op := .fetchPair pair (← word), shape := start.addReads 4 }
    | 4 => return { op := .neg, shape := start }
    | 5 => return { op := if y == 1 then .reti else .retn, shape := start.addReads 2 }
    | 6 =>
      let mode : UInt8 := match y % 4 with
        | 2 => 1
        | 3 => 2
        | _ => 0
      return { op := .im mode, shape := start }
    | _ => match y with
      | 0 => return { op := .loadIA, shape := start.addInternal 1 }
      | 1 => return { op := .loadRA, shape := start.addInternal 1 }
      | 2 => return { op := .loadAI, shape := start.addInternal 1 }
      | 3 => return { op := .loadAR, shape := start.addInternal 1 }
      | 4 => return { op := .rrd, shape := ((start.addReads 1).addInternal 4).addWrites 1 }
      | 5 => return { op := .rld, shape := ((start.addReads 1).addInternal 4).addWrites 1 }
      | _ => return unknown
  | 2 =>
    if z ≤ 3 && y ≥ 4 then
      let dir := if even then Direction.up else Direction.down
      let repeating := y ≥ 6
      match z with
      | 0 => return { op := .block .load dir repeating, shape := ((start.addReads 1).addWrites 1).addInternal 2 }
      | 1 => return { op := .block .compare dir repeating, shape := (start.addReads 1).addInternal 5 }
      | 2 => return { op := .block .input dir repeating, shape := (start.addInternal 1).addInput.addWrites 1 }
      | _ => return { op := .block .output dir repeating, shape := ((start.addInternal 1).addReads 1).addOutput }
    else return unknown
  | _ => return unknown

/-- Behind an index prefix. Before another prefix it has no effect and stands as an instruction of its own. -/
def indexed (mode : IndexMode) : Encoding Encoded := do
  let next ← byte
  match next with
  | 0xDD => return { op := .nop, shape := m1, ahead := 1 }
  | 0xFD => return { op := .nop, shape := m1, ahead := 1 }
  | 0xED => return { op := .nop, shape := m1, ahead := 1 }
  | 0xCB => indexedBits mode
  | _ => mainTable next mode m1.addFetch

def ofOpcode (opcode : UInt8) : Encoding Encoded :=
  match opcode with
  | 0xCB => return bits (← byte)
  | 0xED => do extended (← byte)
  | 0xDD => indexed .ix
  | 0xFD => indexed .iy
  | _ => mainTable opcode .hl m1

end Encoding

def Encoded.toInstruction (e : Encoded) (address : UInt16) (bytes : List UInt8) : Instruction where
  op := e.op
  address
  size := UInt16.ofNat (bytes.length - e.ahead)
  shape := e.shape
  bytes

end Z80Machine
