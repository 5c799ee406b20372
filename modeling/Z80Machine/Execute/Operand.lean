import Z80Machine.Bus.Dialogue

/-! Reading and writing the operands of instructions, and the stack. -/

namespace Z80Machine

def Operand.address? (o : Operand) (r : Registers) : Option UInt16 :=
  match o with
  | reg _ => none
  | imm _ => none
  | indirect pair => some (r.getPair pair)
  | indexed mode offset => some (r.getPair mode.pair + Byte.signExtend offset)
  | absolute addr => some addr

def Operand.load (o : Operand) (r : Registers) : Dialogue UInt8 :=
  match o with
  | reg x => return r.get x
  | imm value => return value
  | indirect pair => .readByte (r.getPair pair)
  | indexed mode offset => .readByte (r.getPair mode.pair + Byte.signExtend offset)
  | absolute addr => .readByte addr

def Operand.store (o : Operand) (value : UInt8) (r : Registers) : Dialogue Registers := do
  match o with
  | reg x => return r.set x value
  | imm _ => Dialogue.remark .writeDropped
  | indirect pair => Dialogue.writeByte (r.getPair pair) value
  | indexed mode offset => Dialogue.writeByte (r.getPair mode.pair + Byte.signExtend offset) value
  | absolute addr => Dialogue.writeByte addr value
  return r

namespace Stack

/-- The high byte goes below the stack pointer, the low byte below that. A pointer that passes 0000 wraps, which is
remarked on. -/
def push (word : UInt16) (r : Registers) : Dialogue Registers := do
  if r.sp < 2 then Dialogue.remark (.pushWrapped r.pc)
  Dialogue.writeByte (r.sp - 1) (Word.high word)
  Dialogue.writeByte (r.sp - 2) (Word.low word)
  return { r with sp := r.sp - 2 }

/-- The low byte comes from the stack pointer, the high byte from above it. A pointer that passes FFFF wraps, which is
remarked on. -/
def pop (r : Registers) : Dialogue (UInt16 × Registers) := do
  if r.sp > 0xFFFD then Dialogue.remark (.popWrapped r.pc)
  let low ← Dialogue.readByte r.sp
  let high ← Dialogue.readByte (r.sp + 1)
  return (Word.ofBytes high low, { r with sp := r.sp + 2 })

end Stack

end Z80Machine
