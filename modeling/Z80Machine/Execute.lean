import Z80Machine.Arithmetic
import Z80Machine.Execute.Block

/-! Running one instruction: what it asks of the bus, the registers it leaves, and the time it takes beyond that of its
declared shape. -/

namespace Z80Machine

structure Core where
  regs : Registers := .powerOn
  halted : Bool := false
  eiDelay : Bool := false
  deriving DecidableEq, Repr

namespace Registers

def setA (r : Registers) (result : UInt8 × Flags) : Registers :=
  { r with a := result.1 }.setFlags result.2

def meets (r : Registers) (cond : Option Condition) : Bool :=
  match cond with
  | some cc => cc.holds r.flags
  | none => true

def jumpBy (r : Registers) (offset : UInt8) : Registers :=
  { r with pc := r.pc + Byte.signExtend offset }

/-- Time that a taken branch takes beyond the untaken one, which only a conditional branch declares. -/
def takenTime (cond : Option Condition) (time : Nat) : Nat :=
  if cond.isSome then time else 0

def loadStatus (r : Registers) (value : UInt8) : Registers :=
  r.setA (value, { Flags.ofResult value with pv := r.iff2, c := r.flags.c })

end Registers

namespace Op

def change (target : Operand) (copy : Option Register) (r : Registers) (f : UInt8 → UInt8 × Flags) :
    Dialogue Registers := do
  let value ← target.load r
  let (result, flags) := f value
  let r ← target.store result (r.setFlags flags)
  return match copy with
    | some x => r.set x result
    | none => r

def changeBit (target : Operand) (copy : Option Register) (r : Registers) (f : UInt8 → UInt8) :
    Dialogue Registers := do
  let result := f (← target.load r)
  let r ← target.store result r
  return match copy with
    | some x => r.set x result
    | none => r

def rotateDigits (r : Registers) (f : UInt8 → UInt8 → UInt8 × UInt8) : Dialogue Registers := do
  let (a, byte) := f r.a (← Dialogue.readByte r.hl)
  Dialogue.writeByte r.hl byte
  return r.setA (a, { Flags.ofLogic a with c := r.flags.c })

/-- What an operation does to the registers, and the time it takes beyond its declared shape. The program counter
already stands behind the instruction, which began at `address`. -/
def onRegisters (op : Op) (address : UInt16) (r : Registers) : Dialogue (Registers × Nat) := do
  match op with
  | nop => return (r, 0)
  | halt => return (r, 0)
  | di => return (r.setInterrupts false, 0)
  | ei => return (r.setInterrupts true, 0)
  | im mode => return ({ r with im := mode }, 0)
  | load dst src => return (← dst.store (← src.load r) r, 0)
  | loadPair dst value => return (r.setPair dst value, 0)
  | fetchPair dst addr => return (r.setPair dst (← Dialogue.readWord addr), 0)
  | storePair addr src =>
    Dialogue.writeWord addr (r.getPair src)
    return (r, 0)
  | loadSp src => return ({ r with sp := r.getPair src }, 0)
  | loadAI => return (r.loadStatus r.i, 0)
  | loadAR => return (r.loadStatus r.r, 0)
  | loadIA => return ({ r with i := r.a }, 0)
  | loadRA => return ({ r with r := r.a }, 0)
  | exAf => return (r.exchangeAf, 0)
  | exDeHl => return ((r.setDe r.hl).setHl r.de, 0)
  | exx => return (r.exchangeBanks, 0)
  | exSp pair =>
    let word ← Dialogue.readWord r.sp
    Dialogue.writeWord r.sp (r.getPair pair)
    return (r.setPair pair word, 0)
  | alu op src => return (r.setA (Arithmetic.perform op r.a (← src.load r) r.flags.c), 0)
  | inc target => return (← change target none r (Arithmetic.inc · r.flags.c), 0)
  | dec target => return (← change target none r (Arithmetic.dec · r.flags.c), 0)
  | incPair pair => return (r.setPair pair (r.getPair pair + 1), 0)
  | decPair pair => return (r.setPair pair (r.getPair pair - 1), 0)
  | addPair dst src =>
    let (word, flags) := Arithmetic.addWords (r.getPair dst) (r.getPair src) r.flags
    return ((r.setFlags flags).setPair dst word, 0)
  | adcHl src =>
    let (word, flags) := Arithmetic.adcWords r.hl (r.getPair src) r.flags.c
    return ((r.setFlags flags).setHl word, 0)
  | sbcHl src =>
    let (word, flags) := Arithmetic.sbcWords r.hl (r.getPair src) r.flags.c
    return ((r.setFlags flags).setHl word, 0)
  | rotateA op => return (r.setA (Arithmetic.rotateA op r.a r.flags), 0)
  | daa => return (r.setA (Arithmetic.decimalAdjust r.a r.flags), 0)
  | cpl => return (r.setA (~~~r.a, { r.flags.withCopies (~~~r.a) with h := true, n := true }), 0)
  | scf => return (r.setFlags { r.flags.withCopies r.a with h := false, n := false, c := true }, 0)
  | ccf => return (r.setFlags { r.flags.withCopies r.a with h := r.flags.c, n := false, c := !r.flags.c }, 0)
  | neg => return (r.setA (Arithmetic.sub 0 r.a false), 0)
  | rld => return (← rotateDigits r fun a m => (a / 16 * 16 + m / 16, m % 16 * 16 + a % 16), 0)
  | rrd => return (← rotateDigits r fun a m => (a / 16 * 16 + m % 16, a % 16 * 16 + m / 16), 0)
  | shift op target copy => return (← change target copy r (Arithmetic.shift op · r.flags.c), 0)
  | bit n target => return (r.setFlags (Arithmetic.testBit n (← target.load r) r.flags.c), 0)
  | res n target copy => return (← changeBit target copy r (Arithmetic.resetBit n), 0)
  | set n target copy => return (← changeBit target copy r (Arithmetic.setBit n), 0)
  | jp cond addr => return (if r.meets cond then { r with pc := addr } else r, 0)
  | jpPair pair => return ({ r with pc := r.getPair pair }, 0)
  | jr cond offset =>
    if r.meets cond then return (r.jumpBy offset, Registers.takenTime cond 5)
    else return (r, 0)
  | djnz offset =>
    let r := { r with b := r.b - 1 }
    if r.b == 0 then return (r, 0)
    else return (r.jumpBy offset, 5)
  | call cond addr =>
    if r.meets cond then
      let r ← Stack.push r.pc r
      return ({ r with pc := addr }, Registers.takenTime cond 7)
    else return (r, 0)
  | ret cond =>
    if r.meets cond then
      let (pc, r) ← Stack.pop r
      return ({ r with pc }, Registers.takenTime cond 6)
    else return (r, 0)
  | retn =>
    let (pc, r) ← Stack.pop r
    return ({ r with pc, iff1 := r.iff2 }, 0)
  | reti =>
    let (pc, r) ← Stack.pop r
    return ({ r with pc, iff1 := r.iff2 }, 0)
  | rst vector =>
    let r ← Stack.push r.pc r
    return ({ r with pc := vector.toUInt16 }, 0)
  | push pair => return (← Stack.push (r.getPair pair) r, 0)
  | pop pair =>
    let (word, r) ← Stack.pop r
    return (r.setPair pair word, 0)
  | inA port => return ({ r with a := ← Dialogue.inputByte port }, 0)
  | outA port =>
    Dialogue.outputByte port r.a
    return (r, 0)
  | inC reg =>
    let byte ← Dialogue.inputByte r.c
    let flags := { Flags.ofLogic byte with c := r.flags.c }
    let r := match reg with
      | some x => r.set x byte
      | none => r
    return (r.setFlags flags, 0)
  | outC reg =>
    Dialogue.outputByte r.c (match reg with | some x => r.get x | none => 0)
    return (r, 0)
  | block op dir repeating =>
    let (r, again) ← Block.round op dir r
    if repeating && again then return ({ r with pc := address }, 5)
    else return (r, 0)
  | unknown lead opcode =>
    Dialogue.remark (.unknownOpcode lead opcode address)
    return (r, 0)

end Op

/-- Runs an instruction. The program counter moves behind it first, so that only branches and repeating block
instructions say otherwise. The result holds the whole time taken. -/
def Instruction.execute (i : Instruction) (c : Core) : Dialogue (Core × Nat) := do
  let (regs, extra) ← i.op.onRegisters i.address { c.regs with pc := i.address + i.size }
  return ({ regs, halted := c.halted || i.op matches .halt, eiDelay := c.eiDelay || i.op matches .ei },
    i.tStates + extra)

end Z80Machine
