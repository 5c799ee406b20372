import Z80Machine.Registers
import Z80Machine.Cycles

/-! Instructions: operands, operations, and an operation together with where it stands, its size and its shape. -/

namespace Z80Machine

inductive AluOp where
  | add
  | adc
  | sub
  | sbc
  | and
  | xor
  | or
  | cp
  deriving DecidableEq, Repr

def AluOp.ofField (field : UInt8) : AluOp :=
  match field &&& 7 with
  | 0 => .add
  | 1 => .adc
  | 2 => .sub
  | 3 => .sbc
  | 4 => .and
  | 5 => .xor
  | 6 => .or
  | _ => .cp

inductive ShiftOp where
  | rlc
  | rrc
  | rl
  | rr
  | sla
  | sra
  | sll
  | srl
  deriving DecidableEq, Repr

def ShiftOp.ofField (field : UInt8) : ShiftOp :=
  match field &&& 7 with
  | 0 => .rlc
  | 1 => .rrc
  | 2 => .rl
  | 3 => .rr
  | 4 => .sla
  | 5 => .sra
  | 6 => .sll
  | _ => .srl

inductive RotateOp where
  | rlc
  | rrc
  | rl
  | rr
  deriving DecidableEq, Repr

def RotateOp.toShift : RotateOp → ShiftOp
  | rlc => .rlc
  | rrc => .rrc
  | rl => .rl
  | rr => .rr

inductive Condition where
  | nz
  | z
  | nc
  | c
  | po
  | pe
  | p
  | m
  deriving DecidableEq, Repr

def Condition.ofField (field : UInt8) : Condition :=
  match field &&& 7 with
  | 0 => .nz
  | 1 => .z
  | 2 => .nc
  | 3 => .c
  | 4 => .po
  | 5 => .pe
  | 6 => .p
  | _ => .m

def Condition.holds (f : Flags) : Condition → Bool
  | nz => !f.z
  | z => f.z
  | nc => !f.c
  | c => f.c
  | po => !f.pv
  | pe => f.pv
  | p => !f.s
  | m => f.s

inductive BlockOp where
  | load
  | compare
  | input
  | output
  deriving DecidableEq, Repr

inductive Direction where
  | up
  | down
  deriving DecidableEq, Repr

def Direction.advance : Direction → UInt16 → UInt16
  | up, w => w + 1
  | down, w => w - 1

inductive Operand where
  | reg (r : Register)
  | imm (value : UInt8)
  | indirect (pair : Pair)
  | indexed (mode : IndexMode) (offset : UInt8)
  | absolute (addr : UInt16)
  deriving DecidableEq, Repr

/-- What an instruction does. Branch offsets and displacements are bytes in two's complement. A `copy` register
takes the result too. An input without a register sets the flags only, an output without one sends zero. -/
inductive Op where
  | nop
  | halt
  | di
  | ei
  | im (mode : UInt8)
  | load (dst src : Operand)
  | loadPair (dst : Pair) (value : UInt16)
  | fetchPair (dst : Pair) (addr : UInt16)
  | storePair (addr : UInt16) (src : Pair)
  | loadSp (src : Pair)
  | loadAI
  | loadAR
  | loadIA
  | loadRA
  | exAf
  | exDeHl
  | exx
  | exSp (pair : Pair)
  | alu (op : AluOp) (src : Operand)
  | inc (target : Operand)
  | dec (target : Operand)
  | incPair (pair : Pair)
  | decPair (pair : Pair)
  | addPair (dst src : Pair)
  | adcHl (src : Pair)
  | sbcHl (src : Pair)
  | rotateA (op : RotateOp)
  | daa
  | cpl
  | scf
  | ccf
  | neg
  | rld
  | rrd
  | shift (op : ShiftOp) (target : Operand) (copy : Option Register)
  | bit (n : Fin 8) (target : Operand)
  | res (n : Fin 8) (target : Operand) (copy : Option Register)
  | set (n : Fin 8) (target : Operand) (copy : Option Register)
  | jp (cond : Option Condition) (addr : UInt16)
  | jpPair (pair : Pair)
  | jr (cond : Option Condition) (offset : UInt8)
  | djnz (offset : UInt8)
  | call (cond : Option Condition) (addr : UInt16)
  | ret (cond : Option Condition)
  | retn
  | reti
  | rst (vector : UInt8)
  | push (pair : Pair)
  | pop (pair : Pair)
  | inA (port : UInt8)
  | outA (port : UInt8)
  | inC (reg : Option Register)
  | outC (reg : Option Register)
  | block (op : BlockOp) (dir : Direction) (repeating : Bool)
  | unknown (lead : Option UInt8) (opcode : UInt8)
  deriving DecidableEq, Repr

/-- An operation at an address, with its length in bytes, the bytes seen while it was decoded, and the cycles of
its single-pass or untaken path. -/
structure Instruction where
  op : Op
  address : UInt16
  size : UInt16
  shape : CycleShape
  bytes : List UInt8
  deriving DecidableEq, Repr

namespace Instruction

def raw (i : Instruction) : List UInt8 :=
  (i.bytes ++ List.replicate 4 0).take (min i.size.toNat 4)

def tStates (i : Instruction) : Nat :=
  i.shape.tStates

end Instruction

def Op.disturbs : Op → Bool
  | .halt => true
  | .call _ _ => true
  | .rst _ => true
  | .di => true
  | .ei => true
  | .im _ => true
  | .retn => true
  | .reti => true
  | .loadIA => true
  | .loadRA => true
  | .loadAR => true
  | .unknown _ _ => true
  | _ => false

def Instruction.idleSafe (i : Instruction) : Bool :=
  !i.shape.writesOutside && !i.op.disturbs

end Z80Machine
