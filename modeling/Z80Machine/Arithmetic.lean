import Z80Machine.Instruction

/-! Arithmetic on bytes and words, each operation with the flags it leaves. -/

namespace Z80Machine.Arithmetic

def carryBit (c : Bool) : Nat :=
  if c then 1 else 0

def add (a b : UInt8) (carry : Bool) : UInt8 × Flags :=
  let c := carryBit carry
  let sum := a.toNat + b.toNat + c
  let r := UInt8.ofNat sum
  (r, { Flags.ofResult r with
    h := a.toNat % 16 + b.toNat % 16 + c > 15
    pv := (Byte.bit a 7 == Byte.bit b 7) && (Byte.bit r 7 != Byte.bit a 7)
    c := sum > 255 })

def sub (a b : UInt8) (carry : Bool) : UInt8 × Flags :=
  let c := carryBit carry
  let r := UInt8.ofNat (512 + a.toNat - b.toNat - c)
  (r, { Flags.ofResult r with
    h := a.toNat % 16 < b.toNat % 16 + c
    pv := (Byte.bit a 7 != Byte.bit b 7) && (Byte.bit r 7 != Byte.bit a 7)
    n := true
    c := a.toNat < b.toNat + c })

/-- An operation of the accumulator group on A and an operand. A comparison leaves A as it is and takes the copied
bits from the operand. -/
def perform (op : AluOp) (a b : UInt8) (carry : Bool) : UInt8 × Flags :=
  match op with
  | .add => add a b false
  | .adc => add a b carry
  | .sub => sub a b false
  | .sbc => sub a b carry
  | .and => (a &&& b, { Flags.ofLogic (a &&& b) with h := true })
  | .xor => (a ^^^ b, Flags.ofLogic (a ^^^ b))
  | .or => (a ||| b, Flags.ofLogic (a ||| b))
  | .cp => (a, (sub a b false).2.withCopies b)

def inc (b : UInt8) (carry : Bool) : UInt8 × Flags :=
  let r := b + 1
  (r, { Flags.ofResult r with h := b % 16 == 15, pv := b == 0x7F, c := carry })

def dec (b : UInt8) (carry : Bool) : UInt8 × Flags :=
  let r := b - 1
  (r, { Flags.ofResult r with h := b % 16 == 0, pv := b == 0x80, n := true, c := carry })

/-- The sum of two words, with half carry out of bit 11. Sign, zero and overflow stay as in `f`. -/
def addWords (a b : UInt16) (f : Flags) : UInt16 × Flags :=
  let sum := a.toNat + b.toNat
  let r := UInt16.ofNat sum
  (r, { f.withCopies (Word.high r) with
    h := a.toNat % 4096 + b.toNat % 4096 > 4095
    n := false
    c := sum > 65535 })

def wordFlags (r : UInt16) : Flags :=
  { Flags.ofResult (Word.high r) with z := r == 0 }

def adcWords (a b : UInt16) (carry : Bool) : UInt16 × Flags :=
  let c := carryBit carry
  let sum := a.toNat + b.toNat + c
  let r := UInt16.ofNat sum
  let sign (w : UInt16) := Byte.bit (Word.high w) 7
  (r, { wordFlags r with
    h := a.toNat % 4096 + b.toNat % 4096 + c > 4095
    pv := (sign a == sign b) && (sign r != sign a)
    c := sum > 65535 })

def sbcWords (a b : UInt16) (carry : Bool) : UInt16 × Flags :=
  let c := carryBit carry
  let r := UInt16.ofNat (131072 + a.toNat - b.toNat - c)
  let sign (w : UInt16) := Byte.bit (Word.high w) 7
  (r, { wordFlags r with
    h := a.toNat % 4096 < b.toNat % 4096 + c
    pv := (sign a != sign b) && (sign r != sign a)
    n := true
    c := a.toNat < b.toNat + c })

def rotateLeft (b : UInt8) : UInt8 := (b <<< 1) ||| (b >>> 7)
def rotateRight (b : UInt8) : UInt8 := (b >>> 1) ||| (b <<< 7)
def shiftLeft (b : UInt8) (low : Bool) : UInt8 := (b <<< 1) ||| (if low then 1 else 0)
def shiftRight (b : UInt8) (high : Bool) : UInt8 := (b >>> 1) ||| (if high then 0x80 else 0)

def shifted (op : ShiftOp) (b : UInt8) (carry : Bool) : UInt8 × Bool :=
  match op with
  | .rlc => (rotateLeft b, Byte.bit b 7)
  | .rrc => (rotateRight b, Byte.bit b 0)
  | .rl => (shiftLeft b carry, Byte.bit b 7)
  | .rr => (shiftRight b carry, Byte.bit b 0)
  | .sla => (shiftLeft b false, Byte.bit b 7)
  | .sra => (shiftRight b (Byte.bit b 7), Byte.bit b 0)
  | .sll => (shiftLeft b true, Byte.bit b 7)
  | .srl => (shiftRight b false, Byte.bit b 0)

def shift (op : ShiftOp) (b : UInt8) (carry : Bool) : UInt8 × Flags :=
  let (r, out) := shifted op b carry
  (r, { Flags.ofLogic r with c := out })

def rotateA (op : RotateOp) (a : UInt8) (f : Flags) : UInt8 × Flags :=
  let (r, out) := shifted op.toShift a f.c
  (r, { f.withCopies r with h := false, n := false, c := out })

/-- Turns the binary result of adding or subtracting packed decimal bytes into the decimal one: 6 is added to, or
taken from, each digit that left its range. -/
def decimalAdjust (a : UInt8) (f : Flags) : UInt8 × Flags :=
  let lowOut := f.h || a % 16 > 9
  let highOut := f.c || a > 0x99
  let correction := (if lowOut then 0x06 else 0) + (if highOut then 0x60 else 0)
  let r := if f.n then a - correction else a + correction
  (r, { Flags.ofLogic r with
    h := if f.n then f.h && a % 16 < 6 else a % 16 > 9
    n := f.n
    c := highOut })

def testBit (n : Fin 8) (b : UInt8) (carry : Bool) : Flags :=
  let on := Byte.bit b n
  { s := n.val == 7 && on
    z := !on
    y := Byte.bit b 5
    h := true
    x := Byte.bit b 3
    pv := !on
    c := carry }

def resetBit (n : Fin 8) (b : UInt8) : UInt8 :=
  b &&& ~~~Byte.oneHot n

def setBit (n : Fin 8) (b : UInt8) : UInt8 :=
  b ||| Byte.oneHot n

end Z80Machine.Arithmetic
