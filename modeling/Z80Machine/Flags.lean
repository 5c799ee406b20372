import Z80Machine.Word

/-! The flag byte. `Flags` names its eight bits; `Flags.toByte` and `Flags.ofByte` are inverse to each other. -/

namespace Z80Machine

inductive Flag where
  | c
  | n
  | pv
  | x
  | h
  | y
  | z
  | s
  deriving DecidableEq, Repr

def Flag.text : Flag → String
  | c => "C"
  | n => "N"
  | pv => "PV"
  | x => "X"
  | h => "H"
  | y => "Y"
  | z => "Z"
  | s => "S"

def Flag.ofText? (text : String) : Option Flag :=
  [c, n, pv, x, h, y, z, s].find? fun flag => flag.text == text

def Flag.place : Flag → Fin 8
  | .c => 0
  | .n => 1
  | .pv => 2
  | .x => 3
  | .h => 4
  | .y => 5
  | .z => 6
  | .s => 7

/-- Sign, zero, copy of bit 5, half carry, copy of bit 3, parity or overflow, subtraction, carry. -/
structure Flags where
  s : Bool := false
  z : Bool := false
  y : Bool := false
  h : Bool := false
  x : Bool := false
  pv : Bool := false
  n : Bool := false
  c : Bool := false
  deriving DecidableEq, Repr

namespace Flags

def toByte (f : Flags) : UInt8 :=
  (if f.s then 0x80 else 0) ||| (if f.z then 0x40 else 0) ||| (if f.y then 0x20 else 0) |||
  (if f.h then 0x10 else 0) ||| (if f.x then 0x08 else 0) ||| (if f.pv then 0x04 else 0) |||
  (if f.n then 0x02 else 0) ||| (if f.c then 0x01 else 0)

def ofByte (b : UInt8) : Flags where
  s := Byte.bit b 7
  z := Byte.bit b 6
  y := Byte.bit b 5
  h := Byte.bit b 4
  x := Byte.bit b 3
  pv := Byte.bit b 2
  n := Byte.bit b 1
  c := Byte.bit b 0

@[simp] theorem ofByte_toByte (f : Flags) : ofByte f.toByte = f := by
  obtain ⟨s, z, y, h, x, pv, n, c⟩ := f
  cases s <;> cases z <;> cases y <;> cases h <;> cases x <;> cases pv <;> cases n <;> cases c <;> rfl

def ofResult (r : UInt8) : Flags where
  s := Byte.bit r 7
  z := r == 0
  y := Byte.bit r 5
  x := Byte.bit r 3

def ofLogic (r : UInt8) : Flags :=
  { ofResult r with pv := Byte.evenParity r }

def withCopies (f : Flags) (b : UInt8) : Flags :=
  { f with y := Byte.bit b 5, x := Byte.bit b 3 }

end Flags

end Z80Machine
