import Z80Machine.Flags

/-! The register file: bytes, the pairs made of them, the shadow bank, and the interrupt flip-flops and mode. -/

namespace Z80Machine

inductive Register where
  | a
  | b
  | c
  | d
  | e
  | h
  | l
  | ixh
  | ixl
  | iyh
  | iyl
  deriving DecidableEq, Repr

inductive Pair where
  | af
  | bc
  | de
  | hl
  | sp
  | ix
  | iy
  deriving DecidableEq, Repr

inductive IndexMode where
  | hl
  | ix
  | iy
  deriving DecidableEq, Repr

namespace IndexMode

def pair : IndexMode → Pair
  | hl => .hl
  | ix => .ix
  | iy => .iy

def selector? : IndexMode → Option UInt8
  | hl => none
  | ix => some 0xDD
  | iy => some 0xFD

end IndexMode

/-- The register of a 3-bit field. Field 6 stands for a memory operand and has none. -/
def Register.ofField? (field : UInt8) (mode : IndexMode) : Option Register :=
  match field with
  | 0 => some .b
  | 1 => some .c
  | 2 => some .d
  | 3 => some .e
  | 4 => some (match mode with | .hl => .h | .ix => .ixh | .iy => .iyh)
  | 5 => some (match mode with | .hl => .l | .ix => .ixl | .iy => .iyl)
  | 7 => some .a
  | _ => none

def Pair.ofField (field : UInt8) (mode : IndexMode) : Pair :=
  match field &&& 3 with
  | 0 => .bc
  | 1 => .de
  | 2 => mode.pair
  | _ => .sp

def Pair.ofStackField (field : UInt8) (mode : IndexMode) : Pair :=
  match field &&& 3 with
  | 0 => .bc
  | 1 => .de
  | 2 => mode.pair
  | _ => .af

structure Shadow where
  a : UInt8 := 0
  f : UInt8 := 0
  b : UInt8 := 0
  c : UInt8 := 0
  d : UInt8 := 0
  e : UInt8 := 0
  h : UInt8 := 0
  l : UInt8 := 0
  deriving DecidableEq, Repr

structure Registers where
  a : UInt8 := 0
  f : UInt8 := 0
  b : UInt8 := 0
  c : UInt8 := 0
  d : UInt8 := 0
  e : UInt8 := 0
  h : UInt8 := 0
  l : UInt8 := 0
  shadow : Shadow := {}
  ix : UInt16 := 0
  iy : UInt16 := 0
  sp : UInt16 := 0xFFFF
  pc : UInt16 := 0
  i : UInt8 := 0
  r : UInt8 := 0
  iff1 : Bool := false
  iff2 : Bool := false
  im : UInt8 := 0
  deriving DecidableEq, Repr

namespace Registers

def powerOn : Registers :=
  {}

def af (r : Registers) : UInt16 := Word.ofBytes r.a r.f
def bc (r : Registers) : UInt16 := Word.ofBytes r.b r.c
def de (r : Registers) : UInt16 := Word.ofBytes r.d r.e
def hl (r : Registers) : UInt16 := Word.ofBytes r.h r.l

def setAf (r : Registers) (w : UInt16) : Registers := { r with a := Word.high w, f := Word.low w }
def setBc (r : Registers) (w : UInt16) : Registers := { r with b := Word.high w, c := Word.low w }
def setDe (r : Registers) (w : UInt16) : Registers := { r with d := Word.high w, e := Word.low w }
def setHl (r : Registers) (w : UInt16) : Registers := { r with h := Word.high w, l := Word.low w }

def get (r : Registers) : Register → UInt8
  | .a => r.a
  | .b => r.b
  | .c => r.c
  | .d => r.d
  | .e => r.e
  | .h => r.h
  | .l => r.l
  | .ixh => Word.high r.ix
  | .ixl => Word.low r.ix
  | .iyh => Word.high r.iy
  | .iyl => Word.low r.iy

def set (r : Registers) (reg : Register) (v : UInt8) : Registers :=
  match reg with
  | .a => { r with a := v }
  | .b => { r with b := v }
  | .c => { r with c := v }
  | .d => { r with d := v }
  | .e => { r with e := v }
  | .h => { r with h := v }
  | .l => { r with l := v }
  | .ixh => { r with ix := Word.ofBytes v (Word.low r.ix) }
  | .ixl => { r with ix := Word.ofBytes (Word.high r.ix) v }
  | .iyh => { r with iy := Word.ofBytes v (Word.low r.iy) }
  | .iyl => { r with iy := Word.ofBytes (Word.high r.iy) v }

def getPair (r : Registers) : Pair → UInt16
  | .af => r.af
  | .bc => r.bc
  | .de => r.de
  | .hl => r.hl
  | .sp => r.sp
  | .ix => r.ix
  | .iy => r.iy

def setPair (r : Registers) (pair : Pair) (w : UInt16) : Registers :=
  match pair with
  | .af => r.setAf w
  | .bc => r.setBc w
  | .de => r.setDe w
  | .hl => r.setHl w
  | .sp => { r with sp := w }
  | .ix => { r with ix := w }
  | .iy => { r with iy := w }

@[simp] theorem get_set (r : Registers) (reg : Register) (v : UInt8) : (r.set reg v).get reg = v := by
  cases reg <;> simp [set, get]

@[simp] theorem getPair_setPair (r : Registers) (pair : Pair) (w : UInt16) :
    (r.setPair pair w).getPair pair = w := by
  cases pair <;> simp [setPair, getPair, setAf, setBc, setDe, setHl, af, bc, de, hl]

def flags (r : Registers) : Flags :=
  .ofByte r.f

def setFlags (r : Registers) (f : Flags) : Registers :=
  { r with f := f.toByte }

def flag (r : Registers) (f : Flag) : Bool :=
  Byte.bit r.f f.place

def setFlag (r : Registers) (f : Flag) (on : Bool) : Registers :=
  { r with f := if on then r.f ||| Byte.oneHot f.place else r.f &&& ~~~Byte.oneHot f.place }

@[simp] theorem flags_setFlags (r : Registers) (f : Flags) : (r.setFlags f).flags = f := by
  simp [flags, setFlags]

def exchangeBanks (r : Registers) : Registers :=
  { r with
    b := r.shadow.b, c := r.shadow.c, d := r.shadow.d, e := r.shadow.e, h := r.shadow.h, l := r.shadow.l
    shadow := { r.shadow with b := r.b, c := r.c, d := r.d, e := r.e, h := r.h, l := r.l } }

def exchangeAf (r : Registers) : Registers :=
  { r with a := r.shadow.a, f := r.shadow.f, shadow := { r.shadow with a := r.a, f := r.f } }

def refresh (r : Registers) (fetches : Nat) : Registers :=
  { r with r := (r.r &&& 0x80) ||| ((r.r + UInt8.ofNat fetches) &&& 0x7F) }

def sameButRefresh (r s : Registers) : Bool :=
  { r with r := 0 } == { s with r := 0 }

def setInterrupts (r : Registers) (on : Bool) : Registers :=
  { r with iff1 := on, iff2 := on }

end Registers

end Z80Machine
