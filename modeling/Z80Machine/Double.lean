/-! Doubles by their bits. They tell apart what a `Float` does not show: the sign of a number that is none. -/

namespace Z80Machine

structure Double where
  bits : UInt64
  deriving DecidableEq, Repr

namespace Double

def ofFloat (x : Float) : Double :=
  ⟨x.toBits⟩

def toFloat (d : Double) : Float :=
  Float.ofBits d.bits

def one : Double :=
  ⟨0x3FF0000000000000⟩

def infinity : Double :=
  ⟨0x7FF0000000000000⟩

def nan : Double :=
  ⟨0x7FF8000000000000⟩

def neg (d : Double) : Double :=
  ⟨d.bits ^^^ 0x8000000000000000⟩

end Double

end Z80Machine
