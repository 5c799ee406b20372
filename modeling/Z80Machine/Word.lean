/-! Bytes and words: the two halves of a word, single bits, parity, and the signed reading of a byte. -/

namespace Z80Machine

namespace Byte

def bit (b : UInt8) (n : Nat) : Bool :=
  b.toNat.testBit n

def oneHot (n : Fin 8) : UInt8 :=
  1 <<< UInt8.ofNat n.val

def evenParity (b : UInt8) : Bool :=
  !((bit b 0 ^^ bit b 1 ^^ bit b 2 ^^ bit b 3) ^^ (bit b 4 ^^ bit b 5 ^^ bit b 6 ^^ bit b 7))

def toSigned (b : UInt8) : Int :=
  if b < 128 then b.toNat else (b.toNat : Int) - 256

def signExtend (b : UInt8) : UInt16 :=
  if b < 128 then b.toUInt16 else b.toUInt16 + 0xFF00

end Byte

namespace Word

def high (w : UInt16) : UInt8 :=
  (w / 256).toUInt8

def low (w : UInt16) : UInt8 :=
  w.toUInt8

def ofBytes (high low : UInt8) : UInt16 :=
  high.toUInt16 * 256 + low.toUInt16

@[simp] theorem high_ofBytes (h l : UInt8) : high (ofBytes h l) = h := by
  apply UInt8.toNat_inj.1
  have := h.toNat_lt
  have := l.toNat_lt
  simp only [high, ofBytes, UInt16.toNat_toUInt8, UInt16.toNat_div, UInt16.toNat_add, UInt16.toNat_mul,
    UInt8.toNat_toUInt16, UInt16.reduceToNat]
  omega

@[simp] theorem low_ofBytes (h l : UInt8) : low (ofBytes h l) = l := by
  apply UInt8.toNat_inj.1
  have := h.toNat_lt
  have := l.toNat_lt
  simp only [low, ofBytes, UInt16.toNat_toUInt8, UInt16.toNat_add, UInt16.toNat_mul, UInt8.toNat_toUInt16,
    UInt16.reduceToNat]
  omega

@[simp] theorem ofBytes_high_low (w : UInt16) : ofBytes (high w) (low w) = w := by
  apply UInt16.toNat_inj.1
  have := w.toNat_lt
  simp only [high, low, ofBytes, UInt16.toNat_toUInt8, UInt16.toNat_div, UInt16.toNat_add, UInt16.toNat_mul,
    UInt8.toNat_toUInt16, UInt16.reduceToNat]
  omega

end Word

end Z80Machine
