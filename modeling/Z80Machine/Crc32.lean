/-! CRC-32: the remainder of a byte string under division by a fixed polynomial, bits of a byte taken from the lowest
on. It is computed a byte at a time from a table, and defined a bit at a time. -/

namespace Z80Machine.Crc32

/-- The divisor, its bits reversed and its leading term left out. -/
def polynomial : UInt32 :=
  0xEDB88320

def shift (r : UInt32) : UInt32 :=
  if r &&& 1 = 1 then (r >>> 1) ^^^ polynomial else r >>> 1

def takeBit (r : UInt32) (bit : Bool) : UInt32 :=
  shift (r ^^^ bit.toUInt32)

def bits (b : UInt8) : List Bool :=
  (List.range 8).map fun k => b.toNat.testBit k

def initial : UInt32 :=
  0xFFFFFFFF

def divide (r : UInt32) (message : List UInt8) : UInt32 :=
  (message.flatMap bits).foldl takeBit r

def shiftEight (r : UInt32) : UInt32 :=
  shift (shift (shift (shift (shift (shift (shift (shift r)))))))

def table : Vector UInt32 256 :=
  .ofFn fun i => shiftEight (UInt32.ofNat i)

def takeByte (r : UInt32) (b : UInt8) : UInt32 :=
  let index := r.toUInt8 ^^^ b
  have _ := index.toNat_lt
  (r >>> 8) ^^^ table[index.toNat]

def remainder (r : UInt32) (message : List UInt8) : UInt32 :=
  message.foldl takeByte r

def ofBytes (message : List UInt8) : UInt32 :=
  ~~~ remainder initial message

theorem remainder_append (r : UInt32) (xs ys : List UInt8) :
    remainder r (xs ++ ys) = remainder (remainder r xs) ys :=
  List.foldl_append

end Z80Machine.Crc32
