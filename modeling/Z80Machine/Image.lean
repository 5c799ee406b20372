import Z80Machine.Crc32
import Z80Machine.Text.Hex

/-! Program images: bytes, and the address at which they go into memory. -/

namespace Z80Machine

structure Image where
  bytes : List UInt8
  address : UInt16
  nonempty : bytes ≠ []
  fits : address.toNat + bytes.length ≤ 65536

inductive ImageError where
  | empty
  | tooLarge (size : Nat) (address : UInt16)
  | checksumMismatch (expected actual : UInt32)
  deriving DecidableEq, Repr

def ImageError.message : ImageError → String
  | empty => "program image is empty"
  | tooLarge size address =>
    toString size ++ " bytes at " ++ Hex.word address ++ " do not fit in the 64KB address space"
  | checksumMismatch expected actual =>
    "CRC32 expected 0x" ++ Hex.doubleWord expected ++ ", got 0x" ++ Hex.doubleWord actual

namespace Image

def ofBytes (bytes : List UInt8) (address : UInt16) : Except ImageError Image :=
  if nonempty : bytes = [] then .error .empty
  else if fits : address.toNat + bytes.length ≤ 65536 then .ok { bytes, address, nonempty, fits }
  else .error (.tooLarge bytes.length address)

def size (i : Image) : Nat :=
  i.bytes.length

def crc (i : Image) : UInt32 :=
  Crc32.ofBytes i.bytes

def verify (i : Image) (expected : UInt32) : Except ImageError Unit :=
  if i.crc = expected then .ok () else .error (.checksumMismatch expected i.crc)

end Image

end Z80Machine
