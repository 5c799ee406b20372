import Z80Machine.Word

/-! Hexadecimal text of fixed width: two digits for a byte, four for a word, eight for a double word. -/

namespace Z80Machine.Hex

def upperDigit (n : Nat) : Char :=
  if n < 10 then Char.ofNat (48 + n) else Char.ofNat (55 + n)

def lowerDigit (n : Nat) : Char :=
  if n < 10 then Char.ofNat (48 + n) else Char.ofNat (87 + n)

def upperDigits (b : UInt8) : List Char :=
  [upperDigit (b.toNat / 16), upperDigit (b.toNat % 16)]

def lowerDigits (b : UInt8) : List Char :=
  [lowerDigit (b.toNat / 16), lowerDigit (b.toNat % 16)]

def byte (b : UInt8) : String :=
  String.ofList (upperDigits b)

def word (w : UInt16) : String :=
  byte (Word.high w) ++ byte (Word.low w)

def doubleWord (d : UInt32) : String :=
  word (d / 65536).toUInt16 ++ word d.toUInt16

def lowerByte (b : UInt8) : String :=
  String.ofList (lowerDigits b)

def lowerWord (w : UInt16) : String :=
  lowerByte (Word.high w) ++ lowerByte (Word.low w)

def lowerBytes (bs : List UInt8) : String :=
  String.ofList (bs.flatMap lowerDigits)

def digitValue? (c : Char) : Option Nat :=
  if '0' ≤ c ∧ c ≤ '9' then some (c.toNat - 48)
  else if 'a' ≤ c ∧ c ≤ 'f' then some (c.toNat - 87)
  else if 'A' ≤ c ∧ c ≤ 'F' then some (c.toNat - 55)
  else none

def parseBytes? : List Char → Option (List UInt8)
  | [] => some []
  | [_] => none
  | c :: d :: rest => do
    let high ← digitValue? c
    let low ← digitValue? d
    return UInt8.ofNat (16 * high + low) :: (← parseBytes? rest)

end Z80Machine.Hex
