import Z80Machine.Text.Hex

/-! The opcode sequences that test vectors are made for, and their names. -/

namespace Z80Machine.TestVector

def isSelector (b : UInt8) : Bool :=
  b == 0xCB || b == 0xDD || b == 0xED || b == 0xFD

def sequencesOf (op : UInt8) : List (List UInt8) :=
  let plain (before : List UInt8) := if isSelector op then [] else [before ++ [op]]
  plain [] ++ [[0xCB, op], [0xED, op]] ++
  plain [0xDD] ++ [[0xDD, 0xCB, 0x00, op]] ++
  plain [0xFD] ++ [[0xFD, 0xCB, 0x00, op]]

def sequences : List (List UInt8) :=
  (List.range 256).flatMap fun op => sequencesOf (UInt8.ofNat op)

/-- The bytes in hexadecimal, with blanks between. In a list of four the third is a displacement and not part of the
name. -/
def name (bytes : List UInt8) : String :=
  match bytes with
  | [p, q, _, op] => " ".intercalate [Hex.lowerByte p, Hex.lowerByte q, "__", Hex.lowerByte op]
  | bytes => " ".intercalate (bytes.map Hex.lowerByte)

end Z80Machine.TestVector
