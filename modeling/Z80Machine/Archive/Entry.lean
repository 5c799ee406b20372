import Z80Machine.Text.Repaired

/-! Entries of a ZIP archive, and numbers, marks and names as the archive writes them. -/

namespace Z80Machine.Archive

structure Entry where
  name : String
  rawName : List UInt8
  comment : String
  encrypted : Bool
  sealed : Bool := false
  method : Nat
  crc : UInt32
  size : Nat
  fullSize : Nat
  header : Nat
  deriving DecidableEq, Repr

def ofBytes (bytes : List UInt8) : Nat :=
  bytes.foldr (fun b n => b.toNat + 256 * n) 0

def number? (file : Array UInt8) (place width : Nat) : Option Nat :=
  if place + width ≤ file.size then some (ofBytes (file.extract place (place + width)).toList) else none

def marked (file : Array UInt8) (place : Nat) (mark : List UInt8) : Bool :=
  (file.extract place (place + mark.length)).toList == mark

def upperCharacters : List Char :=
  ("ÇüéâäàåçêëèïîìÄÅÉæÆôöòûùÿÖÜ¢£¥₧ƒáíóúñÑªº¿⌐¬½¼¡«»░▒▓│┤╡╢╖╕╣║╗╝╜╛┐└┴┬├─┼╞╟╚╔╩╦╠═╬╧╨╤╥╙╘╒╓╫╪┘┌█▄▌▐▀" ++
    "αßΓπΣσµτΦΘΩδ∞φε∩≡±≥≤⌠⌡÷≈°∙·√ⁿ²■\u00a0").toList

def narrowText (bytes : List UInt8) : String :=
  String.ofList (bytes.map fun b =>
    if b < 128 then Char.ofNat b.toNat else upperCharacters.getD (b.toNat - 128) ' ')

def textOf (wide : Bool) (bytes : List UInt8) : String :=
  if wide then Text.repaired bytes else narrowText bytes

def Entry.isDirectory (e : Entry) : Bool :=
  match e.name.toList.getLast? with
  | some c => c == '/' || c == '\\'
  | none => false

def headerMark : List UInt8 :=
  [0x50, 0x4B, 0x03, 0x04]

def Entry.dataStart? (e : Entry) (file : Array UInt8) : Option Nat := do
  if !marked file e.header headerMark then none
  return e.header + 30 + (← number? file (e.header + 26) 2) + (← number? file (e.header + 28) 2)

end Z80Machine.Archive
