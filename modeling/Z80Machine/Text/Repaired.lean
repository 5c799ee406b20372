/-! Text from bytes that should be UTF-8. Bytes that are not stand as replacement characters: one for each byte that
begins nothing, and one for each character that breaks off. -/

namespace Z80Machine.Text

structure Unfinished where
  bits : Nat
  behind : Nat
  least : UInt8 := 0x80
  greatest : UInt8 := 0xBF

def replacement : Char :=
  '\ufffd'

def beginCharacter (b : UInt8) : List Char × Option Unfinished :=
  if b < 0x80 then ([Char.ofNat b.toNat], none)
  else if b < 0xC2 then ([replacement], none)
  else if b < 0xE0 then ([], some { bits := b.toNat - 0xC0, behind := 0 })
  else if b < 0xF0 then ([], some {
    bits := b.toNat - 0xE0
    behind := 1
    least := if b = 0xE0 then 0xA0 else 0x80
    greatest := if b = 0xED then 0x9F else 0xBF })
  else if b < 0xF5 then ([], some {
    bits := b.toNat - 0xF0
    behind := 2
    least := if b = 0xF0 then 0x90 else 0x80
    greatest := if b = 0xF4 then 0x8F else 0xBF })
  else ([replacement], none)

def takeByte (unfinished : Option Unfinished) (b : UInt8) : List Char × Option Unfinished :=
  match unfinished with
  | none => beginCharacter b
  | some u =>
    if u.least ≤ b ∧ b ≤ u.greatest then
      let bits := 64 * u.bits + b.toNat % 64
      match u.behind with
      | 0 => ([Char.ofNat bits], none)
      | n + 1 => ([], some { bits, behind := n })
    else
      let (cs, next) := beginCharacter b
      (replacement :: cs, next)

def repairedFrom : Option Unfinished → List UInt8 → List Char
  | none, [] => []
  | some _, [] => [replacement]
  | unfinished, b :: rest =>
    let (cs, next) := takeByte unfinished b
    cs ++ repairedFrom next rest

def repaired (bytes : List UInt8) : String :=
  String.ofList (repairedFrom none bytes)

end Z80Machine.Text
