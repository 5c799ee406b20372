import Z80Machine.Settings.Exact
import Z80Machine.TestVector.State

/-! Reading the state of a test vector from a document value. All but four of its fields must be there; those four
are checked and not kept. A list gives the fields in their order. -/

namespace Z80Machine.TestVector

open Settings

def fieldNames : List String :=
  ["pc", "sp", "a", "b", "c", "d", "e", "f", "h", "l", "i", "r", "ei", "wz", "ix", "iy", "af_", "bc_", "de_", "hl_",
    "im", "p", "q", "iff1", "iff2", "ram"]

def member? (v : Value) (name : String) : Option Value :=
  match v with
  | .table fields => (fields.find? fun f => f.1 == name).map Prod.snd
  | .list items => items[fieldNames.idxOf name]?
  | _ => none

def byte? (v : Value) (name : String) : Option UInt8 := do
  return UInt8.ofNat (← (← member? v name).unsigned? 8)

def word? (v : Value) (name : String) : Option UInt16 := do
  return UInt16.ofNat (← (← member? v name).unsigned? 16)

def suits (v : Value) (name : String) (bits : Nat) : Bool :=
  match member? v name with
  | some w => (w.unsigned? bits).isSome
  | none => true

def cell? : Value → Option (UInt16 × UInt8)
  | .list [addr, byte] => do
    return (UInt16.ofNat (← addr.unsigned? 16), UInt8.ofNat (← byte.unsigned? 8))
  | _ => none

def State.ofValue? (v : Value) : Option State := do
  if !(v.fits fieldNames.length && suits v "ei" 8 && suits v "wz" 16 && suits v "p" 8 && suits v "q" 8) then none
  let ram ← match ← member? v "ram" with
    | .list cells => cells.mapM cell?
    | _ => none
  return {
    ram
    pc := ← word? v "pc"
    sp := ← word? v "sp"
    a := ← byte? v "a"
    b := ← byte? v "b"
    c := ← byte? v "c"
    d := ← byte? v "d"
    e := ← byte? v "e"
    f := ← byte? v "f"
    h := ← byte? v "h"
    l := ← byte? v "l"
    i := ← byte? v "i"
    r := ← byte? v "r"
    ix := ← word? v "ix"
    iy := ← word? v "iy"
    shadowAf := ← word? v "af_"
    shadowBc := ← word? v "bc_"
    shadowDe := ← word? v "de_"
    shadowHl := ← word? v "hl_"
    im := ← byte? v "im"
    iff1 := ← byte? v "iff1"
    iff2 := ← byte? v "iff2" }

end Z80Machine.TestVector
