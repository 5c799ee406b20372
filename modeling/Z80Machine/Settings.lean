import Z80Machine.Settings.Reading
import Z80Machine.Toml.Document

/-! The settings of a run, and how they are read from a document. -/

namespace Z80Machine

structure RunConfig where
  frames : Nat := 600
  realtime : Bool := false
  deriving DecidableEq, Repr

structure Settings where
  cpu : CpuConfig := {}
  board : BoardConfig := {}
  run : RunConfig := {}

open Settings

def RunConfig.ofValue? (v : Value) : Option RunConfig := do
  let start : RunConfig := {}
  return {
    frames := ← v.fieldOr 0 "frames" start.frames (Value.unsigned? 64)
    realtime := ← v.fieldOr 1 "realtime" start.realtime Value.boolean? }

namespace Settings

def ofValue? (v : Value) : Option Settings := do
  return {
    cpu := ← v.fieldOr 0 "cpu" {} CpuConfig.ofValue?
    board := ← v.fieldOr 1 "machine" {} BoardConfig.ofValue?
    run := ← v.fieldOr 2 "run" {} RunConfig.ofValue? }

inductive DocumentError where
  | malformed
  | unsuitable
  deriving DecidableEq, Repr

def DocumentError.message : DocumentError → String
  | malformed => "not a TOML document"
  | unsuitable => "a value does not suit its field"

def ofText (s : String) : Except DocumentError Settings :=
  match Toml.parse? s with
  | none => .error .malformed
  | some v =>
    match ofValue? v with
    | none => .error .unsuitable
    | some settings => .ok settings

end Settings

end Z80Machine
