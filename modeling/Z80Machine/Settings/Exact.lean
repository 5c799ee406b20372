import Z80Machine.Settings.Reading

/-! Reading the configuration records from documents that are taken exactly: a list may not be longer than the record
that it gives, and a name that is given as a record has null in it. -/

namespace Z80Machine

namespace Settings.Value

def fits (v : Value) (fields : Nat) : Bool :=
  match v with
  | list items => items.length ≤ fields
  | _ => true

def exactField (v : Value) (position : Nat) (name : String) (isExact : Value → Bool) : Bool :=
  match v.field? position name with
  | some (some w) => isExact w
  | _ => true

def isExactName : Value → Bool
  | table [(_, null)] => true
  | table _ => false
  | _ => true

end Settings.Value

open Settings

def IdleConfig.fields : Nat := 3

def TraceConfig.fields : Nat := 2

def CpuConfig.fields : Nat := 5

def BoardConfig.fields : Nat := 6

def CpuConfig.isExact (v : Value) : Bool :=
  v.fits CpuConfig.fields && v.exactField 0 "clock-mode" Value.isExactName &&
  v.exactField 2 "idle" (Value.fits · IdleConfig.fields) && v.exactField 3 "trace" (Value.fits · TraceConfig.fields)

def CpuConfig.ofExact? (v : Value) : Option CpuConfig :=
  if CpuConfig.isExact v then CpuConfig.ofValue? v else none

def BoardConfig.ofExact? (v : Value) : Option BoardConfig :=
  if v.fits BoardConfig.fields then BoardConfig.ofValue? v else none

end Z80Machine
