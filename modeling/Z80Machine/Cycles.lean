/-! Machine cycles. An instruction declares how many of each kind it takes, and its time follows from the counts. -/

namespace Z80Machine

inductive MachineCycle where
  | fetch
  | read
  | write
  | input
  | output
  | internal (n : Nat)
  | acknowledge
  deriving DecidableEq, Repr

def MachineCycle.tStates : MachineCycle → Nat
  | fetch => 4
  | read => 3
  | write => 3
  | input => 4
  | output => 4
  | internal n => n
  | acknowledge => 7

def MachineCycle.text : MachineCycle → String
  | fetch => "fetch"
  | read => "read"
  | write => "write"
  | input => "ioread"
  | output => "iowrite"
  | internal _ => "internal"
  | acknowledge => "ack"

structure CycleShape where
  fetches : Nat := 0
  reads : Nat := 0
  writes : Nat := 0
  inputs : Nat := 0
  outputs : Nat := 0
  internal : Nat := 0
  acknowledge : Bool := false
  deriving DecidableEq, Repr

namespace CycleShape

def empty : CycleShape :=
  {}

def m1 : CycleShape :=
  { fetches := 1 }

def addFetch (s : CycleShape) : CycleShape := { s with fetches := s.fetches + 1 }
def addReads (s : CycleShape) (n : Nat) : CycleShape := { s with reads := s.reads + n }
def addWrites (s : CycleShape) (n : Nat) : CycleShape := { s with writes := s.writes + n }
def addInput (s : CycleShape) : CycleShape := { s with inputs := s.inputs + 1 }
def addOutput (s : CycleShape) : CycleShape := { s with outputs := s.outputs + 1 }
def addInternal (s : CycleShape) (n : Nat) : CycleShape := { s with internal := s.internal + n }
def withAcknowledge (s : CycleShape) : CycleShape := { s with acknowledge := true }

def tStates (s : CycleShape) : Nat :=
  4 * s.fetches + 3 * (s.reads + s.writes) + 4 * (s.inputs + s.outputs) + s.internal +
    if s.acknowledge then 7 else 0

def writesOutside (s : CycleShape) : Bool :=
  s.writes > 0 || s.outputs > 0

def cycles (s : CycleShape) : List MachineCycle :=
  (if s.acknowledge then [.acknowledge] else []) ++
  List.replicate s.fetches .fetch ++
  List.replicate s.reads .read ++
  (if s.internal > 0 then [.internal s.internal] else []) ++
  List.replicate s.writes .write ++
  List.replicate s.inputs .input ++
  List.replicate s.outputs .output

end CycleShape

end Z80Machine
