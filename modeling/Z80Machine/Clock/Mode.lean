/-! The two crystals of the processor, and the wait states that the faster one needs. -/

namespace Z80Machine

inductive ClockMode where
  | standard
  | high
  deriving DecidableEq, Repr

inductive DeviceClass where
  | memory
  | video
  | port
  deriving DecidableEq, Repr

namespace ClockMode

def hertz : ClockMode → Nat
  | standard => 3993600
  | high => 7987200

def name : ClockMode → String
  | standard => "standard"
  | high => "high"

def text : ClockMode → String
  | standard => "4MHz"
  | high => "8MHz"

def accessQuarters : ClockMode → DeviceClass → Nat
  | high, .video => 5
  | high, .port => 6
  | _, _ => 4

def accessTime : DeviceClass → Nat
  | .memory => 3
  | .video => 3
  | .port => 4

/-- The wait states of one access: what its class adds to the plain time, rounded up. -/
def waitStates (mode : ClockMode) (device : DeviceClass) : Nat :=
  ((mode.accessQuarters device - 4) * accessTime device + 3) / 4

def contention (mode : ClockMode) (video ports : Nat) : Nat :=
  mode.waitStates .video * video + mode.waitStates .port * ports

end ClockMode

end Z80Machine
