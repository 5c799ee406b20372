import Z80Machine.Config

/-! The clock: which crystal runs, how fast the host lets time pass, and the way between T-states and microseconds. -/

namespace Z80Machine

structure Clock where
  mode : ClockMode := .standard
  multiplier : Float := 1.0

namespace Clock

def setMode (c : Clock) (mode : ClockMode) : Bool × Clock :=
  (c.mode != mode, { c with mode })

def setMultiplier (c : Clock) (x : Float) : Except ConfigError Clock :=
  if CpuConfig.validMultiplier x then .ok { c with multiplier := x } else .error (.invalidSpeedMultiplier x)

def hertz (c : Clock) : Nat :=
  c.mode.hertz

/-- A frame rate of zero counts as one frame in a second. -/
def cyclesPerFrame (c : Clock) (rate : UInt32) : Nat :=
  c.hertz / max rate.toNat 1

def toMicros (c : Clock) (cycles : UInt64) : Float :=
  cycles.toFloat * 1000000.0 / Float.ofNat c.hertz / c.multiplier

def toCycles (c : Clock) (micros : Float) : UInt64 :=
  (micros * c.multiplier * Float.ofNat c.hertz / 1000000.0).toUInt64

def accessFactor (c : Clock) (device : DeviceClass) : Float :=
  Float.ofNat (c.mode.accessQuarters device) / 4.0

end Clock

end Z80Machine
