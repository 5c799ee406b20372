import Z80Machine.Clock.Mode
import Z80Machine.Double

/-! What the host may tune: the idle detector, the trace, the processor and the board it sits on. -/

namespace Z80Machine

structure IdleConfig where
  enabled : Bool := true
  threshold : Nat := 5
  sleepMicros : Nat := 1000
  deriving DecidableEq, Repr

namespace IdleConfig

def clampThreshold (n : Nat) : Nat :=
  min (max n 2) 10

def floorSleep (n : Nat) : Nat :=
  if n = 0 then 0 else max n 100

def normalized (c : IdleConfig) : IdleConfig :=
  { c with threshold := clampThreshold c.threshold, sleepMicros := floorSleep c.sleepMicros }

end IdleConfig

structure TraceConfig where
  enabled : Bool := false
  maxEntries : Nat := 10000
  deriving DecidableEq, Repr

structure CpuConfig where
  clockMode : ClockMode := .standard
  speedMultiplier : Double := .one
  idle : IdleConfig := {}
  trace : TraceConfig := {}
  chunkCycles : Nat := 10000
  deriving DecidableEq, Repr

structure BoardConfig where
  frameRate : UInt32 := 60
  videoStart : UInt16 := 0xC000
  videoEnd : UInt16 := 0xE000
  romSize : Nat := 0
  loadAddress : UInt16 := 0
  vblankInterrupt : Bool := true
  deriving DecidableEq, Repr

inductive ConfigError where
  | unknownClockMode (text : String)
  | invalidSpeedMultiplier (multiplier : Float)
  | zeroChunk

namespace CpuConfig

def validMultiplier (x : Float) : Bool :=
  x.isFinite && x > 0.0

def validated (c : CpuConfig) : Except ConfigError CpuConfig :=
  if !validMultiplier c.speedMultiplier.toFloat then .error (.invalidSpeedMultiplier c.speedMultiplier.toFloat)
  else if c.chunkCycles = 0 then .error .zeroChunk
  else .ok { c with idle := c.idle.normalized }

end CpuConfig

end Z80Machine
