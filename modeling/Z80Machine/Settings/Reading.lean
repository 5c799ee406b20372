import Z80Machine.Config
import Z80Machine.Settings.Value

/-! Reading the configuration records from document values. Their fields go by names with hyphens. -/

namespace Z80Machine

open Settings

def ClockMode.ofValue? (v : Value) : Option ClockMode := do
  let name ← v.name?
  [.standard, .high].find? fun mode => mode.name == name

def IdleConfig.ofValue? (v : Value) : Option IdleConfig := do
  let start : IdleConfig := {}
  return {
    enabled := ← v.fieldOr 0 "enabled" start.enabled Value.boolean?
    threshold := ← v.fieldOr 1 "threshold" start.threshold (Value.unsigned? 64)
    sleepMicros := ← v.fieldOr 2 "sleep-micros" start.sleepMicros (Value.unsigned? 64) }

def TraceConfig.ofValue? (v : Value) : Option TraceConfig := do
  let start : TraceConfig := {}
  return {
    enabled := ← v.fieldOr 0 "enabled" start.enabled Value.boolean?
    maxEntries := ← v.fieldOr 1 "max-entries" start.maxEntries (Value.unsigned? 64) }

def CpuConfig.ofValue? (v : Value) : Option CpuConfig := do
  let start : CpuConfig := {}
  return {
    clockMode := ← v.fieldOr 0 "clock-mode" start.clockMode ClockMode.ofValue?
    speedMultiplier := ← v.fieldOr 1 "speed-multiplier" start.speedMultiplier Value.float?
    idle := ← v.fieldOr 2 "idle" start.idle IdleConfig.ofValue?
    trace := ← v.fieldOr 3 "trace" start.trace TraceConfig.ofValue?
    chunkCycles := ← v.fieldOr 4 "chunk-cycles" start.chunkCycles (Value.unsigned? 64) }

def BoardConfig.ofValue? (v : Value) : Option BoardConfig := do
  let start : BoardConfig := {}
  let word (w : Value) : Option UInt16 := (w.unsigned? 16).map UInt16.ofNat
  return {
    frameRate := ← v.fieldOr 0 "frame-rate" start.frameRate fun w => (w.unsigned? 32).map UInt32.ofNat
    videoStart := ← v.fieldOr 1 "video-start" start.videoStart word
    videoEnd := ← v.fieldOr 2 "video-end" start.videoEnd word
    romSize := ← v.fieldOr 3 "rom-size" start.romSize (Value.unsigned? 64)
    loadAddress := ← v.fieldOr 4 "load-address" start.loadAddress word
    vblankInterrupt := ← v.fieldOr 5 "vblank-interrupt" start.vblankInterrupt Value.boolean? }

end Z80Machine
