import Z80Machine.Config
import Z80Machine.Log

/-! The idle detector. It watches executed instructions for a block that comes twice in a row and whose second round
left the registers as it found them, the refresh counter apart. Such a loop is a fixed point: as long as nothing
outside changes, running it again gives the same state, so its time may be charged without running it. -/

namespace Z80Machine.Idle

structure Step where
  pc : UInt16
  opcode : UInt8
  cycles : Nat
  fetches : Nat
  deriving DecidableEq, Repr

structure Entry where
  step : Step
  after : Registers
  deriving DecidableEq, Repr

structure Loop where
  start : UInt16
  length : Nat
  cycles : Nat
  fetches : Nat
  deriving DecidableEq, Repr

structure Stats where
  loops : Nat := 0
  iterations : Nat := 0
  cycles : Nat := 0
  deriving DecidableEq, Repr

def burstLimit : Nat :=
  500

structure Detector where
  config : IdleConfig
  history : List Entry := []
  active : Option Loop := none
  burst : Nat := 0
  stats : Stats := {}
  deriving DecidableEq, Repr

namespace Detector

def ofConfig (config : IdleConfig) : Detector :=
  { config := config.normalized }

def forget (d : Detector) : Detector :=
  { d with history := [], active := none, burst := 0 }

def cancel (d : Detector) (why : Release) : Logged Detector where
  value := d.forget
  events := match d.active with
    | some loop => [.loopReleased loop.start why]
    | none => []

def setEnabled (d : Detector) (on : Bool) : Logged Detector :=
  let done : Logged Detector := if on then { value := d } else d.cancel .disabled
  done.map fun d => { d with config := { d.config with enabled := on } }

def setThreshold (d : Detector) (n : Nat) : Logged Detector :=
  { d with config := { d.config with threshold := IdleConfig.clampThreshold n } }.cancel .thresholdChanged

def setSleepMicros (d : Detector) (n : Nat) : Detector :=
  { d with config := { d.config with sleepMicros := n }.normalized }

/-- Whether the last `n` steps repeat the `n` before them, end where they began, and left the registers as they were. -/
def repeats (history : List Entry) (n : Nat) : Bool :=
  2 * n ≤ history.length &&
  match history[0]?, history[n - 1]?, history[n]? with
  | some last, some first, some before =>
    last.after.pc == first.step.pc &&
    (history.take n).map Entry.step == ((history.drop n).take n).map Entry.step &&
    before.after.sameButRefresh last.after
  | _, _, _ => false

def loopOf (history : List Entry) (start : UInt16) (n : Nat) : Loop :=
  let steps := (history.take n).map Entry.step
  { start, length := n, cycles := steps.foldr (·.cycles + ·) 0, fetches := steps.foldr (·.fetches + ·) 0 }

def find? (history : List Entry) (threshold : Nat) : Option Loop := do
  let n ← (List.range' 2 (threshold - 1)).find? (repeats history)
  let last ← history.head?
  return loopOf history last.after.pc n

/-- Takes note of a step. An unsafe one may have had an effect outside, so nothing before it counts any more. -/
def observe (d : Detector) (step : Step) (safe : Bool) (after : Registers) : Logged Detector :=
  if !d.config.enabled || d.active.isSome then { value := d }
  else if !safe then { value := { d with history := [] } }
  else
    let history := ({ step, after } :: d.history).take (2 * d.config.threshold)
    match find? history d.config.threshold with
    | none => { value := { d with history } }
    | some loop => {
        value := { d with
          history := [], active := some loop, burst := 0
          stats := { d.stats with loops := d.stats.loops + 1 } }
        events := [.loopFound loop.start loop.length loop.cycles] }

def skip (d : Detector) (loop : Loop) : Logged Detector :=
  let d := { d with
    burst := d.burst + 1
    stats := { d.stats with
      iterations := d.stats.iterations + 1, cycles := d.stats.cycles + loop.cycles } }
  if d.burst < burstLimit then { value := d }
  else { value := d.forget, events := [.burstDone loop.start] }

end Detector

end Z80Machine.Idle
