import Z80Machine.Clock
import Z80Machine.Execute
import Z80Machine.Idle
import Z80Machine.Trace

/-! The processor with the bus it is wired to, and everything the host may do to it beside letting it run. -/

namespace Z80Machine

inductive Lifecycle where
  | uninitialized
  | initialized
  | running
  | paused
  deriving DecidableEq, Repr

def Lifecycle.text : Lifecycle → String
  | uninitialized => "uninitialized"
  | initialized => "initialized"
  | running => "running"
  | paused => "paused"

inductive Interrupt where
  | maskable
  | nonMaskable
  deriving DecidableEq, Repr

structure Cpu (B : Type) where
  core : Core := {}
  bus : B
  lifecycle : Lifecycle := .uninitialized
  pending : Option Interrupt := none
  vectorByte : UInt8 := 0xFF
  total : UInt64 := 0
  clock : Clock := {}
  chunkCycles : Nat := 10000
  idle : Idle.Detector := .ofConfig {}
  trace : Trace := .ofConfig {}
  log : Log := {}

namespace Cpu

variable {B : Type}

def withConfig (bus : B) (config : CpuConfig) (log : Log) : Except ConfigError (Cpu B) := do
  let config ← config.validated
  return {
    bus, log
    clock := { mode := config.clockMode, multiplier := config.speedMultiplier.toFloat }
    chunkCycles := config.chunkCycles
    idle := .ofConfig config.idle
    trace := .ofConfig config.trace }

def regs (c : Cpu B) : Registers :=
  c.core.regs

def setRegs (c : Cpu B) (regs : Registers) : Cpu B :=
  { c with core := { c.core with regs } }

def note (c : Cpu B) (e : Event) : Cpu B :=
  { c with log := c.log.add e }

def setIdle (c : Cpu B) (idle : Logged Idle.Detector) : Cpu B :=
  { c with idle := idle.value, log := c.log.addAll idle.events }

def cancelIdle (c : Cpu B) (why : Release) : Cpu B :=
  c.setIdle (c.idle.cancel why)

/-! Lifecycle -/

def powerOn (c : Cpu B) : Cpu B :=
  { c with core := {}, pending := none, total := 0 }.cancelIdle .reset

def setUp (c : Cpu B) : Cpu B :=
  { c.powerOn with lifecycle := .initialized }.note (.initialized c.clock.mode)

def start (c : Cpu B) : Cpu B :=
  { (if c.lifecycle = .uninitialized then c.setUp else c) with lifecycle := .running }

def pause (c : Cpu B) : Cpu B :=
  if c.lifecycle = .running then { c with lifecycle := .paused } else c

def resume (c : Cpu B) : Cpu B :=
  if c.lifecycle = .paused then { c with lifecycle := .running } else c

def stop (c : Cpu B) : Cpu B :=
  if c.lifecycle = .uninitialized then c else { c with lifecycle := .initialized }

def reset (c : Cpu B) : Cpu B :=
  (c.powerOn.stop).note .cpuReset

/-! Interrupts and halt -/

/-- Latches a request. A maskable one does not displace a non-maskable one. -/
def requestInterrupt (c : Cpu B) (kind : Interrupt) : Cpu B :=
  let c := match c.pending, kind with
    | some .nonMaskable, .maskable => c.note .maskableDropped
    | _, _ => { c with pending := some kind }
  c.cancelIdle .interruptRequested

def setVectorByte (c : Cpu B) (byte : UInt8) : Cpu B :=
  { c with vectorByte := byte }

def setInterruptEnabled (c : Cpu B) (on : Bool) : Cpu B :=
  c.setRegs (c.regs.setInterrupts on)

def interruptEnabled (c : Cpu B) : Bool :=
  c.regs.iff1

def halt (c : Cpu B) : Cpu B :=
  { c with core := { c.core with halted := true } }.cancelIdle .halt

def isHalted (c : Cpu B) : Bool :=
  c.core.halted

/-! Clock, idle detection, trace -/

def setClockMode (c : Cpu B) (mode : ClockMode) : Cpu B :=
  match c.clock.setMode mode with
  | (false, _) => c
  | (true, clock) => ({ c with clock }.cancelIdle .clockChanged).note (.clockSet mode)

def setSpeedMultiplier (c : Cpu B) (x : Float) : Except ConfigError (Cpu B) := do
  return { c with clock := ← c.clock.setMultiplier x }

def setIdleDetection (c : Cpu B) (on : Bool) : Cpu B :=
  c.setIdle (c.idle.setEnabled on)

def setIdleThreshold (c : Cpu B) (n : Nat) : Cpu B :=
  c.setIdle (c.idle.setThreshold n)

def setIdleSleep (c : Cpu B) (micros : Nat) : Cpu B :=
  { c with idle := c.idle.setSleepMicros micros }

def setTrace (c : Cpu B) (on : Bool) (maxEntries : Nat) : Cpu B :=
  { c with trace := { enabled := on, maxEntries } }

/-! The bus in the hands of the host. A loop being skipped may depend on what the host changes, so it is given up. -/

def editMemory (c : Cpu B) (f : B → B) : Cpu B :=
  { c.cancelIdle .memoryEdited with bus := f c.bus }

def editPorts (c : Cpu B) (f : B → B) : Cpu B :=
  { c.cancelIdle .portsEdited with bus := f c.bus }

def converse {α : Type} [Bus B] (c : Cpu B) (d : Dialogue α) : α × Cpu B :=
  let t := d.run c.bus c.log {}
  (t.result, { c with bus := t.bus, log := t.log })

def hostMemory {α : Type} [Bus B] (c : Cpu B) (d : Dialogue α) : α × Cpu B :=
  (c.cancelIdle .memoryEdited).converse d

def hostPorts {α : Type} [Bus B] (c : Cpu B) (d : Dialogue α) : α × Cpu B :=
  (c.cancelIdle .portsEdited).converse d

end Cpu

end Z80Machine
