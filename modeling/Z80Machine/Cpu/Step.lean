import Z80Machine.Cpu
import Z80Machine.Instruction.Fetch

/-! One step of the processor: an interrupt response, a halted cycle, a skipped iteration of an idle loop, or an
instruction. -/

namespace Z80Machine

structure Ran where
  instruction : Instruction
  opcode : UInt8
  core : Core
  trace : Trace
  cycles : Nat

/-- Fetches, decodes, traces and runs the instruction at the program counter. The trace shows the registers with the
program counter behind the opcode and the refresh counter moved on. -/
def Core.cycle (c : Core) (trace : Trace) : Dialogue Ran := do
  let pc := c.regs.pc
  let opcode ← Dialogue.readByte pc
  let instruction ← Instruction.decode opcode pc
  let regs := { c.regs with pc := pc + 1 }.refresh instruction.shape.fetches
  let traced := trace.record instruction regs
  traced.events.forM Dialogue.remark
  let (core, cycles) ← instruction.execute { c with regs, eiDelay := false }
  return { instruction, opcode, core, trace := traced.value, cycles }

namespace Cpu

variable {B : Type} [Bus B]

def haltedCycles : Nat :=
  4

def nmiVector : UInt16 :=
  0x0066

def im1Vector : UInt16 :=
  0x0038

def enterNmi (regs : Registers) : Dialogue (Registers × CycleShape) := do
  let regs ← Stack.push regs.pc { regs with iff1 := false }
  return ({ regs with pc := nmiVector }, (CycleShape.m1.addInternal 1).addWrites 2)

def enterMaskable (regs : Registers) (vectorByte : UInt8) : Dialogue (Registers × CycleShape) := do
  let regs ← Stack.push regs.pc (regs.setInterrupts false)
  let shape := CycleShape.empty.withAcknowledge.addWrites 2
  if regs.im == 2 then
    let pc ← Dialogue.readWord (Word.ofBytes regs.i vectorByte)
    return ({ regs with pc }, shape.addReads 2)
  else return ({ regs with pc := im1Vector }, shape)

def accepts (c : Cpu B) : Interrupt → Bool
  | .nonMaskable => true
  | .maskable => c.regs.iff1 && !c.core.eiDelay

def service (c : Cpu B) (kind : Interrupt) : Nat × Cpu B :=
  let response := match kind with
    | .nonMaskable => enterNmi c.regs
    | .maskable => enterMaskable c.regs c.vectorByte
  let ((regs, shape), c) := c.converse response
  let c := { c with pending := none, core := { c.core with regs := regs.refresh 1, halted := false } }
  (shape.tStates, c.cancelIdle .interruptServiced)

def runInstruction (c : Cpu B) : Nat × Cpu B :=
  let t := (c.core.cycle c.trace).run c.bus c.log {}
  let ran := t.result
  let cycles := ran.cycles + c.clock.mode.contention t.traffic.video t.traffic.ports
  let c := { c with core := ran.core, trace := ran.trace, bus := t.bus, log := t.log }
  let step : Idle.Step := {
    pc := ran.instruction.address, opcode := ran.opcode, cycles, fetches := ran.instruction.shape.fetches }
  (cycles, c.setIdle (c.idle.observe step ran.instruction.idleSafe c.regs))

def skippable? (c : Cpu B) (budget : Nat) : Option Idle.Loop :=
  c.idle.active.filter fun loop => c.regs.pc == loop.start && loop.cycles ≤ budget

def skip (c : Cpu B) (loop : Idle.Loop) : Nat × Cpu B :=
  (loop.cycles, (c.setRegs (c.regs.refresh loop.fetches)).setIdle (c.idle.skip loop))

def advance (c : Cpu B) (budget : Nat) : Nat × Cpu B :=
  match c.pending.filter c.accepts with
  | some kind => c.service kind
  | none =>
    if c.core.halted then (haltedCycles, c.setRegs (c.regs.refresh 1))
    else match c.skippable? budget with
      | some loop => c.skip loop
      | none => c.runInstruction

/-- One step, and the T-states it took. A paused processor takes none. Only an iteration of at most `budget` T-states
is skipped, so that skipping never passes a point where real execution would have stopped. -/
def step (c : Cpu B) (budget : Nat) : Nat × Cpu B :=
  match c.lifecycle with
  | .paused => (0, c)
  | _ =>
    let c := if c.lifecycle = .uninitialized then { c with lifecycle := .initialized } else c
    let (cycles, c) := c.advance budget
    (cycles, { c with total := c.total + UInt64.ofNat cycles })

def unbounded : Nat :=
  0xFFFFFFFFFFFFFFFF

end Cpu

end Z80Machine
