import Z80Machine.Proofs.Slicing

/-! Two processors in step. When their buses give the same answers and go on doing so, they take the same steps, and no
one can tell them apart by what a program does on them. -/

namespace Z80Machine

/-- Buses that `R` relates answer alike, and are related again after each access. -/
structure Bus.Twins {B B' : Type} [Bus B] [Bus B'] (R : B → B' → Prop) : Prop where
  deviceClass : ∀ b b', R b b' → ∀ addr, Bus.deviceClass b' addr = Bus.deviceClass b addr
  read : ∀ b b', R b b' → ∀ addr, (Bus.read b' addr).1 = (Bus.read b addr).1 ∧
    R (Bus.read b addr).2 (Bus.read b' addr).2
  write : ∀ b b', R b b' → ∀ addr byte, R (Bus.write b addr byte) (Bus.write b' addr byte)
  input : ∀ b b', R b b' → ∀ port, (Bus.input b' port).1 = (Bus.input b port).1 ∧
    R (Bus.input b port).2 (Bus.input b' port).2
  output : ∀ b b', R b b' → ∀ port byte, R (Bus.output b port byte) (Bus.output b' port byte)

section

variable {B B' : Type} [Bus B] [Bus B'] {R : B → B' → Prop} (hR : Bus.Twins R)

include hR

theorem Bus.Twins.run {α : Type} {b : B} {b' : B'} (h : R b b') (d : Dialogue α) (log log' : Log)
    (traffic : Traffic) :
    (d.run b' log' traffic).result = (d.run b log traffic).result ∧
      (d.run b' log' traffic).traffic = (d.run b log traffic).traffic ∧
      R (d.run b log traffic).bus (d.run b' log' traffic).bus := by
  have hat (t : Traffic) {b : B} {b' : B'} (h : R b b') (addr : UInt16) : t.atAddress b' addr = t.atAddress b addr := by
    rw [Traffic.atAddress, Traffic.atAddress, hR.deviceClass b b' h]
  induction d generalizing b b' log log' traffic with
  | done => exact ⟨rfl, rfl, h⟩
  | read addr next ih =>
    obtain ⟨hbyte, hnext⟩ := hR.read b b' h addr
    simp only [Dialogue.run, hat traffic h, hbyte]
    exact ih _ hnext _ _ _
  | write addr byte next ih =>
    simp only [Dialogue.run, hat traffic h]
    exact ih (hR.write b b' h addr byte) _ _ _
  | input port next ih =>
    obtain ⟨hbyte, hnext⟩ := hR.input b b' h port
    simp only [Dialogue.run, hbyte]
    exact ih _ hnext _ _ _
  | output port byte next ih => exact ih (hR.output b b' h port byte) _ _ _
  | note event next ih => exact ih h _ _ _

lemma Bus.Twins.accesses {α : Type} {b : B} {b' : B'} (h : R b b') (d : Dialogue α) :
    d.accesses b' = d.accesses b := by
  induction d generalizing b b' with
  | done => rfl
  | read addr next ih =>
    obtain ⟨hbyte, hnext⟩ := hR.read b b' h addr
    simp only [Dialogue.accesses, hbyte, ih _ hnext]
  | write addr byte next ih => simp only [Dialogue.accesses, ih (hR.write b b' h addr byte)]
  | input port next ih =>
    obtain ⟨hbyte, hnext⟩ := hR.input b b' h port
    simp only [Dialogue.accesses, hbyte, ih _ hnext]
  | output port byte next ih => simp only [Dialogue.accesses, ih (hR.output b b' h port byte)]
  | note event next ih => exact ih h

end

namespace Idle.Detector

def uncounted (d : Detector) : Detector :=
  { d with stats := {} }

lemma uncounted_skip (d : Detector) (loop : Loop) :
    (d.skip loop).value.uncounted = (d.uncounted.skip loop).value.uncounted := by
  by_cases h : d.burst + 1 < burstLimit
  · simp [skip, uncounted, h]
  · simp [skip, uncounted, forget, h]

lemma uncounted_observe (d : Detector) (step : Step) (safe : Bool) (after : Registers) :
    (d.observe step safe after).value.uncounted = (d.uncounted.observe step safe after).value.uncounted := by
  obtain ⟨config, history, active, burst, stats⟩ := d
  cases hoff : !config.enabled || active.isSome with
  | true => simp [observe, uncounted, hoff]
  | false =>
    cases safe with
    | false => simp [observe, uncounted, hoff]
    | true =>
      cases hfind : find? ((⟨step, after⟩ :: history).take (2 * config.threshold)) config.threshold with
      | none => simp [observe, uncounted, hoff, hfind]
      | some loop => simp [observe, uncounted, hoff, hfind]

end Idle.Detector

/-- Only the multiplier of the clock tells these machines apart, and whatever of their buses `R` leaves open. -/
structure Machine.Twins {B B' : Type} (R : B → B' → Prop) (m : Machine B) (m' : Machine B') : Prop where
  core : m'.core = m.core
  bus : R m.bus m'.bus
  lifecycle : m'.lifecycle = m.lifecycle
  pending : m'.pending = m.pending
  vectorByte : m'.vectorByte = m.vectorByte
  total : m'.total = m.total
  mode : m'.clock.mode = m.clock.mode

namespace Cpu

lemma step_chunkCycles {B : Type} [Bus B] (c : Cpu B) (budget : Nat) :
    (c.step budget).2.chunkCycles = c.chunkCycles := by
  by_cases hl : c.lifecycle = .paused
  · rw [step, hl]
  rw [step_eq hl]
  simp only [advance]
  split
  case h_1 kind _ =>
    obtain ⟨log, h⟩ := ({ c with lifecycle := c.lifecycle.awake } : Cpu B).service_eq kind
    rw [h]
  case h_2 =>
    split
    · rfl
    split
    · rfl
    · obtain ⟨trace, log, h⟩ := ({ c with lifecycle := c.lifecycle.awake } : Cpu B).runInstruction_eq
      rw [h]

structure Twins {B B' : Type} (R : B → B' → Prop) (c : Cpu B) (d : Cpu B') : Prop where
  machine : Machine.Twins R c.machine d.machine
  idle : d.idle.uncounted = c.idle.uncounted
  chunkCycles : d.chunkCycles = c.chunkCycles

namespace Twins

variable {B B' : Type} {R : B → B' → Prop} {c : Cpu B} {d : Cpu B'}

section

variable (h : Twins R c d)

include h

lemma core : d.core = c.core :=
  h.machine.core

lemma regs : d.regs = c.regs :=
  congrArg Core.regs h.machine.core

lemma bus : R c.bus d.bus :=
  h.machine.bus

lemma lifecycle : d.lifecycle = c.lifecycle :=
  h.machine.lifecycle

lemma stepKind (budget : Nat) : d.stepKind budget = c.stepKind budget := by
  have hpending : d.pending = c.pending := h.machine.pending
  have hactive : d.idle.active = c.idle.active := congrArg (·.active) h.idle
  have haccepts : d.accepts = c.accepts := by
    funext kind
    cases kind <;> simp only [accepts, h.regs, h.core]
  simp only [Cpu.stepKind, skippable?, h.regs, h.core, h.lifecycle, hpending, hactive, haccepts]

lemma response (kind : Interrupt) : d.response kind = c.response kind := by
  have hvector : d.vectorByte = c.vectorByte := h.machine.vectorByte
  cases kind <;> simp only [Cpu.response, h.regs, hvector]

lemma after (core : Core) {bus : B} {bus' : B'} (hbus : R bus bus') (cycles : Nat) :
    Machine.Twins R (c.after core bus cycles) (d.after core bus' cycles) where
  core := rfl
  bus := hbus
  lifecycle := congrArg Lifecycle.awake h.lifecycle
  pending := h.machine.pending
  vectorByte := h.machine.vectorByte
  total := congrArg (· + UInt64.ofNat cycles) h.machine.total
  mode := h.machine.mode

lemma editRegs (f : Registers → Registers) : Twins R (c.setRegs (f c.regs)) (d.setRegs (f d.regs)) := by
  refine ⟨⟨?_, h.bus, h.lifecycle, h.machine.pending, h.machine.vectorByte, h.machine.total, h.machine.mode⟩, h.idle,
    h.chunkCycles⟩
  rw [h.regs]
  exact congrArg (fun core : Core => { core with regs := f c.regs }) h.core

lemma note (event event' : Event) : Twins R (c.note event) (d.note event') :=
  ⟨h.machine, h.idle, h.chunkCycles⟩

end

variable [Bus B] [Bus B'] (hR : Bus.Twins R)

include hR

lemma outcome (h : Twins R c d) : d.outcome.step = c.outcome.step ∧ d.outcome.safe = c.outcome.safe ∧
    d.outcome.core = c.outcome.core ∧ R c.outcome.bus d.outcome.bus := by
  obtain ⟨hresult, htraffic, hbus⟩ := hR.run h.bus c.core.untraced {} {} {}
  have hmode : d.clock.mode = c.clock.mode := h.machine.mode
  simp only [Outcome.step, Outcome.safe, Cpu.outcome, Core.outcome, h.core, hmode, hresult, htraffic]
  exact ⟨trivial, trivial, trivial, hbus⟩

variable {budget t t' : Nat} {k : StepKind} {m : Machine B} {m' : Machine B'} {i i' : Idle.Detector}

lemma stepped (h : Twins R c d) (hc : c.Stepped budget k t m i) (hd : d.Stepped budget k t' m' i') :
    t' = t ∧ Machine.Twins R m m' ∧ i'.uncounted = i.uncounted := by
  cases hc with
  | paused =>
    cases hd
    exact ⟨rfl, h.machine, h.idle⟩
  | @response kind _ _ _ ht =>
    obtain ⟨-, rfl, rfl, rfl⟩ := hd.of_response
    obtain ⟨hresult, -, hbus⟩ := hR.run h.bus (c.response kind) {} {} {}
    subst ht
    rw [h.response, hresult, h.core]
    exact ⟨rfl, { h.after _ hbus _ with pending := rfl }, congrArg Idle.Detector.forget h.idle⟩
  | halted =>
    cases hd
    rw [h.regs, h.core]
    exact ⟨rfl, h.after _ h.bus _, h.idle⟩
  | @skipped loop =>
    cases hd
    rw [h.regs, h.core]
    refine ⟨rfl, h.after _ h.bus _, ?_⟩
    rw [d.idle.uncounted_skip, c.idle.uncounted_skip, h.idle]
  | instruction =>
    obtain ⟨rfl, rfl, rfl⟩ := hd.of_instruction
    obtain ⟨hstep, hsafe, hcore, hbus⟩ := h.outcome hR
    have hcycles : d.outcome.cycles = c.outcome.cycles := congrArg Idle.Step.cycles hstep
    rw [hcycles, hcore]
    refine ⟨rfl, h.after _ hbus _, ?_⟩
    rw [d.idle.uncounted_observe, c.idle.uncounted_observe, h.idle, hstep, hsafe]

theorem step (h : Twins R c d) (budget : Nat) :
    (d.step budget).1 = (c.step budget).1 ∧ Twins R (c.step budget).2 (d.step budget).2 := by
  have hd := d.stepped budget
  rw [h.stepKind] at hd
  obtain ⟨ht, hmachine, hidle⟩ := h.stepped hR (c.stepped budget) hd
  exact ⟨ht, hmachine, hidle, by rw [step_chunkCycles, step_chunkCycles, h.chunkCycles]⟩

lemma steps (h : Twins R c d) (target ran fuel : Nat) :
    (d.steps target ran fuel).1 = (c.steps target ran fuel).1 ∧
      Twins R (c.steps target ran fuel).2 (d.steps target ran fuel).2 := by
  induction fuel generalizing c d ran with
  | zero => exact ⟨rfl, h⟩
  | succ fuel ih =>
    obtain ⟨ht, hstep⟩ := h.step hR (target - ran)
    rw [Cpu.steps, Cpu.steps]
    split
    · exact ⟨rfl, h⟩
    · simp only [ht]
      exact ih hstep _

lemma runFor (h : Twins R c d) (target : Nat) :
    (d.runFor target).1 = (c.runFor target).1 ∧ Twins R (c.runFor target).2 (d.runFor target).2 := by
  rw [Cpu.runFor, Cpu.runFor, h.lifecycle]
  split
  · exact ⟨rfl, h⟩
  generalize min (target + stepMargin) unbounded = limit
  obtain ⟨ht, hsteps⟩ := h.steps hR target 0 limit
  simp only [ht]
  split
  · exact ⟨rfl, hsteps.machine, hsteps.idle, hsteps.chunkCycles⟩
  · exact ⟨rfl, hsteps⟩

theorem runChunks (h : Twins R c d) (cycles chunk done : Nat) : ∃ (amounts : List Nat) (e : Cpu B) (e' : Cpu B'),
    Twins R e e' ∧ ∀ (S : Type) (hear : Nat → S → S) (s : S),
      Cpu.runChunks cycles chunk (listening hear) done c s =
        (done + amounts.sum, e, amounts.foldl (fun s ran => hear ran s) s) ∧
      Cpu.runChunks cycles chunk (listening hear) done d s =
        (done + amounts.sum, e', amounts.foldl (fun s ran => hear ran s) s) := by
  induction hn : cycles - done using Nat.strongRecOn generalizing c d done with
  | ind n ih =>
    obtain ⟨ht, hrun⟩ := h.runFor hR (min (cycles - done) chunk)
    by_cases hdone : cycles ≤ done
    · refine ⟨[], c, d, h, fun S hear s => ?_⟩
      rw [Cpu.runChunks, Cpu.runChunks, if_pos hdone, if_pos hdone]
      exact ⟨rfl, rfl⟩
    by_cases hran : (c.runFor (min (cycles - done) chunk)).1 = 0
    · refine ⟨[], _, _, hrun, fun S hear s => ?_⟩
      rw [Cpu.runChunks, Cpu.runChunks, if_neg hdone, if_neg hdone]
      simp only [ht, hran, if_true]
      exact ⟨rfl, rfl⟩
    · obtain ⟨amounts, e, e', he, hrest⟩ := ih _ (by omega) hrun (done + (c.runFor (min (cycles - done) chunk)).1) rfl
      refine ⟨(c.runFor (min (cycles - done) chunk)).1 :: amounts, e, e', he, fun S hear s => ?_⟩
      rw [Cpu.runChunks, Cpu.runChunks, if_neg hdone, if_neg hdone]
      simp only [ht, if_neg hran, listening]
      rw [List.sum_cons, ← Nat.add_assoc, List.foldl_cons]
      exact hrest S hear _

theorem run (h : Twins R c d) (cycles : Nat) :
    (d.run cycles).1 = (c.run cycles).1 ∧ Twins R (c.run cycles).2 (d.run cycles).2 := by
  obtain ⟨amounts, e, e', he, hrun⟩ := h.runChunks hR cycles (max c.chunkCycles 1) 0
  obtain ⟨hc, hd⟩ := hrun Unit (fun _ s => s) ()
  rw [run_eq, run_eq, h.chunkCycles, hc, hd]
  exact ⟨rfl, he⟩

end Twins

end Cpu

namespace HostOp

variable {B : Type} {R : B → B → Prop} {c d : Cpu B}

theorem apply_twins (op : HostOp B) (hop : ∀ b b', R b b' → R (op.onBus b) (op.onBus b')) (h : Cpu.Twins R c d) :
    Cpu.Twins R (op.apply c) (op.apply d) := by
  obtain ⟨⟨hcore, hbus, hlifecycle, hpending, hvectorByte, htotal, hmode⟩, hidle, hchunkCycles⟩ := h
  obtain ⟨core, bus, lifecycle, pending, vectorByte, total, ⟨mode, multiplier⟩, chunkCycles,
    ⟨config, history, active, burst, stats⟩, trace, log⟩ := c
  obtain ⟨core', bus', lifecycle', pending', vectorByte', total', ⟨mode', multiplier'⟩, chunkCycles',
    ⟨config', history', active', burst', stats'⟩, trace', log'⟩ := d
  cases hcore
  cases hlifecycle
  cases hpending
  cases hvectorByte
  cases htotal
  cases hmode
  cases hchunkCycles
  cases hidle
  cases op
  case start => cases lifecycle <;> exact ⟨⟨rfl, hbus, rfl, rfl, rfl, rfl, rfl⟩, rfl, rfl⟩
  case pause => cases lifecycle <;> exact ⟨⟨rfl, hbus, rfl, rfl, rfl, rfl, rfl⟩, rfl, rfl⟩
  case resume => cases lifecycle <;> exact ⟨⟨rfl, hbus, rfl, rfl, rfl, rfl, rfl⟩, rfl, rfl⟩
  case stop => cases lifecycle <;> exact ⟨⟨rfl, hbus, rfl, rfl, rfl, rfl, rfl⟩, rfl, rfl⟩
  case reset => cases lifecycle <;> exact ⟨⟨rfl, hbus, rfl, rfl, rfl, rfl, rfl⟩, rfl, rfl⟩
  case requestInterrupt kind =>
    rcases pending with _ | ⟨_ | _⟩ <;> cases kind <;> exact ⟨⟨rfl, hbus, rfl, rfl, rfl, rfl, rfl⟩, rfl, rfl⟩
  case setClockMode mode' =>
    simp only [apply, Cpu.setClockMode, Clock.setMode]
    cases mode != mode' <;> exact ⟨⟨rfl, hbus, rfl, rfl, rfl, rfl, rfl⟩, rfl, rfl⟩
  case setSpeedMultiplier x =>
    simp only [apply, Cpu.setSpeedMultiplier, Clock.setMultiplier]
    cases CpuConfig.validMultiplier x <;> exact ⟨⟨rfl, hbus, rfl, rfl, rfl, rfl, rfl⟩, rfl, rfl⟩
  case setIdleDetection on => cases on <;> exact ⟨⟨rfl, hbus, rfl, rfl, rfl, rfl, rfl⟩, rfl, rfl⟩
  case editMemory f => exact ⟨⟨rfl, hop _ _ hbus, rfl, rfl, rfl, rfl, rfl⟩, rfl, rfl⟩
  case editPorts f => exact ⟨⟨rfl, hop _ _ hbus, rfl, rfl, rfl, rfl, rfl⟩, rfl, rfl⟩
  all_goals exact ⟨⟨rfl, hbus, rfl, rfl, rfl, rfl, rfl⟩, rfl, rfl⟩

end HostOp

end Z80Machine
