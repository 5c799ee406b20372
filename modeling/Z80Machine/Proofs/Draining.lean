import Z80Machine.Proofs.Contention
import Z80Machine.Proofs.Polling
import Z80Machine.Proofs.Twins
import Z80Machine.TestVector.State

/-! Idle detection over ports whose bytes are consumed. A queue gives each byte once, so a loop that reads it and is
skipped leaves bytes in the queue that the program would have taken, and can miss the one that it is waiting for. As
long as no loop that reads a port is there to be skipped, nothing tells a run with detection from one without. -/

namespace Z80Machine

open Idle

structure Tapped (B : Type) where
  bus : B
  heard : List Access := []

instance {B : Type} [Bus B] : Bus (Tapped B) where
  read t addr := ((Bus.read t.bus addr).1, { t with bus := (Bus.read t.bus addr).2 })
  write t addr byte := { t with bus := Bus.write t.bus addr byte }
  input t port := ((Bus.input t.bus port).1,
    { bus := (Bus.input t.bus port).2, heard := t.heard ++ [.input port (Bus.input t.bus port).1] })
  output t port byte := { bus := Bus.output t.bus port byte, heard := t.heard ++ [.output port byte] }
  deviceClass t addr := Bus.deviceClass t.bus addr

instance : ApartBus FlatBus where
  input b port := by
    simp only [Bus.input]
    split
    · exact .refl b
    · split
      · exact .refl b
      · exact ⟨fun _ => rfl, fun _ => rfl⟩

lemma FlatBus.run_of_asks {α : Type} (d : Dialogue α) (b : FlatBus) (log : Log) (traffic : Traffic)
    (ha : ∀ a ∈ d.accesses b, a.asks) : ∃ queue, (d.run b log traffic).bus = { b with queue } := by
  induction d generalizing b log traffic with
  | done => exact ⟨b.queue, rfl⟩
  | read addr next ih =>
    simp only [Dialogue.accesses, List.forall_mem_cons] at ha
    exact ih _ _ _ _ ha.2
  | write addr byte next ih => simp [Dialogue.accesses, Access.asks] at ha
  | input port next ih =>
    simp only [Dialogue.accesses, List.forall_mem_cons] at ha
    obtain ⟨queue, hqueue⟩ : ∃ queue, (Bus.input b port).2 = { b with queue } := by
      simp only [Bus.input]
      split
      · exact ⟨b.queue, rfl⟩
      · split <;> exact ⟨_, rfl⟩
    obtain ⟨rest, hrest⟩ := ih _ _ log traffic.atPort ha.2
    rw [hqueue] at hrest
    refine ⟨rest, ?_⟩
    simp only [Dialogue.run, hqueue]
    exact hrest
  | output port byte next ih => simp [Dialogue.accesses, Access.asks] at ha
  | note event next ih => exact ih _ _ _ ha

namespace Tapped

variable {B : Type} [Bus B]

instance [SteadyBus B] : SteadyBus (Tapped B) where
  bus_read t addr := congrArg (fun bus => ({ t with bus } : Tapped B)) (SteadyBus.bus_read t.bus addr)

instance [ApartBus B] : ApartBus (Tapped B) where
  input t port := ⟨(ApartBus.input t.bus port).peek, (ApartBus.input t.bus port).deviceClass⟩

structure Hears (r : Recorded B) (t : Tapped B) : Prop where
  bus : t.bus = r.bus
  heard : t.heard = r.accesses.toList.filter Access.isPort

lemma hears_twins : Bus.Twins (Hears (B := B)) where
  deviceClass r t h addr := congrArg (Bus.deviceClass · addr) h.bus
  read r t h addr := by
    refine ⟨congrArg (fun b => (Bus.read b addr).1) h.bus, congrArg (fun b => (Bus.read b addr).2) h.bus, ?_⟩
    simpa [Bus.read] using h.heard
  write r t h addr byte := by
    refine ⟨congrArg (Bus.write · addr byte) h.bus, ?_⟩
    simpa [Bus.write] using h.heard
  input r t h port := by
    have hbyte : (Bus.input t.bus port).1 = (Bus.input r.bus port).1 := by rw [h.bus]
    refine ⟨hbyte, congrArg (fun b => (Bus.input b port).2) h.bus, ?_⟩
    simp [Bus.input, hbyte, h.heard, List.filter_singleton]
  output r t h port byte := by
    refine ⟨congrArg (Bus.output · port byte) h.bus, ?_⟩
    simp [Bus.output, h.heard, List.filter_singleton]

end Tapped

namespace Cpu

namespace Twins

variable {B B' : Type} [Bus B] [Bus B'] {R : B → B' → Prop} {c : Cpu B} {d : Cpu B'} (hR : Bus.Twins R)

include hR

lemma runInstruction (h : Twins R c d) :
    d.runInstruction.1 = c.runInstruction.1 ∧ Twins R c.runInstruction.2 d.runInstruction.2 := by
  obtain ⟨hstep, hsafe, hcore, hbus⟩ := h.outcome hR
  obtain ⟨trace, log, hc⟩ := c.runInstruction_eq
  obtain ⟨trace', log', hd⟩ := d.runInstruction_eq
  rw [hc, hd]
  refine ⟨congrArg Idle.Step.cycles hstep, ?_, ?_, h.chunkCycles⟩
  · exact { h.machine with core := hcore, bus := hbus }
  · dsimp only
    rw [d.idle.uncounted_observe, c.idle.uncounted_observe, h.idle, hstep, hsafe, hcore]

lemma instructions (h : Twins R c d) (n : Nat) : (d.instructions n).1 = (c.instructions n).1 := by
  induction n generalizing c d with
  | zero => rfl
  | succ n ih =>
    obtain ⟨hcycles, hnext⟩ := h.runInstruction hR
    simp only [Cpu.instructions, Core.cycle_accesses, h.core, hcycles, ih hnext, hR.accesses h.bus]

lemma portless (h : Twins R c d) (hp : c.Portless) : d.Portless := by
  intro loop ha hpc
  have hactive : d.idle.active = c.idle.active := congrArg (·.active) h.idle
  rw [h.instructions hR]
  exact hp loop (hactive ▸ ha) (h.regs ▸ hpc)

end Twins

section

variable {B : Type} [Bus B] {c : Cpu B} {budget : Nat} {k : StepKind} {t : Nat} {m : Machine B} {i : Idle.Detector}

lemma Stepped.off (h : c.Stepped budget k t m i) (hoff : c.idle.Off) : i.Off := by
  cases h with
  | paused => exact hoff
  | response => exact hoff.forget
  | halted => exact hoff
  | skipped _ _ _ hs => simp [skippable?, hoff.active] at hs
  | instruction => exact hoff.observe _ _ _

lemma Takes.off {cycles chunk ran : Nat} {e : Cpu B} (h : c.Takes cycles chunk ran budget e) (hoff : c.idle.Off)
    (hc : c.Live) (hk : 0 < chunk) (hcycles : cycles < 2 ^ 64) : e.idle.Off :=
  h.induct (P := fun _ e => e.idle.Off) hc hk hcycles hoff fun _ budget e _ he => (e.stepped budget).off he

variable {B' : Type} [Bus B'] {R : B → B' → Prop} {d : Cpu B'}

structure Shadowed (R : B → B' → Prop) (d : Cpu B') (target ran : Nat) (e : Cpu B) (e' : Cpu B') : Prop where
  twins : Twins R e e'
  wary : e'.idle.Wary e'.machine
  reaches : d.machine.Reaches target ran e'.machine

variable [SteadyBus B'] [ApartBus B'] (hR : Bus.Twins R) (hl : d.lifecycle ≠ .paused)

include hR hl

lemma Shadowed.step {ran : Nat} {e : Cpu B} {e' : Cpu B'} (h : Shadowed R d ran ran e e') (hp : e.Portless)
    (hb : 0 < budget) : ∃ target ≤ ran + budget,
      Shadowed R d target (ran + (e.step budget).1) (e.step budget).2 (e'.step budget).2 := by
  have hl' := h.reaches.lifecycle hl
  have hp' := h.twins.portless hR hp
  obtain ⟨n, hn, hticks, hone⟩ := wary_ticks h.wary hp' hl' budget
  obtain ⟨near, hnear, hreach⟩ := Machine.Reaches.of_ticks hl' hb hn hticks hone
  obtain ⟨htime, hnext⟩ := h.twins.step hR budget
  rw [htime] at hreach
  refine ⟨ran + near, by omega, hnext, (e'.stepped budget).wary h.wary hp', ?_⟩
  refine h.reaches.trans (Nat.le_add_right _ _) ?_
  rwa [Nat.add_sub_cancel_left]

theorem Twins.run_reaches (h : Twins R c d) (hc : c.Live) (hd : d.idle.Wary d.machine) (n : UInt64) (hn : 0 < n.toNat)
    (hp : ∀ ran budget e, c.Takes n.toNat (max c.chunkCycles 1) ran budget e → e.Portless) :
    ∃ d', Shadowed R d n.toNat (c.run n.toNat).1 (c.run n.toNat).2 d' := by
  have hk : 0 < max c.chunkCycles 1 := by omega
  obtain ⟨ran, budget, e, htakes, -, hrun, -, hle, hge⟩ := Opens.first.last () hc hk hn n.toNat_lt
  have hbefore : ∃ e', Shadowed R d ran ran e e' := by
    refine htakes.induct (P := fun ran e => ∃ e', Shadowed R d ran ran e e') hc hk n.toNat_lt ⟨d, h, hd, .zero _⟩ ?_
    rintro ran budget e htakes ⟨e', he⟩
    obtain ⟨target, -, hnext⟩ := he.step hR hl (hp _ _ _ htakes) htakes.budget_pos
    exact ⟨_, hnext.twins, hnext.wary, hnext.reaches.exact hl⟩
  obtain ⟨e', he⟩ := hbefore
  obtain ⟨target, htarget, hnext⟩ := he.step hR hl (hp _ _ _ htakes) htakes.budget_pos
  rw [run_eq, hrun]
  exact ⟨_, hnext.twins, hnext.wary, hnext.reaches.later (by omega) hge⟩

end

variable {B : Type}

lemma machine_setIdleDetection (c : Cpu B) (on : Bool) : (c.setIdleDetection on).machine = c.machine := by
  cases on <;> rfl

lemma empty_setIdleDetection {c : Cpu B} (h : c.idle.Empty) (on : Bool) : (c.setIdleDetection on).idle.Empty := by
  cases on with
  | true => exact h
  | false => exact ⟨rfl, rfl⟩

def tapped (c : Cpu (Recorded B)) : Cpu (Tapped B) :=
  { c with bus := { bus := c.bus.bus, heard := c.bus.accesses.toList.filter Access.isPort } }

lemma twins_tapped (c : Cpu (Recorded B)) : Twins Tapped.Hears c c.tapped :=
  ⟨⟨rfl, ⟨rfl, rfl⟩, rfl, rfl, rfl, rfl, rfl⟩, rfl, rfl⟩

/-- What the host finds in the processor and what went over the ports are the same, whatever the detectors know. -/
structure Indistinct (c d : Cpu (Recorded B)) : Prop where
  core : c.core = d.core
  lifecycle : c.lifecycle = d.lifecycle
  pending : c.pending = d.pending
  total : c.total = d.total
  bus : c.bus.bus = d.bus.bus
  ports : c.bus.accesses.toList.filter Access.isPort = d.bus.accesses.toList.filter Access.isPort

lemma Indistinct.of_machine {c d : Cpu (Recorded B)} (h : c.machine = d.machine) : Indistinct c d where
  core := congrArg Machine.core h
  lifecycle := congrArg Machine.lifecycle h
  pending := congrArg Machine.pending h
  total := congrArg Machine.total h
  bus := congrArg (·.bus.bus) h
  ports := congrArg (·.bus.accesses.toList.filter Access.isPort) h

lemma Indistinct.of_twins {c d : Cpu (Recorded B)} {c' d' : Cpu (Tapped B)} (hc : Twins Tapped.Hears c c')
    (hd : Twins Tapped.Hears d d') (h : c'.machine = d'.machine) : Indistinct c d where
  core := hc.core.symm.trans ((congrArg Machine.core h).trans hd.core)
  lifecycle := hc.lifecycle.symm.trans ((congrArg Machine.lifecycle h).trans hd.lifecycle)
  pending := hc.machine.pending.symm.trans ((congrArg Machine.pending h).trans hd.machine.pending)
  total := hc.machine.total.symm.trans ((congrArg Machine.total h).trans hd.machine.total)
  bus := hc.bus.bus.symm.trans ((congrArg (·.bus.bus) h).trans hd.bus.bus)
  ports := hc.bus.heard.symm.trans ((congrArg (·.bus.heard) h).trans hd.bus.heard)

/-- Besides the registers, an instruction that the detector takes for safe changes nothing but the queue, and that only
by reading a port. A run that comes to no loop which reads a port ends alike with detection on and off, in the queue and
on the ports as in the registers and the memory. -/
theorem detection_unseen (c : Cpu (Recorded FlatBus)) (hh : c.idle.history = []) (ha : c.idle.active = none) :
    (∀ (core : Core) (mode : ClockMode) (b : FlatBus), (core.outcome mode b).safe →
      (∃ queue, (core.outcome mode b).bus = { b with queue }) ∧
      ((∀ a ∈ core.untraced.accesses b, a.isPort = false) → (core.outcome mode b).bus = b)) ∧
    ∀ n : UInt64,
      (∀ ran budget e, (c.setIdleDetection true).Takes n.toNat (max c.chunkCycles 1) ran budget e → e.Portless) →
      ((c.setIdleDetection true).run n.toNat).1 = ((c.setIdleDetection false).run n.toNat).1 ∧
      Indistinct ((c.setIdleDetection true).run n.toNat).2 ((c.setIdleDetection false).run n.toNat).2 := by
  refine ⟨fun core mode b hs => ⟨?_, fun hports => ?_⟩, fun n hp => ?_⟩
  · exact FlatBus.run_of_asks _ _ _ _ ((core.outcome_runs mode b).asks hs)
  · exact Core.outcome_bus_of_mute hs (Core.inputs_of_portless hports)
  have hempty (on : Bool) : (c.setIdleDetection on).idle.Empty := empty_setIdleDetection ⟨hh, ha⟩ on
  have hmachine : (c.setIdleDetection true).machine = (c.setIdleDetection false).machine := by
    rw [machine_setIdleDetection, machine_setIdleDetection]
  by_cases hl : c.lifecycle = .paused
  · rw [run_paused (c := c.setIdleDetection true) hl, run_paused (c := c.setIdleDetection false) hl]
    exact ⟨rfl, .of_machine hmachine⟩
  by_cases hn : n.toNat = 0
  · rw [hn, run_zero, run_zero]
    exact ⟨rfl, .of_machine hmachine⟩
  have hlive (on : Bool) : (c.setIdleDetection on).Live := ⟨by cases on <;> exact hl, (hempty on).timed⟩
  have hrun (on : Bool) (hp : ∀ ran budget e, (c.setIdleDetection on).Takes n.toNat (max c.chunkCycles 1) ran budget e →
      e.Portless) : ∃ d, Shadowed Tapped.Hears (c.setIdleDetection on).tapped n.toNat
        ((c.setIdleDetection on).run n.toNat).1 ((c.setIdleDetection on).run n.toNat).2 d :=
    (twins_tapped _).run_reaches Tapped.hears_twins (hlive on).lifecycle (hlive on) (hempty on).wary n (by omega) hp
  have hoff : (c.setIdleDetection false).idle.Off := ⟨rfl, rfl⟩
  obtain ⟨d, hd⟩ := hrun true hp
  obtain ⟨d', hd'⟩ := hrun false fun ran budget e h loop hactive => by
    have hnone := (h.off hoff (hlive false) (by omega) n.toNat_lt).active
    exact absurd hactive (by rw [hnone]; exact nofun)
  obtain ⟨hran, hsame⟩ := hd.reaches.unique hd'.reaches
  exact ⟨hran, .of_twins hd.twins hd'.twins hsame⟩

/-- `IN A,(5)`, and then `JR` on itself. The queue has two bytes. -/
def settling : Cpu (Recorded FlatBus) :=
  { bus := TestVector.bus (Ram.empty.setAll 0 [0xDB, 0x05, 0x18, 0xFE]) [7, 8] }

/-- The port is read before the loop, and what is skipped does not miss it. -/
theorem detection_unseen_settling :
    settling.idle.history = [] ∧ settling.idle.active = none ∧
      (∀ ran budget e, (settling.setIdleDetection true).Takes 83 10000 ran budget e → e.Portless) ∧
      ((settling.setIdleDetection true).run 83).1 = ((settling.setIdleDetection false).run 83).1 ∧
      Indistinct ((settling.setIdleDetection true).run 83).2 ((settling.setIdleDetection false).run 83).2 := by
  have hp (ran budget : Nat) (e : Cpu (Recorded FlatBus))
      (h : (settling.setIdleDetection true).Takes 83 10000 ran budget e) : e.Portless := by
    have hlive : (settling.setIdleDetection true).Live := ⟨nofun, Idle.Detector.Empty.timed ⟨rfl, rfl⟩⟩
    have hportless : ∀ i < 6, ((settling.setIdleDetection true).strides 83 i).2.Portless := by decide +kernel
    obtain ⟨i, hi, he⟩ := h.stride (k := 6) hlive (by decide) (by decide) (by decide) (by decide +kernel)
    have := hportless i hi
    rwa [he] at this
  exact ⟨rfl, rfl, hp, (detection_unseen settling rfl rfl).2 83 hp⟩

/-- `IN A,(5)`, `OR A` and `JR Z,0000`, as long as the queue gives zeros. -/
def polling : Cpu (Recorded FlatBus) :=
  { bus := TestVector.bus (Ram.empty.setAll 0 [0xDB, 0x05, 0xB7, 0x28, 0xFB, 0x76]) [0, 0, 1, 5] }

/-- A safe instruction may take a byte from the queue. Two rounds with zeros are enough for the detector, and then it
skips the one that would have found another byte. -/
theorem detection_seen_polling :
    polling.outcome.safe = true ∧ polling.outcome.bus.bus.queue = [0, 1, 5] ∧
      ((polling.setIdleDetection true).run 108).2.bus.bus.queue = [1, 5] ∧
      ((polling.setIdleDetection false).run 108).2.bus.bus.queue = [5] ∧
      ((polling.setIdleDetection true).run 108).2.regs.pc = 0 ∧
      ((polling.setIdleDetection false).run 108).2.regs.pc = 6 ∧
      ((polling.setIdleDetection true).run 108).2.bus.accesses.toList.filter Access.isPort =
        [.input 5 0, .input 5 0] ∧
      ((polling.setIdleDetection false).run 108).2.bus.accesses.toList.filter Access.isPort =
        [.input 5 0, .input 5 0, .input 5 1] := by
  rw [run_of_chunk (c := polling.setIdleDetection true) (by decide) (by decide) (by decide +kernel),
    run_of_chunk (c := polling.setIdleDetection false) (by decide) (by decide) (by decide +kernel)]
  decide +kernel

end Cpu

end Z80Machine
