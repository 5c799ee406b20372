import Z80Machine.Proofs.Reachable
import Z80Machine.Proofs.Slicing

/-! An active loop against the instructions it stands for. The detector is told of all that the host does but of one
thing: interrupts enabled or disabled from outside. Of what may stand in a loop, only `LD A,I` can tell. -/

namespace Z80Machine

open Finset Idle

/-- The processor has come to `c` before the eyes of its detector. Since the detector last knew nothing, each `LD A,I`
that was run found the second flip-flop to be one of `seen`. -/
inductive Watched {B : Type} [Bus B] : Cpu B → List Bool → Prop where
  | new (bus : B) : Watched { bus } []
  | withConfig {bus : B} {config : CpuConfig} {log : Log} {c : Cpu B} (h : Cpu.withConfig bus config log = .ok c) :
      Watched c []
  | log {c : Cpu B} {seen : List Bool} (log : Log) : Watched c seen → Watched { c with log } seen
  | host {c : Cpu B} {seen : List Bool} (op : HostOp B) : Watched c seen → Watched (op.apply c) seen
  | setInterruptEnabled {c : Cpu B} {seen : List Bool} (on : Bool) :
      Watched c seen → Watched (c.setInterruptEnabled on) seen
  | step {c : Cpu B} {seen : List Bool} (budget : Nat) : Watched c seen →
      Watched (c.step budget).2 (if c.stepKind budget = .instruction ∧ c.outcome.instruction.op = .loadAI then
        c.regs.iff2 :: seen else seen)
  | empty {c : Cpu B} {seen : List Bool} (h : c.idle.Empty) : Watched c seen → Watched c []

theorem reachable_iff_watched {B : Type} [Bus B] {c : Cpu B} : Reachable False c ↔ ∃ seen, Watched c seen := by
  constructor
  · intro h
    induction h with
    | new bus => exact ⟨_, .new bus⟩
    | withConfig h => exact ⟨_, .withConfig h⟩
    | log l _ ih => exact ih.imp fun _ => .log l
    | host op _ ih => exact ih.imp fun _ => .host op
    | setInterruptEnabled on _ ih => exact ih.imp fun _ => .setInterruptEnabled on
    | setRegs h => exact h.elim
    | step budget _ ih =>
      obtain ⟨seen, h⟩ := ih
      exact ⟨_, h.step budget⟩
  · rintro ⟨seen, h⟩
    induction h with
    | new bus => exact .new bus
    | withConfig h => exact .withConfig h
    | log l _ ih => exact ih.log l
    | host op _ ih => exact ih.host op
    | setInterruptEnabled on _ ih => exact ih.setInterruptEnabled on
    | step budget _ ih => exact ih.step budget
    | empty _ _ ih => exact ih

namespace Cpu

variable {B : Type} [Bus B] {c : Cpu B}

lemma sound_setInterruptEnabled {q : Bool} (h : Detector.Sound q c.machine c.idle) (on : Bool) :
    Detector.Sound q (c.setInterruptEnabled on).machine (c.setInterruptEnabled on).idle :=
  ⟨h.trail, h.latest, h.orbit, h.awake, h.alone, h.off⟩

def instructions (c : Cpu B) : Nat → (Nat × List Access) × Cpu B
  | 0 => ((0, []), c)
  | n + 1 =>
    let (cycles, d) := c.runInstruction
    let ((rest, accesses), e) := d.instructions n
    ((cycles + rest, (c.core.cycle c.trace).accesses c.bus ++ accesses), e)

/-- A loop is genuine if its instructions, run for real, only ask, take the time that is charged for them, and leave
everything but the refresh counter as it was. -/
structure Genuine (c : Cpu B) (loop : Loop) : Prop where
  cycles : (c.instructions loop.length).1.1 = loop.cycles
  asks : ∀ a ∈ (c.instructions loop.length).1.2, a.asks
  machine : (c.instructions loop.length).2.machine =
    { c.machine with core := { c.core with regs := c.regs.refresh loop.fetches } }

variable {g : Ground B} {m : Machine B}

lemma runInstruction_on (hmode : m.clock.mode = g.mode) (hbus : m.bus = g.bus) {y : Registers}
    (hy : y.iff2 = g.iff2) (hs : (g.outcome y).safe) (hq : (g.outcome y).bus = g.bus) {r : UInt8}
    (hc : c.machine = { m with core := g.core y r m.core.regs.iff1 }) :
    c.runInstruction.1 = (g.outcome y).cycles ∧ (∀ a ∈ (c.core.cycle c.trace).accesses c.bus, a.asks) ∧
      c.runInstruction.2.machine = { m with
        core := g.core (g.next y) (Registers.refreshed r (g.outcome y).instruction.shape.fetches)
          m.core.regs.iff1 } := by
  have hcore : c.core = g.core y r m.core.regs.iff1 := congrArg Machine.core hc
  have ho : c.outcome = (g.core y r m.core.regs.iff1).outcome g.mode g.bus := by
    rw [outcome, hcore, ← hmode, ← hbus, show c.clock = m.clock from congrArg Machine.clock hc,
      show c.bus = m.bus from congrArg Machine.bus hc]
  rw [Ground.outcome_core hy hs] at ho
  have hcycles : c.outcome.cycles = (g.outcome y).cycles := by rw [ho]
  have hinstruction : c.outcome.instruction = (g.outcome y).instruction := by rw [ho]
  have hsafe : c.outcome.safe = true := by rwa [Outcome.safe, hinstruction]
  have hafter : c.outcome.core = g.core (g.next y)
      (Registers.refreshed r (g.outcome y).instruction.shape.fetches) m.core.regs.iff1 := by rw [ho]
  have hquiet : c.outcome.bus = c.bus := by
    rw [ho]
    exact hq.trans (hbus.symm.trans (congrArg Machine.bus hc).symm)
  obtain ⟨trace, log, h⟩ := c.runInstruction_eq
  refine ⟨by rw [h, hcycles], fun a ha => ?_, ?_⟩
  · rw [c.core.cycle_accesses] at ha
    exact (c.core.outcome_runs c.clock.mode c.bus).asks hsafe a ha
  · rw [h, hafter, hquiet]
    generalize g.core (g.next y) _ _ = core
    exact congrArg (fun m : Machine B => { m with core }) hc

variable [QuietBus B]

lemma instructions_on (hmode : m.clock.mode = g.mode) (hbus : m.bus = g.bus) (n : Nat) {y : Registers}
    (hy : y.iff2 = g.iff2) (hs : ∀ i < n, (g.outcome (g.next^[i] y)).safe = true) {r : UInt8}
    (hc : c.machine = { m with core := g.core y r m.core.regs.iff1 }) :
    (c.instructions n).1.1 = ∑ i ∈ range n, (g.outcome (g.next^[i] y)).cycles ∧
      (∀ a ∈ (c.instructions n).1.2, a.asks) ∧
      (c.instructions n).2.machine = { m with
        core := g.core (g.next^[n] y)
          (Registers.refreshed r (∑ i ∈ range n, (g.outcome (g.next^[i] y)).instruction.shape.fetches))
          m.core.regs.iff1 } := by
  induction n generalizing c y r with
  | zero => simpa [instructions] using hc
  | succ n ih =>
    obtain ⟨hcycles, hasks, hnext⟩ := runInstruction_on hmode hbus hy (hs 0 (by omega))
      (Core.outcome_bus _ _ _ (hs 0 (by omega))) hc
    obtain ⟨hcycles', hasks', hmachine⟩ := ih rfl (fun i hi => hs (i + 1) (by omega)) hnext
    rw [Registers.refreshed_refreshed] at hmachine
    rw [sum_range_succ', sum_range_succ']
    refine ⟨?_, fun a ha => ?_, ?_⟩
    · simp only [instructions, hcycles, hcycles', Function.iterate_succ_apply, Function.iterate_zero_apply]
      exact Nat.add_comm _ _
    · rcases List.mem_append.mp ha with ha | ha
      · exact hasks a ha
      · exact hasks' a ha
    · simp only [Function.iterate_succ_apply, Function.iterate_zero_apply, Nat.add_comm] at hmachine ⊢
      exact hmachine

theorem instructions_orbit (hm : c.machine = m) {loop : Loop} (hmode : m.clock.mode = g.mode) (hbus : m.bus = g.bus)
    (hh : m.core.halted = false) (he : m.core.eiDelay = false) (hq : m.core.regs.iff2 = g.iff2)
    (ho : g.Orbit (g.mask m.core.regs) loop) :
    (c.instructions loop.length).1.1 = loop.cycles ∧ (∀ a ∈ (c.instructions loop.length).1.2, a.asks) ∧
      (c.instructions loop.length).2.machine =
        { m with core := { m.core with regs := m.core.regs.refresh loop.fetches } } := by
  have hc : c.machine = { m with core := g.core (g.mask m.core.regs) m.core.regs.r m.core.regs.iff1 } := by
    rw [g.core_mask hh he hq]
    exact hm
  obtain ⟨hcycles, hasks, hmachine⟩ := instructions_on hmode hbus loop.length rfl ho.safe hc
  rw [ho.cycles] at hcycles
  rw [ho.fetches, ho.back, g.core_refresh hh he hq] at hmachine
  exact ⟨hcycles, hasks, hmachine⟩

end Cpu

lemma Watched.sound {B : Type} [Bus B] [QuietBus B] {c : Cpu B} {seen : List Bool} (h : Watched c seen) {q : Bool}
    (hq : ∀ x ∈ seen, x = q) : Detector.Sound q c.machine c.idle := by
  induction h with
  | new => exact Detector.Empty.sound ⟨rfl, rfl⟩
  | withConfig h => exact (Cpu.withConfig_empty h).sound
  | log _ _ ih => exact ih hq
  | host op _ ih => exact op.apply_sound (ih hq)
  | setInterruptEnabled on _ ih => exact Cpu.sound_setInterruptEnabled (ih hq) on
  | @step c seen budget _ ih =>
    refine (c.stepped budget).sound (ih fun x hx => hq x ?_) fun hk hop => ?_
    · split
      · exact List.mem_cons_of_mem _ hx
      · exact hx
    · refine (hq _ ?_).symm
      rw [if_pos ⟨hk, hop⟩]
      exact List.mem_cons_self
  | empty h => exact h.sound

namespace Cpu

/-- Wherever a host may have brought the processor, with single steps or with runs (`Reachable.runChunked`), an active
loop is genuine if every `LD A,I` that the detector has seen found the second flip-flop as it is now. -/
theorem active_genuine {B : Type} [Bus B] [QuietBus B] (c : Cpu B) :
    (Reachable False c ↔ ∃ seen, Watched c seen) ∧
      ∀ seen loop, Watched c seen → (∀ q ∈ seen, q = c.regs.iff2) → c.idle.active = some loop → c.Genuine loop := by
  refine ⟨reachable_iff_watched, fun seen loop h hseen ha => ?_⟩
  have hs := h.sound hseen
  obtain ⟨hh, he⟩ := hs.awake (by simp [ha])
  obtain ⟨hcycles, hasks, hmachine⟩ := instructions_orbit rfl rfl rfl hh he rfl (hs.orbit loop ha)
  exact ⟨hcycles, hasks, hmachine⟩

/-- Four steps into a program that waits for interrupts to be enabled: `LD A,I` and `JP PO,0000`. -/
def waiting : Cpu Board :=
  let c : Cpu Board := { bus := Board.mapMemory (fun m => ((m.poke 0 0xED).poke 1 0x57).poke 2 0xE2) {} }
  ((((c.step unbounded).2.step unbounded).2.step unbounded).2.step unbounded).2

/-- As long as nobody enables them, it is right to go on waiting. -/
theorem active_genuine_waiting :
    (∃ seen, Watched waiting seen ∧ ∀ q ∈ seen, q = waiting.regs.iff2) ∧
      waiting.idle.active = some ⟨0, 2, 19, 3⟩ ∧ waiting.Genuine ⟨0, 2, 19, 3⟩ := by
  obtain ⟨seen, h, hseen⟩ : ∃ seen, Watched waiting seen ∧ ∀ q ∈ seen, q = waiting.regs.iff2 :=
    ⟨_, ((((Watched.new _).step unbounded).step unbounded).step unbounded).step unbounded, by decide +kernel⟩
  have ha : waiting.idle.active = some ⟨0, 2, 19, 3⟩ := by decide +kernel
  exact ⟨⟨seen, h, hseen⟩, ha, (active_genuine waiting).2 seen _ h hseen ha⟩

/-- When the host enables them, the loop stays active, and the instructions would have left it. -/
theorem active_not_genuine :
    let c := waiting.setInterruptEnabled true
    Reachable False c ∧ c.idle.active = some ⟨0, 2, 19, 3⟩ ∧ c.core.halted = false ∧ c.pending = none ∧
      c.regs.pc = 0 ∧ ¬ c.Genuine ⟨0, 2, 19, 3⟩ := by
  have h : Reachable False waiting :=
    ((((Reachable.new _).step unbounded).step unbounded).step unbounded).step unbounded
  have hpc : ((waiting.setInterruptEnabled true).instructions 2).2.regs.pc = 5 := by decide +kernel
  refine ⟨h.setInterruptEnabled true, by decide +kernel, by decide +kernel, by decide +kernel, by decide +kernel,
    fun hloop => ?_⟩
  have hback := congrArg (·.core.regs.pc) hloop.machine
  rw [show (_ : Machine Board).core.regs.pc = 5 from hpc] at hback
  revert hback
  decide +kernel

end Cpu

end Z80Machine
