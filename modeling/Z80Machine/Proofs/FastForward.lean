import Z80Machine.Cpu.Run
import Z80Machine.Proofs.Host

/-! Skipping an iteration of a loop is running it. A step of a processor whose detector is sound is one tick of the
machine beneath, or as many as the loop has instructions; so a run reaches what the machine alone reaches. -/

namespace Z80Machine

open Finset Idle

namespace Machine

variable {B : Type} {m : Machine B} {g : Ground B}

structure Free (m : Machine B) : Prop where
  awake : m.lifecycle.awake = m.lifecycle
  lifecycle : m.lifecycle ≠ .paused
  pending : m.cpu.pending.filter m.cpu.accepts = none
  halted : m.core.halted = false
  eiDelay : m.core.eiDelay = false

def on (m : Machine B) (g : Ground B) (y : Registers) (r : UInt8) (cycles : Nat) : Machine B :=
  { m with core := g.core y r m.core.regs.iff1, total := m.total + UInt64.ofNat cycles }

lemma Free.on (h : m.Free) (y : Registers) (r : UInt8) (cycles : Nat) : (m.on g y r cycles).Free where
  awake := h.awake
  lifecycle := h.lifecycle
  pending := by
    have ha : (m.on g y r cycles).cpu.accepts = m.cpu.accepts := by
      funext kind
      cases kind with
      | nonMaskable => rfl
      | maskable => exact congrArg (m.core.regs.iff1 && !·) h.eiDelay.symm
    rw [ha]
    exact h.pending
  halted := rfl
  eiDelay := rfl

lemma Free.on_self (h : m.Free) (hq : m.core.regs.iff2 = g.iff2) :
    m.on g (g.mask m.core.regs) m.core.regs.r 0 = m := by
  rw [Machine.on, g.core_mask h.halted h.eiDelay hq]
  exact congrArg (fun total => ({ m with total } : Machine B)) (UInt64.add_zero _)

variable [Bus B]

lemma Free.tick (h : m.Free) : m.tick = (m.cpu.outcome.cycles,
    { m with
      core := m.cpu.outcome.core, bus := m.cpu.outcome.bus
      total := m.total + UInt64.ofNat m.cpu.outcome.cycles }) := by
  have ht : m.cpu.Stepped Cpu.unbounded .instruction _ _ _ := .instruction h.lifecycle h.pending h.halted rfl
  rw [show m.tick = m.cpu.machine.tick from rfl, ht.tick fun _ => nofun, Cpu.after,
    show m.cpu.lifecycle.awake = m.lifecycle from h.awake]
  rfl

lemma tick_on (h : m.Free) (hmode : m.clock.mode = g.mode) (hbus : m.bus = g.bus) {y : Registers}
    (hy : y.iff2 = g.iff2) (hs : (g.outcome y).safe) (hq : (g.outcome y).bus = g.bus) (r : UInt8) (cycles : Nat) :
    (m.on g y r cycles).tick = ((g.outcome y).cycles,
      m.on g (g.next y) (Registers.refreshed r (g.outcome y).instruction.shape.fetches)
        (cycles + (g.outcome y).cycles)) := by
  have ho : (m.on g y r cycles).cpu.outcome = (g.core y r m.core.regs.iff1).outcome g.mode g.bus := by
    rw [← hmode, ← hbus]
    rfl
  rw [(h.on y r cycles).tick, ho, Ground.outcome_core hy hs]
  simp only [Machine.on, hq.trans hbus.symm, UInt64.ofNat_add, UInt64.add_assoc]

lemma ticks_on (h : m.Free) (hmode : m.clock.mode = g.mode) (hbus : m.bus = g.bus) (n : Nat)
    {y : Registers} (hy : y.iff2 = g.iff2) (hs : ∀ i < n, (g.outcome (g.next^[i] y)).safe = true)
    (hq : ∀ i < n, (g.outcome (g.next^[i] y)).bus = g.bus) (r : UInt8) (cycles : Nat) :
    (m.on g y r cycles).ticks n = (∑ i ∈ range n, (g.outcome (g.next^[i] y)).cycles,
      m.on g (g.next^[n] y)
        (Registers.refreshed r (∑ i ∈ range n, (g.outcome (g.next^[i] y)).instruction.shape.fetches))
        (cycles + ∑ i ∈ range n, (g.outcome (g.next^[i] y)).cycles)) := by
  induction n generalizing y r cycles with
  | zero => simp [ticks]
  | succ n ih =>
    have hs' : ∀ i < n, (g.outcome (g.next^[i] (g.next y))).safe = true := fun i hi => hs (i + 1) (by omega)
    have hq' : ∀ i < n, (g.outcome (g.next^[i] (g.next y))).bus = g.bus := fun i hi => hq (i + 1) (by omega)
    rw [ticks, tick_on h hmode hbus hy (hs 0 (by omega)) (hq 0 (by omega)), sum_range_succ', sum_range_succ']
    dsimp only
    rw [ih rfl hs' hq', Registers.refreshed_refreshed]
    simp only [Function.iterate_succ_apply, Function.iterate_zero_apply, Nat.add_assoc, Nat.add_comm]

lemma ticks_awake (m : Machine B) {n : Nat} (hn : 0 < n) :
    m.ticks n = ({ m with lifecycle := m.lifecycle.awake } : Machine B).ticks n := by
  obtain ⟨k, rfl⟩ := Nat.exists_eq_add_of_le' hn
  have ht : m.tick = ({ m with lifecycle := m.lifecycle.awake } : Machine B).tick := by
    obtain ⟨_, _, lifecycle, _, _, _, _⟩ := m
    cases lifecycle <;> rfl
  rw [ticks, ticks, ht]

theorem ticks_orbit (h : m.Free) {loop : Loop} (hmode : m.clock.mode = g.mode) (hbus : m.bus = g.bus)
    (hq : m.core.regs.iff2 = g.iff2) (ho : g.Orbit (g.mask m.core.regs) loop)
    (hb : ∀ i < loop.length, (g.outcome (g.next^[i] (g.mask m.core.regs))).bus = g.bus) :
    m.ticks loop.length = (loop.cycles, { m with
      core := { m.core with regs := m.core.regs.refresh loop.fetches }
      total := m.total + UInt64.ofNat loop.cycles }) := by
  have ht := ticks_on h hmode hbus loop.length (y := g.mask m.core.regs) rfl ho.safe hb m.core.regs.r 0
  rw [h.on_self hq, ho.cycles, ho.fetches, ho.back] at ht
  rw [ht, Machine.on, g.core_refresh h.halted h.eiDelay hq, Nat.zero_add]

end Machine

namespace Cpu

variable {B : Type} [Bus B] {c : Cpu B}

lemma orbit_ticks {loop : Loop} (hl : c.lifecycle ≠ .paused) (hp : c.pending.filter c.accepts = none)
    (hh : c.core.halted = false) (he : c.core.eiDelay = false) {g : Ground B} (hg : g = c.machine.ground c.regs.iff2)
    (ho : g.Orbit (g.mask c.regs) loop)
    (hb : ∀ i < loop.length, (g.outcome (g.next^[i] (g.mask c.regs))).bus = g.bus) :
    c.machine.ticks loop.length =
      (loop.cycles, c.after { c.core with regs := c.regs.refresh loop.fetches } c.bus loop.cycles) := by
  subst hg
  have hawake : c.lifecycle.awake.awake = c.lifecycle.awake := by
    cases c.lifecycle <;> rfl
  have free : ({ c.machine with lifecycle := c.lifecycle.awake } : Machine B).Free :=
    ⟨hawake, Lifecycle.awake_ne_paused hl, hp, hh, he⟩
  rw [Machine.ticks_awake _ ho.pos]
  exact Machine.ticks_orbit free rfl rfl rfl ho hb

lemma skip_ticks [QuietBus B] (hs : c.Sound) {loop : Loop} (hl : c.lifecycle ≠ .paused)
    (hp : c.pending.filter c.accepts = none) (ha : c.idle.active = some loop) :
    c.machine.ticks loop.length =
      (loop.cycles, c.after { c.core with regs := c.regs.refresh loop.fetches } c.bus loop.cycles) := by
  have ho := hs.orbit loop ha
  obtain ⟨hh, he⟩ := hs.awake (by simp [ha])
  exact orbit_ticks hl hp hh he rfl ho fun i hi => Core.outcome_bus _ _ _ (ho.safe i hi)

lemma ticks_of_skip (budget : Nat)
    (hskip : ∀ loop, c.pending.filter c.accepts = none → c.idle.active = some loop → 0 < loop.length ∧
      c.machine.ticks loop.length =
        (loop.cycles, c.after { c.core with regs := c.regs.refresh loop.fetches } c.bus loop.cycles)) :
    ∃ n, 0 < n ∧ c.machine.ticks n = ((c.step budget).1, (c.step budget).2.machine) ∧
      (n = 1 ∨ (c.step budget).1 ≤ budget) := by
  have hstep := c.stepped budget
  generalize c.stepKind budget = k, (c.step budget).1 = t, (c.step budget).2.machine = m,
    (c.step budget).2.idle = d at hstep
  by_cases hk : ∀ loop, k ≠ .skipped loop
  · refine ⟨1, Nat.one_pos, ?_, .inl rfl⟩
    simp only [Machine.ticks, hstep.tick hk, Nat.add_zero]
  -- Only skipping looks at the budget.
  · cases hstep with
    | skipped _ hp _ hs =>
      rw [skippable?, Option.filter_eq_some_iff, Bool.and_eq_true, decide_eq_true_eq] at hs
      obtain ⟨hpos, hticks⟩ := hskip _ hp hs.1
      exact ⟨_, hpos, hticks, .inr hs.2.2⟩
    | _ => exact absurd (by simp) hk

theorem step_ticks [QuietBus B] (hs : c.Sound) (hl : c.lifecycle ≠ .paused) (budget : Nat) :
    ∃ n, 0 < n ∧ c.machine.ticks n = ((c.step budget).1, (c.step budget).2.machine) ∧
      (n = 1 ∨ (c.step budget).1 ≤ budget) :=
  ticks_of_skip budget fun loop hp ha => ⟨(hs.orbit loop ha).pos, skip_ticks hs hl hp ha⟩

end Cpu

end Z80Machine
