import Z80Machine.Proofs.Latch

/-! Waking up. The delay behind `EI` ends when an instruction has run, and a halted processor runs none. So it matters
how the processor was halted: by an instruction of its own, or by the host right behind `EI`. -/

namespace Z80Machine

structure Machine.Stuck {B : Type} (m : Machine B) : Prop where
  halted : m.core.halted = true
  delayed : m.core.eiDelay = true
  pending : m.pending = some .maskable

namespace Cpu

variable {B : Type} [Bus B] {c d : Cpu B} {hs : List Happening}

lemma Stepped.stuck {budget t : Nat} {k : StepKind} {m : Machine B} {i : Idle.Detector}
    (h : d.Stepped budget k t m i) (hd : d.machine.Stuck) : m.Stuck := by
  obtain ⟨hhalted, hdelayed, hpending⟩ := hd
  change d.core.halted = true at hhalted
  change d.core.eiDelay = true at hdelayed
  change d.pending = some .maskable at hpending
  cases h with
  | paused => exact ⟨hhalted, hdelayed, hpending⟩
  | response _ hp =>
    have haccepts := (Option.filter_eq_some_iff.mp hp)
    rw [hpending] at haccepts
    obtain ⟨rfl, haccepts⟩ := haccepts.imp_left Option.some.inj
    simp [accepts, hdelayed] at haccepts
  | halted => exact ⟨hhalted, hdelayed, hpending⟩
  | skipped _ _ hh =>
    rw [hh] at hhalted
    contradiction
  | instruction _ _ hh =>
    rw [hh] at hhalted
    contradiction

theorem stuck_run (hd : d.machine.Stuck) (cycles : Nat) : (d.run cycles).2.machine.Stuck :=
  run_closed (P := fun e => e.machine.Stuck) (fun e budget h => (e.stepped budget).stuck h) (fun _ _ h => h) hd cycles

/-- An enabled interrupt wakes a halted processor, wherever single steps or runs (`Course.runChunked`) have brought it,
unless `EI` was the last thing it ran: then it never does. -/
theorem wakes (d : Cpu B) :
    (Reachable True d ↔ ∃ c hs, Fresh c ∧ Course c hs d) ∧
      ∀ c hs, Fresh c → Course c hs d → d.lifecycle ≠ .paused → d.core.halted = true → d.regs.iff1 = true →
        d.pending = some .maskable →
        (lastRun hs ≠ some .ei → ∀ budget, d.stepKind budget = .response .maskable ∧
          (d.step budget).2.core.halted = false ∧ (d.step budget).2.pending = none) ∧
        (lastRun hs = some .ei → ∀ cycles,
          (d.run cycles).2.core.halted = true ∧ (d.run cycles).2.pending = some .maskable) := by
  refine ⟨by simp [reachable_iff_course], fun c hs hc h hl hh hiff1 hp => ⟨fun hlast budget => ?_, fun hlast cycles => ?_⟩⟩
  · have hdelay : d.core.eiDelay = false := h.not_delayed (by rw [hc.core]) hlast
    have haccepts : d.accepts .maskable = true := by simp [accepts, hiff1, hdelay]
    have hkind : d.stepKind budget = .response .maskable := stepKind_response_iff.mpr ⟨hl, hp, haccepts⟩
    obtain ⟨hpending, hhalted, -⟩ := after_response hkind
    exact ⟨hkind, hhalted, hpending⟩
  · have hstuck : d.machine.Stuck := ⟨hh, h.delayed hlast, hp⟩
    have hrun := stuck_run hstuck cycles
    exact ⟨hrun.halted, hrun.pending⟩

theorem wakes_halted :
    let c : Cpu Board := { bus := Board.mapMemory (fun m => (m.poke 0 0xFB).poke 1 0x76) {} }
    let d := ((c.step unbounded).2.step unbounded).2.requestInterrupt .maskable
    let hs : List Happening := [.requested .maskable, .executed .halt, .executed .ei]
    Fresh c ∧ Course c hs d ∧ d.lifecycle ≠ .paused ∧ d.core.halted = true ∧ d.regs.iff1 = true ∧
      d.pending = some .maskable ∧ lastRun hs ≠ some .ei ∧ d.stepKind unbounded = .response .maskable ∧
      (d.step unbounded).2.core.halted = false := by
  intro c d hs
  have h : Course c hs d := by
    have hei : c.happening (c.stepKind unbounded) = some (.executed .ei) := by decide +kernel
    have hhalt : (c.step unbounded).2.happening ((c.step unbounded).2.stepKind unbounded) = some (.executed .halt) := by
      decide +kernel
    exact ((Course.rest.step hei).step hhalt).move (.host (.requestInterrupt .maskable))
  have hl : d.lifecycle ≠ .paused := by decide +kernel
  have hh : d.core.halted = true := by decide +kernel
  have hiff1 : d.regs.iff1 = true := by decide +kernel
  have hp : d.pending = some .maskable := by decide +kernel
  obtain ⟨hwakes, -⟩ := (wakes d).2 c hs (.new _) h hl hh hiff1 hp
  obtain ⟨hkind, hawake, -⟩ := hwakes (by decide) unbounded
  exact ⟨.new _, h, hl, hh, hiff1, hp, by decide, hkind, hawake⟩

/-- Halted by the host behind `EI`, the processor stays so, though interrupts are enabled and one is pending. -/
theorem never_wakes :
    let c : Cpu Board := { bus := Board.mapMemory (·.poke 0 0xFB) {} }
    let d := (c.step unbounded).2.halt.requestInterrupt .maskable
    Reachable True d ∧ d.lifecycle ≠ .paused ∧ d.core.halted = true ∧ d.regs.iff1 = true ∧
      d.pending = some .maskable ∧ d.stepKind unbounded = .halted ∧ (d.step unbounded).2.core.halted = true ∧
      ∀ cycles, (d.run cycles).2.core.halted = true ∧ (d.run cycles).2.pending = some .maskable := by
  intro c d
  have h : Reachable True d := (((Reachable.new _).step unbounded).host .halt).host (.requestInterrupt .maskable)
  have hstuck : d.machine.Stuck := ⟨by decide +kernel, by decide +kernel, by decide +kernel⟩
  exact ⟨h, by decide +kernel, hstuck.halted, by decide +kernel, hstuck.pending, by decide +kernel, by decide +kernel,
    fun cycles => ⟨(stuck_run hstuck cycles).halted, (stuck_run hstuck cycles).pending⟩⟩

end Cpu

end Z80Machine
