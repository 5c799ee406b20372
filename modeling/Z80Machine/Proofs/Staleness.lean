import Z80Machine.Board
import Z80Machine.Proofs.Deeds
import Z80Machine.Proofs.Reachable

/-! How long a loop may be skipped without another look. However the host, the program and the detector's own operations
take turns, a burst comes to its end, and behind it all of two rounds is run before anything is skipped again. -/

namespace Z80Machine

open Idle Detector

namespace Idle.Detector

structure Bounded (ds : List Deed) (d : Detector) : Prop where
  threshold : 2 ≤ d.config.threshold ∧ d.config.threshold ≤ 10
  sleep : d.config.sleepMicros = 0 ∨ 100 ≤ d.config.sleepMicros
  history : d.history.length ≤ 2 * d.config.threshold
  active : ∀ loop ∈ d.active, d.config.enabled = true ∧ d.history = [] ∧
    (2 ≤ loop.length ∧ loop.length ≤ d.config.threshold) ∧
    ∃ n < burstLimit, ∃ older, ds = List.replicate n (.skipped loop) ++ .found loop :: older
  burst : ∀ new mid old, ds = new ++ mid ++ old → (∀ x ∈ mid, x.isFound = false) → mid.countP Deed.isSkip ≤ burstLimit
  renewed : ∀ new loop' mid loop old, ds = new ++ .skipped loop' :: (mid ++ .skipped loop :: old) →
    loop' = loop ∧ (∀ x ∈ mid, x.isFound = false) ∨ 2 * loop'.length ≤ mid.count .noted
  loops : d.stats.loops = ds.countP Deed.isFound
  iterations : d.stats.iterations = ds.countP Deed.isSkip
  cycles : d.stats.cycles = (ds.map Deed.saved).sum

lemma Tracked.bounded {ds : List Deed} {d : Detector} (h : Tracked ds d) : Bounded ds d where
  threshold := h.config.threshold
  sleep := h.config.sleep
  history := h.room
  active := by
    intro loop ha
    obtain ⟨⟨hon, hhistory, hlength⟩, hburst, older, hback⟩ := h.active loop ha
    rw [List.append_assoc, List.singleton_append] at hback
    exact ⟨hon, hhistory, hlength, d.burst, hburst, older, hback.symm⟩
  burst := by
    rintro new mid old rfl hmid
    have horderly := h.orderly
    rw [List.append_assoc] at horderly
    exact horderly.of_append.countP_isSkip hmid
  renewed := by
    rintro new loop' mid loop old rfl
    exact h.orderly.of_append.renewed
  loops := h.loops
  iterations := h.iterations
  cycles := h.cycles

end Idle.Detector

namespace HostOp

variable {B : Type}

lemma tracked_apply {c : Cpu B} {ds : List Deed} (h : Tracked ds c.idle) (op : HostOp B) :
    Tracked ds (op.apply c).idle := by
  cases op
  case start =>
    simp only [apply, Cpu.start]
    split
    · exact h.forget
    · exact h
  case pause =>
    simp only [apply, Cpu.pause]
    split <;> exact h
  case resume =>
    simp only [apply, Cpu.resume]
    split <;> exact h
  case stop =>
    simp only [apply, Cpu.stop]
    split <;> exact h
  case reset =>
    simp only [apply, Cpu.reset, Cpu.stop]
    split <;> exact h.forget
  case requestInterrupt kind =>
    rw [apply, Cpu.idle_requestInterrupt]
    exact h.forget
  case setClockMode mode =>
    simp only [apply, Cpu.setClockMode, Clock.setMode]
    cases c.clock.mode != mode with
    | false => exact h
    | true => exact h.forget
  case setSpeedMultiplier x =>
    simp only [apply, Cpu.setSpeedMultiplier, Clock.setMultiplier]
    split
    case h_1 c' hc =>
      split at hc <;> cases hc
      exact h
    case h_2 => exact h
  case setIdleDetection on => exact h.setEnabled on
  case setIdleThreshold n => exact h.tell (.setThreshold n)
  case setIdleSleep micros => exact h.setSleepMicros micros
  case setVectorByte byte => exact h
  case setTrace on maxEntries => exact h
  all_goals exact h.forget

end HostOp

namespace Cpu

variable {B : Type} [Bus B]

def deeds (c : Cpu B) : StepKind → List Deed
  | .skipped loop => [.skipped loop]
  | .instruction => c.idle.deeds (.observe c.outcome.step c.outcome.safe c.outcome.core.regs)
  | _ => []

/-- Any sequence of steps, of what the host may do, and of the detector's own operations, with its deeds. -/
inductive Chronicle (c : Cpu B) : List Deed → Cpu B → Prop where
  | rest : Chronicle c [] c
  | log {ds : List Deed} {d : Cpu B} (log : Log) : Chronicle c ds d → Chronicle c ds { d with log }
  | host {ds : List Deed} {d : Cpu B} (op : HostOp B) : Chronicle c ds d → Chronicle c ds (op.apply d)
  | setInterruptEnabled {ds : List Deed} {d : Cpu B} (on : Bool) : Chronicle c ds d →
      Chronicle c ds (d.setInterruptEnabled on)
  | setRegs {ds : List Deed} {d : Cpu B} (regs : Registers) : Chronicle c ds d → Chronicle c ds (d.setRegs regs)
  | call {ds : List Deed} {d : Cpu B} (x : Call) : Chronicle c ds d →
      Chronicle c (d.idle.deeds x ++ ds) { d with idle := d.idle.tell x }
  | step {ds : List Deed} {d : Cpu B} (budget : Nat) : Chronicle c ds d →
      Chronicle c (d.deeds (d.stepKind budget) ++ ds) (d.step budget).2

variable {c d : Cpu B} {ds : List Deed}

lemma Stepped.tracked {budget t : Nat} {k : StepKind} {m : Machine B} {i : Detector} (h : c.Stepped budget k t m i)
    (hi : Tracked ds c.idle) : Tracked (c.deeds k ++ ds) i := by
  cases h with
  | paused => exact hi
  | response => exact hi.forget
  | halted => exact hi
  | skipped _ _ _ hs => exact hi.skip (Option.filter_eq_some_iff.mp hs).1
  | instruction => exact hi.observe _ _ _

lemma Chronicle.tracked (h : Chronicle c ds d) {config : IdleConfig} (hc : c.idle = .ofConfig config) :
    Tracked ds d.idle := by
  induction h with
  | rest =>
    rw [hc]
    exact tracked_ofConfig config
  | log _ _ ih => exact ih
  | host op _ ih => exact HostOp.tracked_apply ih op
  | setInterruptEnabled _ _ ih => exact ih
  | setRegs _ _ ih => exact ih
  | call x _ ih => exact ih.tell x
  | @step _ d budget _ ih => exact (d.stepped budget).tracked ih

/-- From any configuration on, whatever happens: a loop is skipped so often at most before it is found again, and it is
found only in what has been run since. -/
theorem bursts_bounded {config : IdleConfig} (hc : c.idle = .ofConfig config) (h : Chronicle c ds d) :
    Bounded ds d.idle :=
  (h.tracked hc).bounded

def turning : Cpu Board where
  bus := Board.mapMemory (fun m => (m.poke 1 0x18).poke 2 0xFD) {}
  idle := .ofConfig { threshold := 1, sleepMicros := 7 }

/-- The loop is found, skipped twice, given up for another threshold, and found and skipped again. -/
theorem bursts_bounded_turning :
    let around : Loop := ⟨0, 2, 16, 2⟩
    let ds : List Deed := [.skipped around, .found around, .noted, .noted, .noted, .noted, .skipped around,
      .skipped around, .found around, .noted, .noted, .noted, .noted]
    turning.idle = .ofConfig { threshold := 1, sleepMicros := 7 } ∧
      ∃ d, turning.Chronicle ds d ∧ Bounded ds d.idle ∧ d.idle.stats = ⟨2, 3, 48⟩ := by
  intro around ds
  have step {c d : Cpu Board} {ds : List Deed} (new : List Deed) (h : c.Chronicle ds d)
      (hnew : d.deeds (d.stepKind unbounded) = new) : c.Chronicle (new ++ ds) (d.step unbounded).2 :=
    hnew ▸ h.step unbounded
  have hfound := step [.found around, .noted] (step [.noted] (step [.noted] (step [.noted] (.rest (c := turning))
    (by decide +kernel)) (by decide +kernel)) (by decide +kernel)) (by decide +kernel)
  have hskipped := step [.skipped around] (step [.skipped around] hfound (by decide +kernel)) (by decide +kernel)
  have hgiven := hskipped.host (.setIdleThreshold 3)
  have hagain := step [.found around, .noted] (step [.noted] (step [.noted] (step [.noted] hgiven
    (by decide +kernel)) (by decide +kernel)) (by decide +kernel)) (by decide +kernel)
  have h := step [.skipped around] hagain (by decide +kernel)
  exact ⟨rfl, _, h, bursts_bounded rfl h, by decide +kernel⟩

end Cpu

lemma Cpu.withConfig_idle {B : Type} {bus : B} {config : CpuConfig} {log : Log} {c : Cpu B}
    (h : withConfig bus config log = .ok c) : ∃ config, c.idle = .ofConfig config := by
  simp only [withConfig, bind, Except.bind] at h
  cases hv : config.validated with
  | error => simp [hv] at h
  | ok config =>
    rw [hv] at h
    cases h
    exact ⟨config.idle, rfl⟩

lemma Reachable.tracked {B : Type} [Bus B] {writes : Prop} {c : Cpu B} (h : Reachable writes c) :
    ∃ ds, Detector.Tracked ds c.idle := by
  induction h with
  | new => exact ⟨[], Detector.tracked_ofConfig {}⟩
  | withConfig h =>
    obtain ⟨config, hidle⟩ := Cpu.withConfig_idle h
    exact ⟨[], hidle ▸ Detector.tracked_ofConfig config⟩
  | log _ _ ih => exact ih
  | host op _ ih =>
    obtain ⟨ds, ih⟩ := ih
    exact ⟨ds, HostOp.tracked_apply ih op⟩
  | setInterruptEnabled _ _ ih => exact ih
  | setRegs _ _ _ ih => exact ih
  | @step c budget _ ih =>
    obtain ⟨ds, ih⟩ := ih
    exact ⟨_, (c.stepped budget).tracked ih⟩

end Z80Machine
