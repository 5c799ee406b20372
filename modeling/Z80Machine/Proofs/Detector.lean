import Z80Machine.Proofs.Machine
import Z80Machine.Proofs.Orbit

/-! What the detector knows is true of the machine it watches: its history is the way the registers went, and its
active loop is an orbit that they are on. -/

namespace Z80Machine

open Idle

def Machine.ground {B : Type} (m : Machine B) (q : Bool) : Ground B where
  mode := m.clock.mode
  bus := m.bus
  iff2 := q

namespace Idle.Detector

variable {B : Type} [Bus B] {q : Bool} {m : Machine B} {d : Detector}

def Empty (d : Detector) : Prop :=
  d.history = [] ∧ d.active = none

structure Sound (q : Bool) (m : Machine B) (d : Detector) : Prop where
  trail : d.history.IsChain fun newer older => (m.ground q).Follows older newer
  latest : ∀ e ∈ d.history.head?, (m.ground q).mask e.after = (m.ground q).mask m.core.regs
  orbit : ∀ loop ∈ d.active, (m.ground q).Orbit ((m.ground q).mask m.core.regs) loop
  awake : d.history ≠ [] ∨ d.active ≠ none → m.core.halted = false ∧ m.core.eiDelay = false
  alone : d.active ≠ none → d.history = []
  off : d.config.enabled = false → d.Empty

lemma Empty.sound (h : d.Empty) : Sound q m d where
  trail := by simp [h.1]
  latest := by simp [h.1]
  orbit := by simp [h.2]
  awake := by simp [h.1, h.2]
  alone := by simp [h.2]
  off := fun _ => h

lemma empty_forget (d : Detector) : d.forget.Empty :=
  ⟨rfl, rfl⟩

lemma newest_of_take {newest e : Entry} {history : List Entry} {n : Nat}
    (h : e ∈ ((newest :: history).take n).head?) : e = newest := by
  rw [List.head?_take] at h
  split at h
  · cases h
  · cases h
    rfl

lemma Sound.empty_of_halted (h : Sound q m d) (hh : m.core.halted = true) : d.Empty := by
  by_cases hn : d.history ≠ [] ∨ d.active ≠ none
  · exact absurd (h.awake hn).1 (by simp [hh])
  · simpa only [Empty, ne_eq, not_or, not_not] using hn

lemma Sound.congr {m' : Machine B} {d' : Detector} (h : Sound q m d) (hm : m'.core = m.core) (hb : m'.bus = m.bus)
    (hc : m'.clock.mode = m.clock.mode) (hh : d'.history = d.history) (ha : d'.active = d.active)
    (he : d'.config.enabled = false → d'.Empty) : Sound q m' d' := by
  have hg : m'.ground q = m.ground q := by rw [Machine.ground, Machine.ground, hb, hc]
  obtain ⟨trail, latest, orbit, awake, alone, -⟩ := h
  exact ⟨by rwa [hh, hg], by rwa [hh, hg, hm], by rwa [ha, hg, hm], by rwa [hh, ha, hm], by rwa [hh, ha], he⟩

lemma Sound.settle (h : Sound q m d) (hq : m.core.regs.iff2 = q ∨ d.Empty) : Sound m.core.regs.iff2 m d := by
  rcases hq with rfl | hempty
  · exact h
  · exact hempty.sound

end Idle.Detector

open Idle.Detector

namespace Cpu

variable {B : Type} [Bus B] {q : Bool} {c : Cpu B} {budget : Nat} {k : StepKind} {t : Nat} {m : Machine B}
  {d : Detector}

lemma sound_skip {loop : Loop} {cycles : Nat} (h : Sound q c.machine c.idle) (ha : c.idle.active = some loop) :
    Sound q (c.after { c.core with regs := c.regs.refresh loop.fetches } c.bus cycles) (c.idle.skip loop).value := by
  unfold Detector.skip
  dsimp only
  split
  · have hh := h.alone (by simp [ha])
    exact ⟨by simp [hh], by simp [hh], h.orbit, h.awake, h.alone, h.off⟩
  · exact (empty_forget _).sound

lemma trail_cons (h : Sound q c.machine c.idle) (hh : c.core.halted = false) (hs : c.outcome.safe = true)
    (hq : c.outcome.instruction.op = .loadAI → q = c.regs.iff2) :
    ({ step := c.outcome.step, after := c.outcome.core.regs } :: c.idle.history).IsChain
      fun newer older => (c.machine.ground q).Follows older newer := by
  refine h.trail.cons fun e he => ?_
  obtain ⟨hstep, hnext⟩ := Ground.outcome_mask (g := c.machine.ground q) hh hs hq
  rw [Ground.Follows, h.latest e he]
  exact ⟨((c.machine.ground q).safe_mask c.core).trans hs, hstep, hnext⟩

lemma observe_unsafe (h : Sound q c.machine c.idle) (hs : c.outcome.safe = false) :
    (c.idle.observe c.outcome.step c.outcome.safe c.outcome.core.regs).value.Empty := by
  have hidle : c.idle.active = none := by
    cases ha : c.idle.active with
    | none => rfl
    | some loop =>
      have ho := h.orbit loop ha
      have hs' := ((c.machine.ground q).safe_mask c.core).symm.trans (ho.safe 0 ho.pos)
      exact absurd hs (by rw [show c.outcome.safe = true from hs']; exact Bool.noConfusion)
  rw [hs]
  unfold Detector.observe
  cases hon : c.idle.config.enabled with
  | false => simpa [hon] using h.off hon
  | true => simp [Detector.Empty, hidle]

section

variable [QuietBus B]

lemma ground_after (hs : c.outcome.safe) (cycles : Nat) :
    (c.after c.outcome.core c.outcome.bus cycles).ground q = c.machine.ground q := by
  rw [Machine.ground, Machine.ground]
  exact congrArg (Ground.mk c.clock.mode · q) (c.core.outcome_bus _ _ hs)

lemma sound_active {loop : Loop} {cycles : Nat} (h : Sound q c.machine c.idle) (ha : c.idle.active = some loop)
    (hq : c.outcome.instruction.op = .loadAI → q = c.regs.iff2) :
    Sound q (c.after c.outcome.core c.outcome.bus cycles) c.idle := by
  have ho := h.orbit loop ha
  have hh := h.alone (by simp [ha])
  have hawake := h.awake (by simp [ha])
  have hs : c.outcome.safe = true := ((c.machine.ground q).safe_mask c.core).symm.trans (ho.safe 0 ho.pos)
  have hnext := (Ground.outcome_mask (g := c.machine.ground q) hawake.1 hs hq).2
  have hg := ground_after (q := q) hs cycles
  refine ⟨by simp [hh], by simp [hh], fun loop' hl => ?_, fun _ => ?_, h.alone, h.off⟩
  · rw [ha] at hl
    cases hl
    rw [hg]
    exact hnext ▸ ho.next
  · exact ⟨(c.core.outcome_halted _ _ hs).trans hawake.1, c.core.outcome_eiDelay _ _ hs⟩

lemma sound_observe {cycles : Nat} (h : Sound q c.machine c.idle) (hh : c.core.halted = false)
    (hq : c.outcome.instruction.op = .loadAI → q = c.regs.iff2) :
    Sound q (c.after c.outcome.core c.outcome.bus cycles)
      (c.idle.observe c.outcome.step c.outcome.safe c.outcome.core.regs).value := by
  unfold Detector.observe
  split
  case isTrue hidle =>
    cases ha : c.idle.active with
    | some loop => exact sound_active h ha hq
    | none => exact (h.off (by simpa [ha] using hidle)).sound
  case isFalse hidle =>
    obtain ⟨hon, ha⟩ : c.idle.config.enabled = true ∧ c.idle.active = none := by simpa using hidle
    cases hs : c.outcome.safe with
    | false => exact Empty.sound ⟨rfl, ha⟩
    | true =>
      -- The step goes on top of a history that it follows; what falls off the bottom is not missed.
      have hg := ground_after (q := q) hs cycles
      have htrail := (trail_cons h hh hs hq).take (2 * c.idle.config.threshold)
      have hlatest : ∀ e ∈ (({ step := c.outcome.step, after := c.outcome.core.regs } :: c.idle.history).take
          (2 * c.idle.config.threshold)).head?, e.after = c.outcome.core.regs :=
        fun e he => congrArg Entry.after (newest_of_take he)
      have hawake := And.intro ((c.core.outcome_halted _ _ hs).trans hh) (c.core.outcome_eiDelay _ _ hs)
      simp only [Bool.not_true, Bool.false_eq_true, if_false]
      split
      case h_1 hfind =>
        refine ⟨by rwa [hg], fun e he => by rw [hlatest e he]; rfl, by simp [ha], fun _ => hawake, by simp [ha], ?_⟩
        simp [hon]
      case h_2 loop hfind =>
        obtain ⟨last, hlast, horbit⟩ := Ground.orbit_of_find htrail hfind
        refine ⟨by simp, by simp, fun loop' hl => ?_, fun _ => hawake, by simp, by simp [hon]⟩
        cases hl
        rw [hg]
        exact hlatest last hlast ▸ horbit

/-- Whatever kind a step is of, the detector knows nothing wrong after it. The one instruction that looks behind the
veil has to find there what it found before. -/
theorem Stepped.sound (h : c.Stepped budget k t m d) (hs : Sound q c.machine c.idle)
    (hq : k = .instruction → c.outcome.instruction.op = .loadAI → q = c.regs.iff2) : Sound q m d := by
  cases h with
  | paused => exact hs
  | response => exact (empty_forget _).sound
  -- `latest` would not survive another refresh if it were not behind the veil, but a halted detector is empty.
  | halted _ _ hh => exact (hs.empty_of_halted hh).sound
  | skipped _ _ _ hl =>
    rw [skippable?, Option.filter_eq_some_iff] at hl
    exact sound_skip hs hl.1
  | instruction _ _ hh => exact sound_observe hs hh (hq rfl)

end

def Sound (c : Cpu B) : Prop :=
  Detector.Sound c.regs.iff2 c.machine c.idle

lemma step_iff2 (hs : c.Sound) (budget : Nat) :
    (c.step budget).2.regs.iff2 = c.regs.iff2 ∨ (c.step budget).2.idle.Empty := by
  have hstep := c.stepped budget
  rw [show (c.step budget).2.regs = (c.step budget).2.machine.core.regs from rfl]
  generalize c.stepKind budget = k, (c.step budget).1 = t, (c.step budget).2.machine = m,
    (c.step budget).2.idle = d at hstep
  cases hstep with
  | paused => exact .inl rfl
  | response => exact .inr (empty_forget _)
  | halted => exact .inl rfl
  | skipped => exact .inl rfl
  | instruction =>
    cases hsafe : c.outcome.safe with
    | true => exact .inl (c.core.outcome_iff2 _ _ hsafe)
    | false =>
      have := observe_unsafe hs hsafe
      exact .inr (hsafe ▸ this)

theorem step_sound [QuietBus B] (hs : c.Sound) (budget : Nat) : (c.step budget).2.Sound :=
  ((c.stepped budget).sound hs fun _ _ => rfl).settle (step_iff2 hs budget)

end Cpu

end Z80Machine
