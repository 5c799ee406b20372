import Z80Machine.Proofs.Reachable
import Z80Machine.Proofs.Slicing

/-! The time of a run, on any bus and with registers set at will. The detector need not be right for it: it is enough
that the loops it knows take time. -/

namespace Z80Machine

open Idle

namespace Idle.Detector

variable {d : Detector}

structure Timed (d : Detector) : Prop where
  history : ∀ e ∈ d.history, 0 < e.step.cycles
  active : ∀ loop ∈ d.active, 0 < loop.cycles

lemma Empty.timed (h : d.Empty) : d.Timed :=
  ⟨by simp [h.1], by simp [h.2]⟩

lemma Timed.congr {d' : Detector} (h : d.Timed) (hh : d'.history = d.history) (ha : d'.active = d.active) :
    d'.Timed :=
  ⟨by rw [hh]; exact h.history, by rw [ha]; exact h.active⟩

lemma cycles_of_find {history : List Entry} {threshold : Nat} {loop : Loop}
    (hh : ∀ e ∈ history, 0 < e.step.cycles) (h : find? history threshold = some loop) : 0 < loop.cycles := by
  obtain ⟨n, hn, -, last, hlast, rfl⟩ := find_eq_some h
  obtain ⟨k, rfl⟩ := Nat.exists_eq_add_of_le' (Nat.le_of_succ_le hn)
  match history, hlast with
  | e :: older, rfl =>
    have := hh e List.mem_cons_self
    simp only [loopOf_cycles, List.take_succ_cons, List.map_cons, List.sum_cons]
    omega

lemma Timed.skip (h : d.Timed) (loop : Loop) : (d.skip loop).value.Timed := by
  unfold Detector.skip
  dsimp only
  split
  · exact h.congr rfl rfl
  · exact (empty_forget _).timed

lemma Timed.observe (h : d.Timed) {step : Step} (hs : 0 < step.cycles) (safe : Bool) (after : Registers) :
    (d.observe step safe after).value.Timed := by
  unfold Detector.observe
  split
  · exact h
  split
  · exact ⟨by simp, h.active⟩
  have hh : ∀ e ∈ ({ step, after } :: d.history).take (2 * d.config.threshold), 0 < e.step.cycles := by
    intro e he
    rcases List.mem_cons.mp (List.mem_of_mem_take he) with rfl | he
    · exact hs
    · exact h.history e he
  dsimp only
  split
  case h_1 => exact ⟨hh, h.active⟩
  case h_2 loop hfind =>
    refine ⟨by simp, fun loop' hl => ?_⟩
    cases hl
    exact cycles_of_find hh hfind

end Idle.Detector

namespace Cpu

variable {B : Type} [Bus B] {c d : Cpu B} {budget : Nat}

lemma Stepped.timed {k : StepKind} {t : Nat} {m : Machine B} {d : Detector} (h : c.Stepped budget k t m d)
    (ht : c.idle.Timed) : d.Timed := by
  cases h with
  | paused => exact ht
  | response => exact (Detector.empty_forget _).timed
  | halted => exact ht
  | skipped => exact ht.skip _
  | instruction => exact ht.observe (Nat.lt_of_lt_of_le (by decide) (c.core.outcome_time _ _)) _ _

structure Live (c : Cpu B) : Prop where
  lifecycle : c.lifecycle ≠ .paused
  timed : c.idle.Timed

lemma Live.step (h : c.Live) (budget : Nat) : (c.step budget).2.Live :=
  ⟨(c.stepped budget).lifecycle h.lifecycle, (c.stepped budget).timed h.timed⟩

lemma Live.step_time (h : c.Live) (budget : Nat) : 0 < (c.step budget).1 ∧
    ((∃ loop, c.stepKind budget = .skipped loop) ∧ (c.step budget).1 ≤ budget ∨
      (∀ loop, c.stepKind budget ≠ .skipped loop) ∧ (c.step budget).1 ≤ 29) := by
  have hstep := c.stepped budget
  generalize c.stepKind budget = k, (c.step budget).1 = t, (c.step budget).2.machine = m,
    (c.step budget).2.idle = d at hstep
  by_cases hk : ∀ loop, k ≠ .skipped loop
  · obtain ⟨hpos, hle⟩ := hstep.time h.lifecycle hk
    exact ⟨by omega, .inr ⟨hk, hle⟩⟩
  · cases hstep with
    | skipped _ _ _ hs =>
      rw [skippable?, Option.filter_eq_some_iff, Bool.and_eq_true, decide_eq_true_eq] at hs
      exact ⟨h.timed.active _ hs.1, .inl ⟨⟨_, rfl⟩, hs.2.2⟩⟩
    | _ => exact absurd (by simp) hk

/-! The course of a run -/

inductive Passes (target : Nat) (c : Cpu B) : Nat → Cpu B → Prop where
  | start : Passes target c 0 c
  | step {ran : Nat} {d : Cpu B} (h : Passes target c ran d) (hlt : ran < target) :
      Passes target c (ran + (d.step (target - ran)).1) (d.step (target - ran)).2

/-- A run of `cycles` T-states that begins in `c` begins its chunks in these states, after so many T-states. -/
inductive Opens (cycles chunk : Nat) (c : Cpu B) : Nat → Cpu B → Prop where
  | first : Opens cycles chunk c 0 c
  | next {done : Nat} {d : Cpu B} (h : Opens cycles chunk c done d) (hlt : done < cycles)
      (hran : (d.runFor (min (cycles - done) chunk)).1 ≠ 0) :
      Opens cycles chunk c (done + (d.runFor (min (cycles - done) chunk)).1) (d.runFor (min (cycles - done) chunk)).2

inductive Takes (cycles chunk : Nat) (c : Cpu B) : (ran budget : Nat) → (e : Cpu B) → Prop where
  | intro {done before : Nat} {d e : Cpu B} (ho : c.Opens cycles chunk done d) (hlt : done < cycles)
      (hp : d.Passes (min (cycles - done) chunk) before e) (hb : before < min (cycles - done) chunk) :
      Takes cycles chunk c (done + before) (min (cycles - done) chunk - before) e

def Completes (c : Cpu B) (target : Nat) : Prop :=
  target ≤ (c.steps target 0 (min (target + stepMargin) unbounded)).1

lemma steps_of_le {target ran : Nat} (h : target ≤ ran) (fuel : Nat) : d.steps target ran fuel = (ran, d) := by
  cases fuel with
  | zero => rfl
  | succ fuel => rw [steps, if_pos h]

lemma Passes.last {target ran fuel : Nat} (h : c.Passes target ran d) (hd : d.Live) (hlt : ran < target)
    (hf : target ≤ ran + fuel) : ∃ before e, c.Passes target before e ∧ e.Live ∧ before < target ∧
      d.steps target ran fuel = (before + (e.step (target - before)).1, (e.step (target - before)).2) ∧
      target ≤ before + (e.step (target - before)).1 := by
  induction fuel generalizing d ran with
  | zero => omega
  | succ fuel ih =>
    have hpos := (hd.step_time (target - ran)).1
    rw [steps, if_neg (Nat.not_le.mpr hlt)]
    dsimp only
    rcases Nat.lt_or_ge (ran + (d.step (target - ran)).1) target with hlt' | hge
    · exact ih (h.step hlt) (hd.step _) hlt' (by omega)
    · exact ⟨ran, d, h, hd, hlt, steps_of_le hge fuel, hge⟩

lemma Live.runFor_last (h : c.Live) (target : Nat) (hpos : 0 < target) (ht : target < 2 ^ 64) :
    c.Completes target ∧ ∃ before e, c.Passes target before e ∧ e.Live ∧ before < target ∧
      c.runFor target = (before + (e.step (target - before)).1, (e.step (target - before)).2) ∧
      target ≤ before + (e.step (target - before)).1 := by
  have hf : target ≤ 0 + min (target + stepMargin) unbounded := by
    simp only [unbounded]
    omega
  obtain ⟨before, e, hp, he, hlt, hsteps, hle⟩ := Passes.start.last h hpos hf
  refine ⟨?_, before, e, hp, he, hlt, runFor_of_steps h.lifecycle hsteps hle, hle⟩
  rw [Completes, hsteps]
  exact hle

lemma Live.runFor (h : c.Live) (target : Nat) : (c.runFor target).2.Live :=
  runFor_closed (fun _ budget h => h.step budget) (fun _ _ h => ⟨h.lifecycle, h.timed⟩) h target

lemma Opens.live {cycles chunk done : Nat} (h : c.Opens cycles chunk done d) (hc : c.Live) : d.Live := by
  induction h with
  | first => exact hc
  | next _ _ _ ih => exact ih.runFor _

lemma Opens.last {S : Type} (s : S) {cycles chunk done : Nat} (h : c.Opens cycles chunk done d) (hc : c.Live)
    (hk : 0 < chunk) (hlt : done < cycles) (hcycles : cycles < 2 ^ 64) :
    ∃ ran budget e, c.Takes cycles chunk ran budget e ∧ e.Live ∧
      runChunks cycles chunk (listening fun _ s => s) done d s = (ran + (e.step budget).1, (e.step budget).2, s) ∧
      ran < cycles ∧ ran + budget ≤ cycles ∧ cycles ≤ ran + (e.step budget).1 := by
  induction hn : cycles - done using Nat.strongRecOn generalizing d done with
  | ind n ih =>
    obtain ⟨-, before, e, hp, he, hb, hrun, hle⟩ := (h.live hc).runFor_last (min (cycles - done) chunk)
      (by omega) (by omega)
    have hran : (d.runFor (min (cycles - done) chunk)).1 ≠ 0 := by
      rw [hrun]
      dsimp only
      omega
    have hnext := h.next hlt hran
    rw [runChunks, if_neg (Nat.not_le.mpr hlt)]
    dsimp only
    rw [if_neg hran]
    simp only [listening, hrun] at hnext hran ⊢
    generalize hbudget : min (cycles - done) chunk - before = budget at *
    -- The last step of the chunk is that of the run, or there is a chunk to come.
    rcases Nat.lt_or_ge (done + (before + (e.step budget).1)) cycles with hlt' | hge
    · exact ih _ (by omega) hnext hlt' rfl
    · refine ⟨done + before, budget, e, hbudget ▸ .intro h hlt hp hb, he, ?_, by omega, by omega, by omega⟩
      rw [runChunks, if_pos hge, Nat.add_assoc]

lemma Passes.total {target ran : Nat} (h : c.Passes target ran d) : d.total = c.total + UInt64.ofNat ran := by
  induction h with
  | start => exact (UInt64.add_zero _).symm
  | @step ran d _ _ ih =>
    have ht : (d.step (target - ran)).2.total = d.total + UInt64.ofNat (d.step (target - ran)).1 :=
      (d.stepped (target - ran)).total
    rw [ht, ih, UInt64.ofNat_add, UInt64.add_assoc]

lemma Opens.total {cycles chunk done : Nat} (h : c.Opens cycles chunk done d) (hc : c.Live) (hk : 0 < chunk)
    (hcycles : cycles < 2 ^ 64) : d.total = c.total + UInt64.ofNat done := by
  induction h with
  | first => exact (UInt64.add_zero _).symm
  | @next done d h hlt _ ih =>
    obtain ⟨-, before, e, hp, -, hb, hrun, -⟩ := (h.live hc).runFor_last (min (cycles - done) chunk)
      (by omega) (by omega)
    rw [hrun, (hp.step hb).total, ih, UInt64.add_assoc, ← UInt64.ofNat_add]

lemma Takes.total {cycles chunk ran : Nat} (h : c.Takes cycles chunk ran budget d) (hc : c.Live) (hk : 0 < chunk)
    (hcycles : cycles < 2 ^ 64) :
    (d.step budget).2.total = c.total + UInt64.ofNat (ran + (d.step budget).1) := by
  cases h with
  | intro ho _ hp hb => rw [(hp.step hb).total, ho.total hc hk hcycles, UInt64.add_assoc, ← UInt64.ofNat_add,
      Nat.add_assoc]

lemma Takes.budget_pos {cycles chunk ran : Nat} (h : c.Takes cycles chunk ran budget d) : 0 < budget := by
  cases h with
  | intro _ _ _ hb => omega

theorem Takes.induct {P : Nat → Cpu B → Prop} {cycles chunk : Nat} (hc : c.Live) (hk : 0 < chunk)
    (hcycles : cycles < 2 ^ 64) (hfirst : P 0 c)
    (hstep : ∀ ran budget e, c.Takes cycles chunk ran budget e → P ran e →
      P (ran + (e.step budget).1) (e.step budget).2)
    {ran : Nat} (h : c.Takes cycles chunk ran budget d) : P ran d := by
  have passes {done before : Nat} {e f : Cpu B} (ho : c.Opens cycles chunk done e) (hlt : done < cycles)
      (he : P done e) (hp : e.Passes (min (cycles - done) chunk) before f) : P (done + before) f := by
    induction hp with
    | start => exact he
    | step hp hb ih =>
      rw [← Nat.add_assoc]
      exact hstep _ _ _ (.intro ho hlt hp hb) ih
  have opens {done : Nat} {e : Cpu B} (ho : c.Opens cycles chunk done e) : P done e := by
    induction ho with
    | first => exact hfirst
    | @next done e ho hlt _ ih =>
      obtain ⟨-, before, f, hp, -, hb, hrun, -⟩ := (ho.live hc).runFor_last (min (cycles - done) chunk)
        (by omega) (by omega)
      rw [hrun]
      exact passes ho hlt ih (hp.step hb)
  cases h with
  | intro ho hlt hp _ => exact passes ho hlt (opens ho) hp

lemma Takes.undivided {cycles chunk ran : Nat} (h : c.Takes cycles chunk ran budget d) (hc : c.Live)
    (hle : cycles ≤ chunk) (hcycles : cycles < 2 ^ 64) : ran < cycles ∧ budget = cycles - ran := by
  cases h with
  | intro ho hlt hp hb =>
    cases ho with
    | first => omega
    | @next done e ho hlt' _ =>
      -- A second chunk would begin where the first one had not come to the end.
      obtain ⟨-, before, f, -, -, -, hrun, hge⟩ := (ho.live hc).runFor_last (min (cycles - done) chunk)
        (by omega) (by omega)
      have hran := congrArg Prod.fst hrun
      dsimp only at hran
      omega

def strides (target : Nat) (c : Cpu B) : Nat → Nat × Cpu B
  | 0 => (0, c)
  | k + 1 =>
    let (ran, d) := strides target c k
    (ran + (d.step (target - ran)).1, (d.step (target - ran)).2)

lemma strides_mono (target : Nat) (c : Cpu B) {j k : Nat} (h : j ≤ k) :
    (c.strides target j).1 ≤ (c.strides target k).1 := by
  induction h with
  | refl => exact Nat.le_refl _
  | step _ ih => exact Nat.le_trans ih (Nat.le_add_right _ _)

lemma Takes.stride {cycles chunk ran k : Nat} (h : c.Takes cycles chunk ran budget d)
    (hc : c.Live) (hpos : 0 < cycles) (hle : cycles ≤ chunk) (hcycles : cycles < 2 ^ 64)
    (hk : cycles ≤ (c.strides cycles k).1) : ∃ i < k, c.strides cycles i = (ran, d) := by
  have hstride : ∃ i, c.strides cycles i = (ran, d) := by
    refine h.induct (P := fun ran e => ∃ i, c.strides cycles i = (ran, e)) hc (by omega) hcycles ⟨0, rfl⟩ ?_
    rintro ran budget e h ⟨i, hi⟩
    obtain ⟨-, rfl⟩ := h.undivided hc hle hcycles
    exact ⟨i + 1, by rw [strides, hi]⟩
  obtain ⟨i, hi⟩ := hstride
  have hlt := (h.undivided hc hle hcycles).1
  refine ⟨i, Nat.lt_of_not_le fun hki => ?_, hi⟩
  have hmono := c.strides_mono cycles hki
  rw [hi] at hmono
  dsimp only at hmono
  omega

end Cpu

lemma Reachable.timed {B : Type} [Bus B] {writes : Prop} {c : Cpu B} (h : Reachable writes c) : c.idle.Timed := by
  induction h with
  | new => exact Detector.Empty.timed ⟨rfl, rfl⟩
  | withConfig h => exact (Cpu.withConfig_empty h).timed
  | log _ _ ih => exact ih
  | @host c op _ ih =>
    rcases op.kept_or_empty c with hk | hempty
    · exact ih.congr hk.history hk.active
    · exact hempty.timed
  | setInterruptEnabled _ _ ih => exact ih
  | setRegs _ _ _ ih => exact ih
  | @step c budget _ ih => exact (c.stepped budget).timed ih

/-- What a run of `n` T-states takes, wherever a host may have brought the processor. It ends in such a place again. -/
theorem Cpu.run_accounting {B : Type} [Bus B] {c : Cpu B} (h : Reachable True c) (n : Nat) :
    (c.lifecycle = .paused → c.run n = (0, c)) ∧
    (c.lifecycle ≠ .paused → 1 ≤ n → n + 28 < 2 ^ 64 →
      (∀ done d, c.Opens n (max c.chunkCycles 1) done d → done < n →
        d.Completes (min (n - done) (max c.chunkCycles 1))) ∧
      n ≤ (c.run n).1 ∧ (c.run n).1 ≤ n + 28 ∧
      (c.run n).2.total = c.total + UInt64.ofNat (c.run n).1 ∧
      ∃ ran budget e, c.Takes n (max c.chunkCycles 1) ran budget e ∧
        c.run n = (ran + (e.step budget).1, (e.step budget).2) ∧
        (c.run n).1 - n < (e.step budget).1 ∧
        ∀ loop, e.stepKind budget = .skipped loop → (c.run n).1 = n) ∧
    Reachable True (c.run n).2 := by
  refine ⟨fun hl => run_paused hl n, fun hl hpos hn => ?_, h.run n⟩
  have hc : c.Live := ⟨hl, h.timed⟩
  have hk : 0 < max c.chunkCycles 1 := by omega
  obtain ⟨ran, budget, e, htakes, he, hrun, hlt, hbudget, hle⟩ := Opens.first.last () hc hk hpos (by omega)
  have hrun' : c.run n = (ran + (e.step budget).1, (e.step budget).2) := by
    rw [run_eq, hrun]
  have hcompletes (done : Nat) (d : Cpu B) (ho : c.Opens n (max c.chunkCycles 1) done d) (hd : done < n) :
      d.Completes (min (n - done) (max c.chunkCycles 1)) :=
    ((ho.live hc).runFor_last _ (by omega) (by omega)).1
  have hlast : (c.run n).1 = ran + (e.step budget).1 := congrArg Prod.fst hrun'
  have htotal : (c.run n).2.total = c.total + UInt64.ofNat (c.run n).1 := by
    rw [hrun']
    exact htakes.total hc hk (by omega)
  obtain ⟨-, ⟨-, htime⟩ | ⟨hkind, htime⟩⟩ := he.step_time budget
  · have heq : (c.run n).1 = n := by omega
    exact ⟨hcompletes, by omega, by omega, htotal, ran, budget, e, htakes, hrun', by omega, fun _ _ => heq⟩
  · exact ⟨hcompletes, by omega, by omega, htotal, ran, budget, e, htakes, hrun', by omega,
      fun loop h => absurd h (hkind loop)⟩

theorem Cpu.run_accounting_spinning :
    let c : Cpu Board := { bus := Board.mapMemory (·.poke 1 0xC3) {} }
    Reachable True c ∧ c.lifecycle ≠ .paused ∧ 1000 ≤ (c.run 1000).1 ∧ (c.run 1000).1 ≤ 1028 := by
  obtain ⟨-, hrun, -⟩ := Cpu.run_accounting (.new (Board.mapMemory (·.poke 1 0xC3) {})) 1000
  obtain ⟨-, hle, hge, -⟩ := hrun (by decide) (by decide) (by decide)
  exact ⟨.new _, by decide, hle, hge⟩

end Z80Machine
