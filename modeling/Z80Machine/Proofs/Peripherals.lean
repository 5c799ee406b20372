import Z80Machine.Computer
import Z80Machine.Proofs.Slicing

/-! What peripherals hear. How a frame is cut into updates depends on the processor alone, so that all peripherals hear
the same, on every machine that goes the same way. -/

namespace Z80Machine

namespace Cpu

variable {B : Type}

structure Alike (c d : Cpu B) : Prop where
  machine : c.machine = d.machine
  idle : c.idle = d.idle

lemma Alike.refl (c : Cpu B) : Alike c c :=
  ⟨rfl, rfl⟩

variable [Bus B] {c d : Cpu B}

namespace Alike

lemma stepped (h : Alike c d) {budget t : Nat} {k : StepKind} {m : Machine B} {i : Idle.Detector}
    (hc : c.Stepped budget k t m i) : d.Stepped budget k t m i := by
  obtain ⟨hm, hi⟩ := h
  cases c
  cases d
  cases hm
  cases hi
  cases hc with
  | paused hl => exact .paused hl
  | response hl hp ht => exact .response hl hp ht
  | halted hl hp hh => exact .halted hl hp hh
  | skipped hl hp hh hs => exact .skipped hl hp hh hs
  | instruction hl hp hh hs => exact .instruction hl hp hh hs

lemma step (h : Alike c d) (budget : Nat) :
    (c.step budget).1 = (d.step budget).1 ∧ Alike (c.step budget).2 (d.step budget).2 := by
  obtain ⟨ht, hm, hi⟩ := (h.stepped (c.stepped budget)).unique (d.stepped budget)
  exact ⟨ht, hm, hi⟩

lemma steps (h : Alike c d) (target ran fuel : Nat) :
    (c.steps target ran fuel).1 = (d.steps target ran fuel).1 ∧
      Alike (c.steps target ran fuel).2 (d.steps target ran fuel).2 := by
  induction fuel generalizing c d ran with
  | zero => exact ⟨rfl, h⟩
  | succ fuel ih =>
    obtain ⟨ht, hstep⟩ := h.step (target - ran)
    rw [Cpu.steps, Cpu.steps]
    split
    · exact ⟨rfl, h⟩
    · simp only [← ht]
      exact ih hstep _

lemma runFor (h : Alike c d) (target : Nat) :
    (c.runFor target).1 = (d.runFor target).1 ∧ Alike (c.runFor target).2 (d.runFor target).2 := by
  have hl : c.lifecycle = d.lifecycle := congrArg Machine.lifecycle h.machine
  rw [Cpu.runFor, Cpu.runFor, hl]
  split
  · exact ⟨rfl, h⟩
  generalize min (target + stepMargin) unbounded = limit
  obtain ⟨ht, hsteps⟩ := h.steps target 0 limit
  simp only [ht]
  split
  · exact ⟨rfl, hsteps.machine, hsteps.idle⟩
  · exact ⟨rfl, hsteps⟩

end Alike

theorem runChunks_heard (c : Cpu B) (cycles chunk done : Nat) : ∃ (amounts : List Nat) (e : Cpu B),
    ∀ d, Alike c d → ∀ (S : Type) (hear : Nat → S → S) (s : S), ∃ e', Alike e e' ∧
      runChunks cycles chunk (listening hear) done d s =
        (done + amounts.sum, e', amounts.foldl (fun s ran => hear ran s) s) := by
  -- on the cycles that remain: the processor alone decides the first amount, and leaves processors that are still alike
  induction hn : cycles - done using Nat.strongRecOn generalizing c done with
  | ind n ih =>
    by_cases hdone : cycles ≤ done
    · refine ⟨[], c, fun d h S hear s => ⟨d, h, ?_⟩⟩
      rw [runChunks, if_pos hdone]
      rfl
    by_cases hran : (c.runFor (min (cycles - done) chunk)).1 = 0
    · refine ⟨[], (c.runFor (min (cycles - done) chunk)).2, fun d h S hear s => ?_⟩
      obtain ⟨ht, hrun⟩ := h.runFor (min (cycles - done) chunk)
      refine ⟨_, hrun, ?_⟩
      rw [runChunks, if_neg hdone]
      simp only [← ht, hran, if_true]
      rfl
    · obtain ⟨amounts, e, hrest⟩ := ih _ (by omega) (c.runFor (min (cycles - done) chunk)).2
        (done + (c.runFor (min (cycles - done) chunk)).1) rfl
      refine ⟨(c.runFor (min (cycles - done) chunk)).1 :: amounts, e, fun d h S hear s => ?_⟩
      obtain ⟨ht, hrun⟩ := h.runFor (min (cycles - done) chunk)
      obtain ⟨e', he, heard⟩ := hrest _ hrun S hear (hear (c.runFor (min (cycles - done) chunk)).1 s)
      refine ⟨e', he, ?_⟩
      rw [runChunks, if_neg hdone]
      simp only [← ht, if_neg hran, listening]
      rw [List.sum_cons, ← Nat.add_assoc, List.foldl_cons]
      exact heard

omit [Bus B] in
lemma Alike.requestInterrupt (h : Alike c d) (kind : Interrupt) :
    Alike (c.requestInterrupt kind) (d.requestInterrupt kind) := by
  have hp : c.pending = d.pending := congrArg Machine.pending h.machine
  exact ⟨by rw [machine_requestInterrupt, machine_requestInterrupt, h.machine, hp],
    by rw [idle_requestInterrupt, idle_requestInterrupt, h.idle]⟩

omit [Bus B] in
lemma Alike.note (h : Alike c d) (event : Event) : Alike c (d.note event) :=
  ⟨h.machine, h.idle⟩

end Cpu

lemma foldl_map_update {P : Type} [Peripheral P] (amounts : List Nat) (ps : List P) :
    amounts.foldl (fun ps ran => ps.map (Peripheral.update · ran)) ps =
      ps.map fun p => amounts.foldl Peripheral.update p := by
  induction amounts generalizing ps with
  | nil => simp
  | cons ran amounts ih => simp [ih]

namespace Computer

section

variable {P Q : Type}

def equip (c : Computer P) (qs : List Q) : Computer Q where
  cpu := c.cpu
  peripherals := qs
  config := c.config
  chunkCycles := c.chunkCycles
  frames := c.frames

def untilBlank (c : Computer P) : Nat × Cpu Board :=
  let x := c.cpu.runChunked c.cyclesPerFrame c.chunkCycles (Cpu.listening fun _ s => s) ()
  (x.1, x.2.1)

def blanked (c : Computer P) : Cpu Board :=
  if c.config.vblankInterrupt then c.untilBlank.2.requestInterrupt .maskable else c.untilBlank.2

structure Alike (c : Computer P) (d : Computer Q) : Prop where
  cpu : Cpu.Alike c.cpu d.cpu
  config : c.config = d.config
  chunkCycles : c.chunkCycles = d.chunkCycles
  frames : c.frames = d.frames

lemma Alike.refl (c : Computer P) : Alike c c :=
  ⟨.refl c.cpu, rfl, rfl, rfl⟩

lemma alike_equip (c : Computer P) (qs : List Q) : Alike c (c.equip qs) :=
  ⟨.refl c.cpu, rfl, rfl, rfl⟩

end

variable {P Q : Type} [Peripheral P] [Peripheral Q]

lemma runFrame_eq (c : Computer P) : c.runFrame =
    let x := Cpu.runChunks c.cyclesPerFrame (max c.chunkCycles 1)
      (Cpu.listening fun ran ps => ps.map (Peripheral.update · ran)) 0 c.cpu c.peripherals
    let cpu := if c.config.vblankInterrupt then x.2.1.requestInterrupt .maskable else x.2.1
    (x.1, { c with cpu := cpu.note (.frameDone (c.frames + 1) x.1), peripherals := x.2.2, frames := c.frames + 1 }) :=
  rfl

omit [Peripheral P] in
theorem runFrame_heard (c : Computer P) : ∃ amounts : List Nat, amounts.sum = c.untilBlank.1 ∧
    ∀ (Q : Type) [Peripheral Q] (d : Computer Q), Alike c d → d.runFrame.1 = c.untilBlank.1 ∧
      d.runFrame.2.peripherals = d.peripherals.map (fun q => amounts.foldl Peripheral.update q) ∧
      Cpu.Alike c.blanked d.runFrame.2.cpu := by
  obtain ⟨amounts, e, heard⟩ := c.cpu.runChunks_heard c.cyclesPerFrame (max c.chunkCycles 1) 0
  obtain ⟨e₀, he₀, hblank⟩ := heard c.cpu (.refl _) Unit (fun _ s => s) ()
  have huntil : c.untilBlank = (amounts.sum, e₀) := by
    rw [untilBlank, Cpu.runChunked, hblank, Nat.zero_add]
  refine ⟨amounts, by rw [huntil], fun Q _ d h => ?_⟩
  obtain ⟨e₁, he₁, hd⟩ := heard d.cpu h.cpu (List Q) (fun ran qs => qs.map (Peripheral.update · ran)) d.peripherals
  have hcycles : d.cyclesPerFrame = c.cyclesPerFrame := by
    have hclock : c.cpu.clock = d.cpu.clock := congrArg Machine.clock h.cpu.machine
    rw [cyclesPerFrame, cyclesPerFrame, hclock, h.config]
  rw [runFrame_eq, hcycles, ← h.chunkCycles, hd, huntil, foldl_map_update]
  refine ⟨Nat.zero_add _, rfl, ?_⟩
  have he : Cpu.Alike e₀ e₁ := ⟨he₀.machine.symm.trans he₁.machine, he₀.idle.symm.trans he₁.idle⟩
  rw [blanked, huntil, h.config]
  dsimp only
  split
  · exact (he.requestInterrupt .maskable).note _
  · exact he.note _

lemma Alike.runFrame {c : Computer P} {d : Computer Q} (h : Alike c d) : Alike c.runFrame.2 d.runFrame.2 := by
  obtain ⟨_, -, heard⟩ := c.runFrame_heard
  obtain ⟨-, -, hc⟩ := heard P c (.refl c)
  obtain ⟨-, -, hd⟩ := heard Q d h
  exact ⟨⟨hc.machine.symm.trans hd.machine, hc.idle.symm.trans hd.idle⟩, h.config, h.chunkCycles,
    congrArg (· + 1) h.frames⟩

lemma runFrames_succ (c : Computer P) (n : Nat) : c.runFrames (n + 1) =
    ((c.runFrames n).1.push (c.runFrames n).2.runFrame.1, (c.runFrames n).2.runFrame.2) := by
  simp only [runFrames, Nat.fold_succ]

theorem runFrames_heard (c : Computer P) (n : Nat) : ∃ amounts : List (List Nat),
    ∀ (Q : Type) [Peripheral Q] (d : Computer Q), Alike c d →
      (d.runFrames n).1.toList = amounts.map List.sum ∧
      (d.runFrames n).2.peripherals = d.peripherals.map (fun q => amounts.flatten.foldl Peripheral.update q) ∧
      Alike (c.runFrames n).2 (d.runFrames n).2 := by
  induction n with
  | zero => exact ⟨[], fun Q _ d h => ⟨rfl, by simp [runFrames], h⟩⟩
  | succ n ih =>
    obtain ⟨amounts, heard⟩ := ih
    obtain ⟨last, hsum, hlast⟩ := (c.runFrames n).2.runFrame_heard
    refine ⟨amounts ++ [last], fun Q _ d h => ?_⟩
    obtain ⟨hran, hperipherals, halike⟩ := heard Q d h
    obtain ⟨hran', hperipherals', -⟩ := hlast Q _ halike
    rw [runFrames_succ, runFrames_succ]
    refine ⟨?_, ?_, halike.runFrame⟩
    · simp [hran, hran', hsum]
    · simp [hperipherals, hperipherals']

end Computer

end Z80Machine
