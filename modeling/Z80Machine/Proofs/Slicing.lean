import Z80Machine.Board
import Z80Machine.Proofs.FastForward

/-! Letting a processor run. Whatever the chunks and whatever is skipped in them, a run reaches what the machine alone
reaches at the same target, so how it is cut makes no difference. -/

namespace Z80Machine

open Idle

instance : QuietBus Board where
  bus_read _ _ := rfl
  bus_input _ _ := rfl

namespace Cpu

variable {B : Type} [Bus B] {c : Cpu B}

lemma runFor_paused (hl : c.lifecycle = .paused) (target : Nat) : c.runFor target = (0, c) :=
  if_pos hl

lemma runFor_of_steps (hl : c.lifecycle ≠ .paused) {target : Nat} {s : Nat × Cpu B}
    (hs : c.steps target 0 (min (target + stepMargin) unbounded) = s) (hle : target ≤ s.1) : c.runFor target = s := by
  rw [runFor, if_neg hl]
  simp only [hs, if_neg (Nat.not_lt.mpr hle)]

def listening {S : Type} (hear : Nat → S → S) (ran : Nat) (x : Cpu B × S) : Cpu B × S :=
  (x.1, hear ran x.2)

lemma run_eq (c : Cpu B) (cycles : Nat) : c.run cycles =
    let x := runChunks cycles (max c.chunkCycles 1) (listening fun _ s => s) 0 c ()
    (x.1, x.2.1) := rfl

lemma run_paused (hl : c.lifecycle = .paused) (cycles : Nat) : c.run cycles = (0, c) := by
  rw [run_eq, runChunks, runFor_paused hl]
  split <;> rfl

lemma run_zero (c : Cpu B) : c.run 0 = (0, c) := by
  rw [run_eq, runChunks, if_pos (Nat.le_refl 0)]

lemma run_of_chunk {n : Nat} (hpos : 0 < n) (hle : n ≤ c.chunkCycles)
    (hran : n ≤ (c.runFor n).1) : c.run n = c.runFor n := by
  rw [run_eq, runChunks, if_neg (by omega), Nat.sub_zero, Nat.min_eq_left (by omega)]
  dsimp only
  rw [if_neg (by omega), runChunks, if_pos (by rw [Nat.zero_add]; exact hran)]
  simp [listening]

variable [QuietBus B]

lemma step_pos (hs : c.Sound) (hl : c.lifecycle ≠ .paused) (budget : Nat) : 0 < (c.step budget).1 := by
  obtain ⟨n, hn, ht, -⟩ := step_ticks hs hl budget
  have := Machine.ticks_lt (m := c.machine) hl hn
  rwa [ht] at this

lemma step_reaches (hs : c.Sound) (hl : c.lifecycle ≠ .paused) (budget : Nat) (hb : 0 < budget) :
    ∃ target ≤ budget, c.machine.Reaches target (c.step budget).1 (c.step budget).2.machine := by
  obtain ⟨n, hn, ht, h⟩ := step_ticks hs hl budget
  exact Machine.Reaches.of_ticks hl hb hn ht h

lemma steps_reaches (hs : c.Sound) (hl : c.lifecycle ≠ .paused) (target ran : Nat) {fuel : Nat}
    (hf : target ≤ ran + fuel) :
    ∃ r d, c.steps target ran fuel = (ran + r, d) ∧ d.Sound ∧ c.machine.Reaches (target - ran) r d.machine := by
  induction fuel generalizing c ran with
  | zero => exact ⟨0, c, rfl, hs, .of_le _ hf⟩
  | succ fuel ih =>
    rw [steps]
    split
    case isTrue h => exact ⟨0, c, rfl, hs, .of_le _ h⟩
    case isFalse h =>
      -- One unit of fuel pays for a step, which takes one T-state at least.
      have hpos := step_pos hs hl (target - ran)
      obtain ⟨near, hnear, hreach⟩ := step_reaches hs hl (target - ran) (by omega)
      obtain ⟨r, d, hd, hs', hreach'⟩ := ih (step_sound hs (target - ran)) (hreach.lifecycle hl)
        (ran + (c.step (target - ran)).1) (by omega)
      rw [Nat.sub_add_eq] at hreach'
      exact ⟨_, d, hd.trans (by rw [Nat.add_assoc]), hs', hreach.trans hnear hreach'⟩

theorem runFor_reaches (hs : c.Sound) (hl : c.lifecycle ≠ .paused) (target : Nat) (ht : target < 2 ^ 64) :
    (c.runFor target).2.Sound ∧ c.machine.Reaches target (c.runFor target).1 (c.runFor target).2.machine := by
  have hf : target ≤ 0 + min (target + stepMargin) unbounded := by
    simp only [unbounded]
    omega
  obtain ⟨r, d, hd, hs', hreach⟩ := steps_reaches hs hl target 0 hf
  rw [Nat.sub_zero] at hreach
  have hle : target ≤ r := by
    obtain ⟨n, -, hle, -⟩ := hreach
    exact hle
  rw [Nat.zero_add] at hd
  rw [runFor_of_steps hl hd hle]
  exact ⟨hs', hreach⟩

theorem runChunks_reaches {S : Type} (hear : Nat → S → S) (s : S) (hs : c.Sound) (hl : c.lifecycle ≠ .paused)
    {cycles chunk : Nat} (hc : cycles < 2 ^ 64) (hk : 0 < chunk) (done : Nat) :
    ∃ (amounts : List Nat) (d : Cpu B), runChunks cycles chunk (listening hear) done c s =
        (done + amounts.sum, d, amounts.foldl (fun s r => hear r s) s) ∧
      d.Sound ∧ c.machine.Reaches (cycles - done) amounts.sum d.machine := by
  induction hn : cycles - done using Nat.strongRecOn generalizing c done s with
  | ind n ih =>
    rw [runChunks]
    split
    case isTrue h =>
      refine ⟨[], c, rfl, hs, ?_⟩
      rw [← hn]
      exact .of_le _ h
    case isFalse h =>
      obtain ⟨hs', hreach⟩ := runFor_reaches hs hl (min (cycles - done) chunk) (by omega)
      have hpos : (c.runFor (min (cycles - done) chunk)).1 ≠ 0 := by
        obtain ⟨_, -, hle, -⟩ := hreach
        omega
      generalize c.runFor (min (cycles - done) chunk) = x at hs' hreach hpos
      obtain ⟨ran, d⟩ := x
      dsimp only at hs' hreach hpos ⊢
      rw [if_neg hpos]
      obtain ⟨amounts, e, he, hs'', hreach'⟩ := ih (cycles - (done + ran)) (by omega) (hear ran s) hs'
        (hreach.lifecycle hl) (done + ran) rfl
      refine ⟨ran :: amounts, e, ?_, hs'', ?_⟩
      · rw [List.sum_cons, ← Nat.add_assoc]
        exact he
      · rw [List.sum_cons, ← hn]
        rw [Nat.sub_add_eq] at hreach'
        exact hreach.trans (Nat.min_le_left _ _) hreach'

theorem run_reaches (hs : c.Sound) (hl : c.lifecycle ≠ .paused) (n : UInt64) :
    (c.run n.toNat).2.Sound ∧ c.machine.Reaches n.toNat (c.run n.toNat).1 (c.run n.toNat).2.machine := by
  obtain ⟨amounts, d, hd, hs', hreach⟩ := runChunks_reaches (fun _ s => s) () hs hl n.toNat_lt
    (Nat.lt_of_lt_of_le Nat.one_pos (Nat.le_max_right c.chunkCycles 1)) 0
  rw [run_eq, hd, Nat.zero_add]
  exact ⟨hs', hreach⟩

def runSlices (c : Cpu B) : List UInt64 → List Nat × Cpu B
  | [] => ([], c)
  | n :: slices =>
    let (ran, c) := c.run n.toNat
    let (rest, c) := c.runSlices slices
    (ran :: rest, c)

lemma runSlices_reaches (hs : c.Sound) (hl : c.lifecycle ≠ .paused) (slices : List UInt64) :
    c.machine.Reaches (c.runSlices slices).1.sum (c.runSlices slices).1.sum (c.runSlices slices).2.machine := by
  induction slices generalizing c with
  | nil => exact .zero _
  | cons n slices ih =>
    obtain ⟨hs', hreach⟩ := run_reaches hs hl n
    have hrest := ih hs' (hreach.lifecycle hl)
    rw [runSlices]
    refine (hreach.exact hl).trans (Nat.le_add_right _ _) ?_
    rwa [List.sum_cons, Nat.add_sub_cancel_left]

/-- It makes no difference how a run is cut: into chunks of what size, or into runs of their own. -/
theorem run_cut (c : Cpu B) (hl : c.lifecycle ≠ .paused) (hh : c.idle.history = [])
    (ha : c.idle.active = none) :
    (∀ (S S' : Type) (hear : Nat → S → S) (s : S) (hear' : Nat → S' → S') (s' : S') (n : UInt64) (chunk chunk' : Nat),
      let x := c.runChunked n.toNat chunk (listening hear) s
      let y := c.runChunked n.toNat chunk' (listening hear') s'
      x.1 = y.1 ∧ x.2.1.machine = y.2.1.machine) ∧
    (∀ (n : UInt64) (chunk : Nat),
      let x := c.runChunked n.toNat chunk (listening fun ran sum => sum + ran) 0
      x.2.2 = x.1) ∧
    ∀ (slices : List UInt64) (total : UInt64), total.toNat = (c.runSlices slices).1.sum →
      (c.run total.toNat).1 = total.toNat ∧ (c.run total.toNat).2.machine = (c.runSlices slices).2.machine := by
  have hs : c.Sound := Detector.Empty.sound ⟨hh, ha⟩
  have hk (chunk : Nat) : 0 < max chunk 1 := Nat.lt_of_lt_of_le Nat.one_pos (Nat.le_max_right _ _)
  refine ⟨fun S S' hear s hear' s' n chunk chunk' => ?_, fun n chunk => ?_, fun slices total ht => ?_⟩
  · obtain ⟨amounts, d, hd, -, hreach⟩ := runChunks_reaches hear s hs hl n.toNat_lt (hk chunk) 0
    obtain ⟨amounts', d', hd', -, hreach'⟩ := runChunks_reaches hear' s' hs hl n.toNat_lt (hk chunk') 0
    obtain ⟨hsum, hmachine⟩ := hreach.unique hreach'
    dsimp only
    rw [runChunked, runChunked, hd, hd']
    exact ⟨congrArg (0 + ·) hsum, hmachine⟩
  · obtain ⟨amounts, d, hd, -, -⟩ := runChunks_reaches (fun ran sum => sum + ran) 0 hs hl n.toNat_lt (hk chunk) 0
    dsimp only
    rw [runChunked, hd, Nat.zero_add]
    exact List.sum_eq_foldl_nat.symm
  · have hreach := runSlices_reaches hs hl slices
    rw [← ht] at hreach
    exact (run_reaches hs hl total).2.unique hreach

theorem run_cut_spinning :
    let c : Cpu Board := { bus := Board.mapMemory (·.poke 1 0xC3) {} }
    c.lifecycle ≠ .paused ∧ c.idle.history = [] ∧ c.idle.active = none ∧
      (c.runChunked (1000 : UInt64).toNat 7 (listening fun _ s => s) ()).2.1.machine =
        (c.runChunked (1000 : UInt64).toNat 0 (listening fun _ s => s) ()).2.1.machine :=
  ⟨by decide, rfl, rfl, ((run_cut _ (by decide) rfl rfl).1 Unit Unit _ () _ () 1000 7 0).2⟩

end Cpu

end Z80Machine
