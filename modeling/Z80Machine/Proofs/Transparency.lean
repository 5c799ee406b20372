import Z80Machine.Proofs.Slicing

/-! Idle detection cannot be seen. Two processors that differ in nothing but their detectors answer the same calls with
the same counts and reports, whatever else the host does to them between its calls and between chunks. -/

namespace Z80Machine

structure Report (B : Type) where
  ran : Nat
  machine : Machine B

/-- A call of the host. A callback may answer what it has heard with operations of its own. -/
inductive Call (B : Type) where
  | host (op : HostOp B)
  | run (cycles : UInt64)
  | runChunked (cycles : UInt64) (chunk : Nat) (reply : List (Report B) → List (HostOp B))

namespace Call

variable {B : Type} [Bus B]

def reporting (reply : List (Report B) → List (HostOp B)) (ran : Nat) (x : Cpu B × List (Report B)) :
    Cpu B × List (Report B) :=
  let heard := x.2 ++ [{ ran, machine := x.1.machine }]
  ((reply heard).foldl HostOp.apply x.1, heard)

def perform (c : Cpu B) : Call B → (Nat × List (Report B)) × Cpu B
  | host op => ((0, []), op.apply c)
  | run cycles =>
    let (ran, c) := c.run cycles.toNat
    ((ran, []), c)
  | runChunked cycles chunk reply =>
    let (ran, c, heard) := c.runChunked cycles.toNat chunk (reporting reply) []
    ((ran, heard), c)

def performAll (c : Cpu B) : List (Call B) → List (Nat × List (Report B)) × Cpu B
  | [] => ([], c)
  | call :: calls =>
    let (answer, c) := call.perform c
    let (answers, c) := performAll c calls
    (answer :: answers, c)

end Call

namespace Cpu

variable {B : Type} [Bus B] {c d : Cpu B}

structure Agree (c d : Cpu B) : Prop where
  machine : c.machine = d.machine
  left : c.Sound
  right : d.Sound

namespace Agree

lemma lifecycle (h : Agree c d) : c.lifecycle = d.lifecycle :=
  congrArg Machine.lifecycle h.machine

lemma apply (h : Agree c d) (op : HostOp B) : Agree (op.apply c) (op.apply d) :=
  ⟨op.apply_machine h.machine, h.left.apply op, h.right.apply op⟩

lemma foldl (h : Agree c d) (ops : List (HostOp B)) : Agree (ops.foldl HostOp.apply c) (ops.foldl HostOp.apply d) := by
  induction ops generalizing c d with
  | nil => exact h
  | cons op ops ih => exact ih (h.apply op)

variable [QuietBus B]

lemma runFor (h : Agree c d) (target : Nat) (ht : target < 2 ^ 64) :
    (c.runFor target).1 = (d.runFor target).1 ∧ Agree (c.runFor target).2 (d.runFor target).2 := by
  by_cases hl : c.lifecycle = .paused
  · rw [runFor_paused hl, runFor_paused (h.lifecycle ▸ hl)]
    exact ⟨rfl, h⟩
  · obtain ⟨hs, hreach⟩ := runFor_reaches h.left hl target ht
    obtain ⟨hs', hreach'⟩ := runFor_reaches h.right (h.lifecycle ▸ hl) target ht
    rw [← h.machine] at hreach'
    obtain ⟨hran, hmachine⟩ := hreach.unique hreach'
    exact ⟨hran, hmachine, hs, hs'⟩

lemma runChunks (h : Agree c d) {cycles : Nat} (hc : cycles < 2 ^ 64) (chunk : Nat)
    (reply : List (Report B) → List (HostOp B)) (done : Nat) (heard : List (Report B)) :
    let x := Cpu.runChunks cycles chunk (Call.reporting reply) done c heard
    let y := Cpu.runChunks cycles chunk (Call.reporting reply) done d heard
    x.1 = y.1 ∧ Agree x.2.1 y.2.1 ∧ x.2.2 = y.2.2 := by
  induction hn : cycles - done using Nat.strongRecOn generalizing c d done heard with
  | ind n ih =>
    dsimp only
    rw [Cpu.runChunks, Cpu.runChunks]
    split
    case isTrue => exact ⟨rfl, h, rfl⟩
    case isFalse hlt =>
      obtain ⟨hran, hagree⟩ := h.runFor (min (cycles - done) chunk) (by omega)
      generalize c.runFor (min (cycles - done) chunk) = x at hran hagree
      generalize d.runFor (min (cycles - done) chunk) = y at hran hagree
      obtain ⟨ran, c⟩ := x
      obtain ⟨ran', d⟩ := y
      dsimp only at hran hagree ⊢
      subst hran
      split
      case isTrue => exact ⟨rfl, hagree, rfl⟩
      case isFalse hpos =>
        -- The reply depends on what was heard, and both sides have heard the same.
        have hheard : (Call.reporting reply ran (c, heard)).2 = (Call.reporting reply ran (d, heard)).2 := by
          simp only [Call.reporting, hagree.machine]
        have hagree' : Agree (Call.reporting reply ran (c, heard)).1 (Call.reporting reply ran (d, heard)).1 := by
          simp only [Call.reporting, hagree.machine]
          exact hagree.foldl _
        have := ih (cycles - (done + ran)) (by omega) hagree' (done + ran) (Call.reporting reply ran (c, heard)).2 rfl
        rwa [hheard] at this ⊢

lemma run (h : Agree c d) (n : UInt64) :
    (c.run n.toNat).1 = (d.run n.toNat).1 ∧ Agree (c.run n.toNat).2 (d.run n.toNat).2 := by
  by_cases hl : c.lifecycle = .paused
  · rw [run_paused hl, run_paused (h.lifecycle ▸ hl)]
    exact ⟨rfl, h⟩
  · obtain ⟨hs, hreach⟩ := run_reaches h.left hl n
    obtain ⟨hs', hreach'⟩ := run_reaches h.right (h.lifecycle ▸ hl) n
    rw [← h.machine] at hreach'
    obtain ⟨hran, hmachine⟩ := hreach.unique hreach'
    exact ⟨hran, hmachine, hs, hs'⟩

lemma perform (h : Agree c d) (call : Call B) :
    (call.perform c).1 = (call.perform d).1 ∧ Agree (call.perform c).2 (call.perform d).2 := by
  cases call with
  | host op => exact ⟨rfl, h.apply op⟩
  | run cycles =>
    obtain ⟨hran, hagree⟩ := h.run cycles
    exact ⟨congrArg (·, []) hran, hagree⟩
  | runChunked cycles chunk reply =>
    obtain ⟨hran, hagree, hheard⟩ := h.runChunks cycles.toNat_lt (max chunk 1) reply 0 []
    exact ⟨Prod.ext hran hheard, hagree⟩

end Agree

/-- Idle detection cannot be seen. -/
theorem performAll_eq [QuietBus B] (c d : Cpu B) (hm : c.machine = d.machine) (hc : c.idle.history = [])
    (hd : d.idle.history = []) (hc' : c.idle.active = none) (hd' : d.idle.active = none) (calls : List (Call B)) :
    (Call.performAll c calls).1 = (Call.performAll d calls).1 ∧
      (Call.performAll c calls).2.machine = (Call.performAll d calls).2.machine := by
  have h : Agree c d := ⟨hm, Idle.Detector.Empty.sound ⟨hc, hc'⟩, Idle.Detector.Empty.sound ⟨hd, hd'⟩⟩
  clear hm hc hd hc' hd'
  induction calls generalizing c d with
  | nil => exact ⟨rfl, h.machine⟩
  | cons call calls ih =>
    obtain ⟨hanswer, hagree⟩ := h.perform call
    obtain ⟨hanswers, hmachine⟩ := ih _ _ hagree
    exact ⟨congrArg₂ List.cons hanswer hanswers, hmachine⟩

theorem performAll_eq_spinning :
    let bus : Board := Board.mapMemory (·.poke 1 0xC3) {}
    let c : Cpu Board := { bus }
    let d : Cpu Board := { bus, idle := .ofConfig { enabled := false } }
    let calls : List (Call Board) := [.run 1000, .host (.requestInterrupt .nonMaskable),
      .runChunked 1000 7 fun heard => if heard.length = 3 then [.setClockMode .high] else []]
    c.machine = d.machine ∧ c.idle.history = [] ∧ d.idle.history = [] ∧ c.idle.active = none ∧ d.idle.active = none ∧
      (Call.performAll c calls).1 = (Call.performAll d calls).1 ∧
      (Call.performAll c calls).2.machine = (Call.performAll d calls).2.machine := by
  intro bus c d calls
  exact ⟨rfl, rfl, rfl, rfl, rfl, performAll_eq c d rfl rfl rfl rfl rfl calls⟩

end Cpu

end Z80Machine
