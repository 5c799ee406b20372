import Z80Machine.Cpu.Run
import Z80Machine.Proofs.Host

/-! The states that a host can bring a processor to. Steps are taken one by one here; what holds after every step holds
after every run. -/

namespace Z80Machine

/-- Only with `writes` does the host write registers. The log is the host's to read and to empty. -/
inductive Reachable {B : Type} [Bus B] (writes : Prop) : Cpu B → Prop where
  | new (bus : B) : Reachable writes { bus }
  | withConfig {bus : B} {config : CpuConfig} {log : Log} {c : Cpu B} (h : Cpu.withConfig bus config log = .ok c) :
      Reachable writes c
  | log {c : Cpu B} (log : Log) : Reachable writes c → Reachable writes { c with log }
  | host {c : Cpu B} (op : HostOp B) : Reachable writes c → Reachable writes (op.apply c)
  | setInterruptEnabled {c : Cpu B} (on : Bool) : Reachable writes c → Reachable writes (c.setInterruptEnabled on)
  | setRegs {c : Cpu B} (h : writes) (regs : Registers) : Reachable writes c → Reachable writes (c.setRegs regs)
  | step {c : Cpu B} (budget : Nat) : Reachable writes c → Reachable writes (c.step budget).2

namespace Cpu

section

variable {B : Type} {bus : B} {config : CpuConfig} {log : Log} {c : Cpu B} (h : withConfig bus config log = .ok c)

include h

lemma withConfig_fresh : c.core = {} ∧ c.idle.Empty := by
  simp only [withConfig, bind, Except.bind] at h
  cases hv : config.validated with
  | error => simp [hv] at h
  | ok config =>
    rw [hv] at h
    cases h
    exact ⟨rfl, rfl, rfl⟩

lemma withConfig_empty : c.idle.Empty :=
  (withConfig_fresh h).2

end

variable {B S : Type} [Bus B] {c : Cpu B} {P : Cpu B → Prop} (hstep : ∀ c budget, P c → P (c.step budget).2)
  (hlog : ∀ c log, P c → P { c with log })

include hstep in
lemma steps_closed (h : P c) (target ran fuel : Nat) : P (c.steps target ran fuel).2 := by
  induction fuel generalizing c ran with
  | zero => exact h
  | succ fuel ih =>
    rw [steps]
    split
    · exact h
    · exact ih (hstep _ _ h) _

include hstep hlog in
lemma runFor_closed (h : P c) (target : Nat) : P (c.runFor target).2 := by
  rw [runFor]
  split
  · exact h
  · have hsteps := steps_closed hstep h target 0 (min (target + stepMargin) unbounded)
    generalize min (target + stepMargin) unbounded = limit at hsteps
    dsimp only
    split
    · exact hlog _ _ hsteps
    · exact hsteps

theorem runChunks_related {R : Cpu B → S → Prop}
    (hstep : ∀ c s budget, R c s → R (c.step budget).2 s) (hlog : ∀ c s log, R c s → R { c with log } s)
    (act : Nat → Cpu B × S → Cpu B × S) (hact : ∀ ran c s, R c s → R (act ran (c, s)).1 (act ran (c, s)).2)
    {s : S} (h : R c s) (cycles chunk done : Nat) :
    R (runChunks cycles chunk act done c s).2.1 (runChunks cycles chunk act done c s).2.2 := by
  induction hn : cycles - done using Nat.strongRecOn generalizing c done s with
  | ind n ih =>
    rw [runChunks]
    split
    case isTrue => exact h
    case isFalse hlt =>
      have hran := runFor_closed (P := (R · s)) (fun c => hstep c s) (fun c => hlog c s) h (min (cycles - done) chunk)
      generalize c.runFor (min (cycles - done) chunk) = x at hran
      obtain ⟨ran, d⟩ := x
      dsimp only at hran ⊢
      split
      case isTrue => exact hran
      case isFalse hpos => exact ih (cycles - (done + ran)) (by omega) (hact ran d s hran) (done + ran) rfl

include hstep hlog in
theorem runChunks_closed (act : Nat → Cpu B × S → Cpu B × S) (hact : ∀ ran c s, P c → P (act ran (c, s)).1) (h : P c)
    (cycles chunk done : Nat) (s : S) : P (runChunks cycles chunk act done c s).2.1 :=
  runChunks_related (R := fun c _ => P c) (fun c _ => hstep c) (fun c _ => hlog c) act hact h cycles chunk done

include hstep hlog in
theorem run_closed (h : P c) (cycles : Nat) : P (c.run cycles).2 :=
  runChunks_closed hstep hlog _ (fun _ _ _ h => h) h _ _ _ _

end Cpu

/-- Runs, with whatever the host does in their callbacks, lead from reachable states to reachable states. -/
theorem Reachable.runChunked {B S : Type} [Bus B] {writes : Prop} {c : Cpu B} (h : Reachable writes c)
    (cycles chunk : Nat) (act : Nat → Cpu B × S → Cpu B × S)
    (hact : ∀ ran c s, Reachable writes c → Reachable writes (act ran (c, s)).1) (s : S) :
    Reachable writes (c.runChunked cycles chunk act s).2.1 :=
  Cpu.runChunks_closed (fun _ budget => .step budget) (fun _ log => .log log) act hact h _ _ _ _

theorem Reachable.run {B : Type} [Bus B] {writes : Prop} {c : Cpu B} (h : Reachable writes c) (cycles : Nat) :
    Reachable writes (c.run cycles).2 :=
  Cpu.run_closed (fun _ budget => .step budget) (fun _ log => .log log) h cycles

end Z80Machine
