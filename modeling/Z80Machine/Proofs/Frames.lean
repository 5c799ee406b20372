import Mathlib
import Z80Machine.Main
import Z80Machine.Proofs.Accounting
import Z80Machine.Proofs.Peripherals

/-! Frames lose no cycle. Each takes its cycles and what its last instruction runs over, peripherals hear of all of it,
and pauses between frames change nothing. -/

namespace Z80Machine

namespace Cpu

variable {B : Type} [Bus B] {c d : Cpu B}

omit [Bus B] in
lemma Alike.live (h : Alike c d) (hc : c.Live) : d.Live :=
  have hl : c.lifecycle = d.lifecycle := congrArg Machine.lifecycle h.machine
  ⟨hl ▸ hc.lifecycle, h.idle ▸ hc.timed⟩

omit [Bus B] in
lemma Live.requestInterrupt (h : c.Live) (kind : Interrupt) : (c.requestInterrupt kind).Live := by
  have hl : (c.requestInterrupt kind).lifecycle = c.lifecycle :=
    congrArg Machine.lifecycle (c.machine_requestInterrupt kind)
  refine ⟨hl ▸ h.lifecycle, ?_⟩
  rw [idle_requestInterrupt]
  exact (Idle.Detector.empty_forget _).timed

lemma Live.runChunks_time (h : c.Live) {cycles chunk : Nat} (hk : 0 < chunk) (hc : cycles < 2 ^ 64) :
    let x := runChunks cycles chunk (listening fun _ s => s) 0 c ()
    cycles ≤ x.1 ∧ x.1 ≤ cycles + 28 ∧ x.2.1.total = c.total + UInt64.ofNat x.1 := by
  rcases Nat.eq_zero_or_pos cycles with rfl | hpos
  · rw [runChunks, if_pos (Nat.le_refl 0)]
    exact ⟨Nat.le_refl 0, Nat.zero_le _, (UInt64.add_zero _).symm⟩
  obtain ⟨ran, budget, e, htakes, he, hrun, hlt, hbudget, hle⟩ := Opens.first.last () h hk hpos hc
  have htotal := htakes.total h hk hc
  have htime : (e.step budget).1 ≤ max budget 29 := by
    obtain ⟨-, ⟨-, htime⟩ | ⟨-, htime⟩⟩ := he.step_time budget <;> omega
  simp only [hrun]
  exact ⟨hle, by omega, htotal⟩

end Cpu

lemma Clock.cyclesPerFrame_lt (c : Clock) (rate : UInt32) : c.cyclesPerFrame rate < 2 ^ 64 := by
  have h : c.hertz ≤ 7987200 := by
    unfold Clock.hertz
    cases c.mode <;> decide
  exact Nat.lt_of_le_of_lt (Nat.le_trans (Nat.div_le_self _ _) h) (by decide)

namespace Computer

section

variable {P : Type} {c : Computer P} (hc : c.cpu.Live)

include hc

lemma untilBlank_time : c.cyclesPerFrame ≤ c.untilBlank.1 ∧ c.untilBlank.1 ≤ c.cyclesPerFrame + 28 ∧
    c.untilBlank.2.total = c.cpu.total + UInt64.ofNat c.untilBlank.1 :=
  hc.runChunks_time (by omega : 0 < max c.chunkCycles 1) (c.cpu.clock.cyclesPerFrame_lt c.config.frameRate)

lemma untilBlank_live : c.untilBlank.2.Live ∧ c.untilBlank.2.clock = c.cpu.clock := by
  refine Cpu.runChunks_closed (P := fun e => e.Live ∧ e.clock = c.cpu.clock) (fun e budget h => ?_) (fun e log h => ?_)
    (Cpu.listening fun _ s => s) (fun _ _ _ h => h) ⟨hc, rfl⟩ _ _ 0 ()
  · exact ⟨h.1.step budget, (e.stepped budget).clock.trans h.2⟩
  · exact ⟨⟨h.1.lifecycle, h.1.timed⟩, h.2⟩

lemma blanked_live : c.blanked.Live ∧ c.blanked.clock = c.cpu.clock := by
  obtain ⟨hlive, hclock⟩ := untilBlank_live hc
  unfold blanked
  split
  · exact ⟨hlive.requestInterrupt _, (congrArg Machine.clock (Cpu.machine_requestInterrupt _ _)).trans hclock⟩
  · exact ⟨hlive, hclock⟩

end

lemma blanked_total {P : Type} (c : Computer P) : c.blanked.total = c.untilBlank.2.total := by
  unfold blanked
  split
  · exact congrArg Machine.total (Cpu.machine_requestInterrupt _ _)
  · rfl

lemma blanked_pending {P : Type} (c : Computer P) (hv : c.config.vblankInterrupt = true) : c.blanked.pending =
    some (if c.untilBlank.2.pending = some .nonMaskable then .nonMaskable else .maskable) := by
  rw [blanked, if_pos hv]
  refine (congrArg Machine.pending (Cpu.machine_requestInterrupt _ _)).trans ?_
  split
  case isTrue h => exact h
  case isFalse => rfl

variable {P : Type} [Peripheral P]

lemma reachable_runFrame {c : Computer P} (h : Reachable True c.cpu) : Reachable True c.runFrame.2.cpu := by
  have hrun := h.runChunked c.cyclesPerFrame c.chunkCycles
    (fun ran (s : Cpu Board × List P) => (s.1, s.2.map (Peripheral.update · ran))) (fun _ _ _ h => h) c.peripherals
  unfold runFrame
  dsimp only
  split
  · exact (hrun.host (.requestInterrupt .maskable)).log _
  · exact hrun.log _

lemma reachable_runFrames {c : Computer P} (h : Reachable True c.cpu) (n : Nat) :
    Reachable True (c.runFrames n).2.cpu := by
  induction n with
  | zero => exact h
  | succ n ih =>
    rw [runFrames_succ]
    exact reachable_runFrame ih

structure Ran (c : Computer P) (n : Nat) : Prop where
  live : (c.runFrames n).2.cpu.Live
  cyclesPerFrame : (c.runFrames n).2.cyclesPerFrame = c.cyclesPerFrame
  config : (c.runFrames n).2.config = c.config
  frames : (c.runFrames n).2.frames = c.frames + n
  size : (c.runFrames n).1.size = n
  each : ∀ ran ∈ (c.runFrames n).1, c.cyclesPerFrame ≤ ran ∧ ran ≤ c.cyclesPerFrame + 28
  total : (c.runFrames n).2.cpu.total = c.cpu.total + UInt64.ofNat (c.runFrames n).1.sum

theorem ran (c : Computer P) (hc : c.cpu.Live) (n : Nat) : Ran c n := by
  induction n with
  | zero => exact ⟨hc, rfl, rfl, rfl, rfl, by simp [runFrames], by simp [runFrames]⟩
  | succ n ih =>
    obtain ⟨live, cyclesPerFrame, config, frames, size, each, total⟩ := ih
    obtain ⟨hle, hge, htotal⟩ := untilBlank_time live
    obtain ⟨hlive, hclock⟩ := blanked_live live
    obtain ⟨_, -, heard⟩ := (c.runFrames n).2.runFrame_heard
    obtain ⟨hran, -, halike⟩ := heard P _ (.refl _)
    have hclock' : (c.runFrames n).2.runFrame.2.cpu.clock = (c.runFrames n).2.cpu.clock :=
      (congrArg Machine.clock halike.machine).symm.trans hclock
    have htotal' : (c.runFrames n).2.runFrame.2.cpu.total = (c.runFrames n).2.untilBlank.2.total :=
      (congrArg Machine.total halike.machine).symm.trans (blanked_total _)
    rw [cyclesPerFrame] at hle hge
    have hrun := c.runFrames_succ n
    constructor
    · rw [hrun]
      exact halike.live hlive
    · rw [hrun]
      simp only [Computer.cyclesPerFrame, hclock'] at cyclesPerFrame ⊢
      exact cyclesPerFrame
    · rw [hrun]
      exact config
    · rw [hrun]
      exact congrArg (· + 1) frames
    · rw [hrun, Array.size_push, size]
    · rw [hrun]
      intro ran h
      rcases Array.mem_push.mp h with h | rfl
      · exact each ran h
      · rw [hran]
        exact ⟨hle, hge⟩
    · rw [hrun]
      dsimp only
      rw [htotal', htotal, total, hran, Array.sum_push, UInt64.ofNat_add, UInt64.add_assoc]

lemma runFrames_pending (c : Computer P) (hv : c.config.vblankInterrupt = true) (i : Nat)
    (hi : (c.runFrames i).2.config = c.config) : (c.runFrames (i + 1)).2.cpu.pending =
      some (if (c.runFrames i).2.untilBlank.2.pending = some .nonMaskable then .nonMaskable else .maskable) := by
  obtain ⟨_, -, heard⟩ := (c.runFrames i).2.runFrame_heard
  obtain ⟨-, -, halike⟩ := heard P _ (.refl _)
  rw [runFrames_succ, ← blanked_pending _ (hi ▸ hv)]
  exact (congrArg Machine.pending halike.machine).symm

end Computer

/-- What `x` may return has the property `p`. -/
def Yields {m : Type → Type} [Functor m] {α : Type} (x : m α) (p : α → Prop) : Prop :=
  ∃ y : m { a // p a }, Subtype.val <$> y = x

namespace Yields

variable {m : Type → Type} [Monad m] [LawfulMonad m] {α β : Type} {p q : α → Prop} {r : β → Prop}

lemma pure {a : α} (h : p a) : Yields (m := m) (Pure.pure a) p :=
  ⟨Pure.pure ⟨a, h⟩, by simp⟩

lemma bind {x : m α} {f : α → m β} (hx : Yields x p) (hf : ∀ a, p a → Yields (f a) r) : Yields (x >>= f) r := by
  obtain ⟨y, rfl⟩ := hx
  choose g hg using hf
  refine ⟨y >>= fun a => g a.1 a.2, ?_⟩
  simp [hg]

lemma mono {x : m α} (hx : Yields x p) (h : ∀ a, p a → q a) : Yields x q := by
  obtain ⟨y, rfl⟩ := hx
  exact ⟨(fun a => ⟨a.1, h a.1 a.2⟩) <$> y, by simp [Functor.map_map]⟩

end Yields

namespace Computer

variable {P : Type} [Peripheral P]

lemma runFrames_cons (c : Computer P) (n : Nat) : (c.runFrames (n + 1)).2 = (c.runFrame.2.runFrames n).2 := by
  induction n with
  | zero => rfl
  | succ n ih => rw [runFrames_succ c (n + 1), ih, runFrames_succ c.runFrame.2 n]

def withLog (c : Computer P) (log : Log) : Computer P :=
  { c with cpu := { c.cpu with log } }

theorem runPaced_yields {m : Type → Type} [Monad m] [LawfulMonad m] {pace : Computer P → m (Computer P)}
    (hpace : ∀ d, Yields (pace d) fun e => ∃ log, e = d.withLog log) {c d : Computer P} (h : Alike c d)
    (hp : d.peripherals = c.peripherals) (n : Nat) : Yields (d.runPaced pace n) fun e =>
      Alike (c.runFrames n).2 e ∧ e.peripherals = (c.runFrames n).2.peripherals := by
  induction n generalizing c d with
  | zero => exact .pure ⟨h, hp⟩
  | succ n ih =>
    -- the first frame is the same on both sides, and the pause behind it changes only the log
    obtain ⟨_, -, heard⟩ := c.runFrame_heard
    obtain ⟨-, hc, -⟩ := heard P c (.refl c)
    obtain ⟨-, hd, -⟩ := heard P d h
    rw [runFrames_cons]
    refine (hpace d.runFrame.2).bind ?_
    rintro _ ⟨log, rfl⟩
    obtain ⟨cpu, config, chunkCycles, frames⟩ := h.runFrame
    exact ih ⟨⟨cpu.machine, cpu.idle⟩, config, chunkCycles, frames⟩ (by rw [hc, ← hp]; exact hd)

lemma yields_afterFrame (filter : Filter) (started : Nat) (due : IO.Ref Nat) (realtime : Bool) (c : Computer Meter) :
    Yields (Program.afterFrame filter started due realtime c) fun e => ∃ log, e = c.withLog log := by
  have any {α : Type} (x : IO α) : Yields x fun _ => True := ⟨(⟨·, trivial⟩) <$> x, by simp⟩
  unfold Program.afterFrame
  refine (any _).bind fun _ _ => ?_
  split
  · exact .pure ⟨_, rfl⟩
  refine (any _).bind fun _ _ => (any _).bind fun _ _ => ?_
  split
  · exact (any _).bind fun _ _ => (any _).bind fun _ _ => .pure ⟨_, rfl⟩
  split
  · exact (any _).bind fun _ _ => .pure ⟨_, rfl⟩
  · exact (any _).bind fun _ _ => .pure ⟨_, rfl⟩

/-- What `n` frames of a machine that is not paused come to, taken one by one or between a host's pauses. Frames
of no cycles, as rates above the frequency of the crystal give them, are no exception. -/
theorem runFrames_accounting (c : Computer P) (h : Reachable True c.cpu) (hl : c.cpu.lifecycle ≠ .paused) (n : Nat) :
    let x := c.runFrames n
    Reachable True x.2.cpu ∧
    (∃ amounts : List (List Nat),
      (∀ (Q : Type) [Peripheral Q] (qs : List Q), ((c.equip qs).runFrames n).1 = x.1 ∧
        ((c.equip qs).runFrames n).2.peripherals = qs.map fun q => amounts.flatten.foldl Peripheral.update q) ∧
      amounts.map List.sum = x.1.toList ∧ amounts.flatten.sum = x.1.sum) ∧
    x.2.cpu.total - c.cpu.total = UInt64.ofNat x.1.sum ∧
    x.1.size = n ∧
    (∀ ran ∈ x.1, c.cyclesPerFrame ≤ ran ∧ ran ≤ c.cyclesPerFrame + 28) ∧
    n * c.cyclesPerFrame ≤ x.1.sum ∧ x.1.sum ≤ n * (c.cyclesPerFrame + 28) ∧
    x.2.frames = c.frames + n ∧
    (c.config.vblankInterrupt = true → ∀ i < n, (c.runFrames (i + 1)).2.cpu.pending =
      some (if (c.runFrames i).2.untilBlank.2.pending = some .nonMaskable then .nonMaskable else .maskable)) ∧
    ∀ (m : Type → Type) [Monad m] [LawfulMonad m] (pace : Computer P → m (Computer P)),
      (∀ d, Yields (pace d) fun e => ∃ log, e = d.withLog log) →
      Yields (c.runPaced pace n) fun d => d.cpu.machine = x.2.cpu.machine ∧ d.peripherals = x.2.peripherals ∧
        d.frames = x.2.frames ∧ ∀ elapsed, (Summary.ofRun n elapsed c d).cycles = UInt64.ofNat x.1.sum := by
  intro x
  obtain ⟨live, cyclesPerFrame, config, frames, size, each, total⟩ := c.ran ⟨hl, h.timed⟩ n
  have htotal : x.2.cpu.total - c.cpu.total = UInt64.ofNat x.1.sum := by
    rw [total, UInt64.add_comm, UInt64.add_sub_cancel]
  refine ⟨reachable_runFrames h n, ?_, htotal, size, each, ?_, ?_, frames, ?_, ?_⟩
  · obtain ⟨amounts, heard⟩ := c.runFrames_heard n
    obtain ⟨hx, -, -⟩ := heard P c (.refl c)
    refine ⟨amounts, fun Q _ qs => ?_, hx.symm, ?_⟩
    · obtain ⟨hran, hperipherals, -⟩ := heard Q _ (c.alike_equip qs)
      exact ⟨Array.toList_inj.mp (hran.trans hx.symm), hperipherals⟩
    · rw [List.sum_flatten, ← hx, Array.sum_toList]
  · have hle := List.card_nsmul_le_sum x.1.toList c.cyclesPerFrame fun ran hran => (each ran (by simpa using hran)).1
    simpa [x, size] using hle
  · have hle := List.sum_le_card_nsmul x.1.toList _ fun ran hran => (each ran (by simpa using hran)).2
    simpa [x, size] using hle
  · exact fun hv i _ => c.runFrames_pending hv i (c.ran ⟨hl, h.timed⟩ i).config
  · intro m _ _ pace hpace
    refine (runPaced_yields hpace (.refl c) rfl n).mono fun d ⟨hd, hp⟩ => ?_
    refine ⟨hd.cpu.machine.symm, hp, hd.frames.symm, fun elapsed => ?_⟩
    rw [← htotal, show x.2.cpu.total = d.cpu.total from congrArg Machine.total hd.cpu.machine]
    rfl

theorem runFrames_accounting_spinning :
    let c : Computer Meter := { cpu := { bus := Board.mapMemory (·.poke 1 0xC3) {} }, peripherals := [{ name := "" }] }
    Reachable True c.cpu ∧ c.cpu.lifecycle ≠ .paused ∧
      133120 ≤ (c.runFrames 2).1.sum ∧ (c.runFrames 2).1.sum ≤ 133176 := by
  intro c
  have hc : Reachable True c.cpu := .new _
  have hl : c.cpu.lifecycle ≠ .paused := by decide
  have hcycles : c.cyclesPerFrame = 66560 := by decide +kernel
  obtain ⟨-, -, -, -, -, hle, hge, -⟩ := runFrames_accounting c hc hl 2
  rw [hcycles] at hle hge
  exact ⟨hc, hl, hle, hge⟩

end Computer

end Z80Machine
