import Z80Machine.Proofs.Genuine
import Z80Machine.Proofs.Operands
import Z80Machine.Proofs.Rounds

/-! No idle loop is missed. Instructions that only ask and come back to where they began go round for ever, and when they
have gone round twice the history ends with two equal rounds, whatever was in it before. -/

namespace Z80Machine

open Idle

lemma Core.outcome_address {B : Type} [Bus B] (c : Core) (mode : ClockMode) (bus : B) :
    (c.outcome mode bus).instruction.address = c.regs.pc := by
  obtain ⟨opcode, rest, e, -, hupcoming, -⟩ := c.exists_upcoming bus
  rw [outcome_instruction, hupcoming]
  rfl

namespace Idle

namespace Detector

lemma find_ne_none {history : List Entry} {threshold n : Nat} (h2 : 2 ≤ n) (hle : n ≤ threshold)
    (h : repeats history n = true) : find? history threshold ≠ none := by
  have hmem : n ∈ List.range' 2 (threshold - 1) := List.mem_range'_1.mpr ⟨h2, by omega⟩
  obtain ⟨k, hk⟩ := Option.isSome_iff_exists.mp (List.find?_isSome.mpr ⟨n, hmem, h⟩)
  have hpos : history ≠ [] := by
    rintro rfl
    simp [repeats] at h
  obtain ⟨last, older, rfl⟩ := List.exists_cons_of_ne_nil hpos
  simp [find?, hk]

lemma observe_safe {d : Detector} (hon : d.config.enabled = true) (ha : d.active = none) (step : Step)
    (after : Registers) :
    let history := (⟨step, after⟩ :: d.history).take (2 * d.config.threshold)
    (d.observe step true after).value.active ≠ none ∨
      find? history d.config.threshold = none ∧ (d.observe step true after).value = { d with history } := by
  dsimp only
  cases hfind : find? ((⟨step, after⟩ :: d.history).take (2 * d.config.threshold)) d.config.threshold with
  | none => simp [observe, hon, ha, hfind]
  | some loop => simp [observe, hon, ha, hfind]

end Detector

namespace Ground

variable {B : Type} [Bus B] (g : Ground B) (x : Registers)

def way (n : Nat) : Registers :=
  g.next^[n] (g.mask x)

variable {g x}

lemma way_succ (n : Nat) : g.way x (n + 1) = g.next (g.way x n) :=
  Function.iterate_succ_apply' g.next n (g.mask x)

lemma mask_way (n : Nat) : g.mask (g.way x n) = g.way x n := by
  cases n with
  | zero => rfl
  | succ n =>
    rw [way_succ]
    rfl

lemma way_around {n : Nat} (hback : g.way x n = g.mask x) (i : Nat) : g.way x (n + i) = g.way x i := by
  rw [way, Nat.add_comm, Function.iterate_add_apply, show g.next^[n] (g.mask x) = g.mask x from hback, way]

end Ground

end Idle

namespace Cpu

variable {B : Type} [Bus B]

def ground (c : Cpu B) : Ground B :=
  c.machine.ground c.regs.iff2

def way (c : Cpu B) (n : Nat) : Registers :=
  c.ground.way c.regs n

structure Along (c d : Cpu B) (n : Nat) : Prop where
  mode : d.clock.mode = c.clock.mode
  bus : d.bus = c.bus
  core : ∃ r, { d.core with eiDelay := false } = c.ground.core (c.way n) r c.regs.iff1

variable {c d e : Cpu B} {n : Nat}

lemma along_self (hh : c.core.halted = false) : c.Along c 0 where
  mode := rfl
  bus := rfl
  core := ⟨c.regs.r, (c.ground.core_mask (c := { c.core with eiDelay := false }) hh rfl rfl).symm⟩

namespace Along

variable (h : c.Along d n)
include h

lemma halted : d.core.halted = false := by
  obtain ⟨r, hcore⟩ := h.core
  exact congrArg Core.halted hcore

lemma mask_regs : c.ground.mask d.regs = c.way n := by
  obtain ⟨r, hcore⟩ := h.core
  have hregs : d.regs = (c.way n).veil r c.regs.iff1 c.regs.iff2 := congrArg Core.regs hcore
  rw [hregs]
  exact Ground.mask_way n

lemma safe : d.outcome.safe = (c.ground.outcome (c.way n)).safe := by
  have hmask := c.ground.safe_mask d.core
  rw [show c.ground.mask d.core.regs = c.way n from h.mask_regs] at hmask
  rw [hmask, Cpu.outcome, h.mode, h.bus]
  rfl

lemma outcome (hs : d.outcome.safe = true) :
    ∃ r, d.outcome = { c.ground.outcome (c.way n) with core := c.ground.core (c.way (n + 1)) r c.regs.iff1 } := by
  obtain ⟨r, hcore⟩ := h.core
  have ho : d.outcome = (c.ground.core (c.way n) r c.regs.iff1).outcome c.ground.mode c.ground.bus := by
    rw [Cpu.outcome, h.mode, h.bus, ← hcore]
    rfl
  have hmask : c.ground.mask (c.way n) = c.way n := Ground.mask_way n
  have hy : (c.way n).iff2 = c.ground.iff2 := by
    rw [← hmask]
    rfl
  rw [h.safe] at hs
  rw [Ground.outcome_core hy hs] at ho
  exact ⟨_, ho.trans (by rw [way, way, Ground.way_succ])⟩

lemma next [QuietBus B] (hs : d.outcome.safe = true) (hclock : e.clock = d.clock) (hcore : e.core = d.outcome.core)
    (hbus : e.bus = d.outcome.bus) : c.Along e (n + 1) where
  mode := by rw [hclock, h.mode]
  bus := by rw [hbus, ← h.bus, Cpu.outcome, Core.outcome_bus _ _ _ hs]
  core := by
    obtain ⟨r, ho⟩ := h.outcome hs
    rw [hcore, ho]
    exact ⟨r, rfl⟩

end Along

lemma instructions_succ (c : Cpu B) (n : Nat) :
    (c.instructions (n + 1)).2 = (c.instructions n).2.runInstruction.2 := by
  induction n generalizing c with
  | zero => rfl
  | succ n ih => exact ih c.runInstruction.2

lemma along_instructions [QuietBus B] (hh : c.core.halted = false)
    (hs : ∀ i < n, (c.instructions i).2.outcome.safe = true) : c.Along (c.instructions n).2 n := by
  induction n with
  | zero => exact along_self hh
  | succ n ih =>
    have h := ih fun i hi => hs i (Nat.lt_succ_of_lt hi)
    rw [instructions_succ]
    obtain ⟨trace, log, hrun⟩ := (c.instructions n).2.runInstruction_eq
    rw [hrun]
    exact h.next (hs n (Nat.lt_succ_self n)) rfl rfl rfl

def entry (c : Cpu B) (n : Nat) (r : UInt8) : Entry where
  step := (c.ground.outcome (c.way n)).step
  after := (c.way (n + 1)).veil r c.regs.iff1 c.regs.iff2

def Recorded (c : Cpu B) (n : Nat) (history : List Entry) : Prop :=
  ∀ k i, k + i + 1 = n → k < 2 * c.idle.config.threshold → ∃ r, history[k]? = some (c.entry i r)

lemma Recorded.cons {history : List Entry} (h : c.Recorded n history) (r : UInt8) :
    c.Recorded (n + 1) ((c.entry n r :: history).take (2 * c.idle.config.threshold)) := by
  intro k i hk hlt
  rw [List.getElem?_take_of_lt hlt]
  cases k with
  | zero =>
    obtain rfl : i = n := by omega
    exact ⟨r, rfl⟩
  | succ k => exact h k i (by omega) (by omega)

section

variable {history : List Entry} (h : c.Recorded (2 * n) history) (hle : n ≤ c.idle.config.threshold)
  (around : ∀ i, c.way (n + i) = c.way i)
include h hle around

lemma Recorded.steps_eq : (history.take n).map Entry.step = ((history.drop n).take n).map Entry.step := by
  apply List.ext_getElem?
  intro k
  rcases Nat.lt_or_ge k n with hk | hk
  · obtain ⟨_, hnewer⟩ := h k (n + (n - 1 - k)) (by omega) (by omega)
    obtain ⟨_, holder⟩ := h (n + k) (n - 1 - k) (by omega) (by omega)
    rw [List.getElem?_map, List.getElem?_map, List.getElem?_take_of_lt hk, List.getElem?_take_of_lt hk,
      List.getElem?_drop, hnewer, holder]
    simp only [entry, around, Option.map_some]
  · have hnewer : ((history.take n).map Entry.step).length ≤ k := by simp; omega
    have holder : (((history.drop n).take n).map Entry.step).length ≤ k := by simp; omega
    rw [List.getElem?_eq_none hnewer, List.getElem?_eq_none holder]

lemma Recorded.repeats (hpos : 0 < n) : Detector.repeats history n = true := by
  obtain ⟨r, hlast⟩ := h 0 (2 * n - 1) (by omega) (by omega)
  obtain ⟨_, hfirst⟩ := h (n - 1) n (by omega) (by omega)
  obtain ⟨s, hbefore⟩ := h n (n - 1) (by omega) (by omega)
  obtain ⟨_, holdest⟩ := h (2 * n - 1) 0 (by omega) (by omega)
  have hlen : 2 * n ≤ history.length := by
    have hlt := (List.getElem?_eq_some_iff.mp holdest).1
    omega
  have hround : c.way (2 * n - 1 + 1) = c.way n := by
    rw [show 2 * n - 1 + 1 = n + n by omega, around]
  have hpc : (c.entry (2 * n - 1) r).after.pc = (c.entry n 0).step.pc := by
    rw [entry, hround]
    exact (Core.outcome_address { regs := c.way n } c.ground.mode c.ground.bus).symm
  have hsame : (c.entry (n - 1) s).after.sameButRefresh (c.entry (2 * n - 1) r).after = true := by
    simp only [entry, hround, Nat.sub_add_cancel hpos, Registers.sameButRefresh, Registers.veil, beq_self_eq_true]
  simp only [Detector.repeats, hlast, hfirst, hbefore, h.steps_eq hle around, hsame, decide_eq_true hlen,
    beq_self_eq_true, Bool.true_and, Bool.and_true, beq_iff_eq]
  exact hpc

end

structure Seeking (c d : Cpu B) (n : Nat) : Prop where
  along : c.Along d n
  lifecycle : d.lifecycle ≠ .paused
  pending : d.pending = none
  config : d.idle.config = c.idle.config
  active : d.idle.active = none
  recorded : c.Recorded n d.idle.history
  unfound : 0 < n → Detector.find? d.idle.history c.idle.config.threshold = none

namespace Seeking

variable (h : c.Seeking d n)
include h

lemma stepKind (budget : Nat) : d.stepKind budget = .instruction := by
  have hskip : d.skippable? budget = none := by rw [skippable?, h.active, Option.filter_none]
  simp only [Cpu.stepKind, if_neg h.lifecycle, h.pending, Option.filter_none, h.along.halted, hskip,
    Bool.false_eq_true, if_false]

lemma step [QuietBus B] (hon : c.idle.config.enabled = true) (hs : (c.ground.outcome (c.way n)).safe = true)
    (budget : Nat) : (d.step budget).2.idle.active ≠ none ∨ c.Seeking (d.step budget).2 (n + 1) := by
  have hstepped := d.stepped budget
  rw [h.stepKind budget] at hstepped
  obtain ⟨-, hm, hidle⟩ := hstepped.of_instruction
  have hs' : d.outcome.safe = true := h.along.safe.trans hs
  rw [hs'] at hidle
  rcases Detector.observe_safe (h.config ▸ hon) h.active d.outcome.step d.outcome.core.regs with hfound | ⟨hnone, hd⟩
  · left
    rwa [hidle]
  · right
    rw [h.config] at hnone
    rw [hd, h.config] at hidle
    obtain ⟨r, ho⟩ := h.along.outcome hs'
    refine ⟨h.along.next hs' (congrArg Machine.clock hm) (congrArg Machine.core hm) (congrArg Machine.bus hm),
      hstepped.lifecycle h.lifecycle, (congrArg Machine.pending hm).trans h.pending, ?_, ?_, ?_, fun _ => ?_⟩
    · rw [hidle]
    · rw [hidle]
      exact h.active
    · rw [hidle, ho]
      exact h.recorded.cons r
    · rw [hidle]
      exact hnone

end Seeking

lemma Seeking.run [QuietBus B] (h : c.Seeking c 0) (hon : c.idle.config.enabled = true) (budget : Nat → Nat)
    (hs : ∀ i < n, (c.ground.outcome (c.way i)).safe = true) :
    (∃ j ≤ n, (∀ i < j, (c.stepsWithin budget i).2.stepKind (budget i) = .instruction) ∧
        (c.stepsWithin budget j).2.idle.active ≠ none) ∨
      (∀ i < n, (c.stepsWithin budget i).2.stepKind (budget i) = .instruction) ∧
        c.Seeking (c.stepsWithin budget n).2 n := by
  induction n with
  | zero => exact .inr ⟨fun i hi => absurd hi (Nat.not_lt_zero i), h⟩
  | succ n ih =>
    rcases ih fun i hi => hs i (Nat.lt_succ_of_lt hi) with ⟨j, hj, hkind, hfound⟩ | ⟨hkind, hn⟩
    · exact .inl ⟨j, Nat.le_succ_of_le hj, hkind, hfound⟩
    · have hkind' : ∀ i < n + 1, (c.stepsWithin budget i).2.stepKind (budget i) = .instruction := by
        intro i hi
        rcases Nat.lt_succ_iff_lt_or_eq.mp hi with hi | rfl
        · exact hkind i hi
        · exact hn.stepKind _
      rcases hn.step hon (hs n (Nat.lt_succ_self n)) (budget n) with hfound | hnext
      · exact .inl ⟨n + 1, Nat.le_refl _, hkind', hfound⟩
      · exact .inr ⟨hkind', hnext⟩

/-- If so many instructions from here on only ask and come back, a loop is active before they have gone round twice. -/
theorem loop_detected [QuietBus B] (c : Cpu B) (hl : c.lifecycle ≠ .paused) (hh : c.core.halted = false)
    (hp : c.pending = none) (hon : c.idle.config.enabled = true) (ha : c.idle.active = none) {n : Nat} (h2 : 2 ≤ n)
    (hle : n ≤ c.idle.config.threshold) (hs : ∀ i < n, (c.instructions i).2.outcome.safe = true)
    (hback : (c.instructions n).2.regs.sameButRefresh c.regs = true) (budget : Nat → Nat) :
    ∃ j ≤ 2 * n, (∀ i < j, (c.stepsWithin budget i).2.stepKind (budget i) = .instruction) ∧
      (c.stepsWithin budget j).2.idle.active ≠ none := by
  have hround : c.way n = c.ground.mask c.regs := by
    rw [← (along_instructions hh hs).mask_regs]
    exact c.ground.mask_eq_of_sameButRefresh hback
  have around (i : Nat) : c.way (n + i) = c.way i := Ground.way_around hround i
  have hsafe (i : Nat) (hi : i < n) : (c.ground.outcome (c.way i)).safe = true := by
    rw [← (along_instructions hh fun k hk => hs k (hk.trans hi)).safe]
    exact hs i hi
  have hsafe' : ∀ i < 2 * n, (c.ground.outcome (c.way i)).safe = true := by
    intro i hi
    rcases Nat.lt_or_ge i n with hlt | hge
    · exact hsafe i hlt
    · obtain ⟨k, rfl⟩ := Nat.exists_eq_add_of_le hge
      rw [around]
      exact hsafe k (by omega)
  have hstart : c.Seeking c 0 :=
    ⟨along_self hh, hl, hp, rfl, ha, fun k i hk => absurd hk (Nat.succ_ne_zero _), fun h => absurd h (Nat.lt_irrefl 0)⟩
  rcases hstart.run hon budget hsafe' with hfound | ⟨-, hseeking⟩
  · exact hfound
  · have hrepeats := hseeking.recorded.repeats hle around (by omega)
    exact absurd (hseeking.unfound (by omega)) (Detector.find_ne_none h2 hle hrepeats)

def spinning : Cpu Board where
  bus := Board.mapMemory (fun m => (m.poke 1 0x18).poke 2 0xFD) {}
  idle := { config := { threshold := 2 }, history := [⟨⟨7, 0, 4, 1⟩, { pc := 8 }⟩] }

theorem loop_detected_spinning :
    ((∀ i < 2, (spinning.instructions i).2.outcome.safe = true) ∧
        (spinning.instructions 2).2.regs.sameButRefresh spinning.regs = true) ∧
      (∃ j ≤ 2 * 2, (∀ i < j, (spinning.stepsWithin (fun _ => unbounded) i).2.stepKind unbounded = .instruction) ∧
        (spinning.stepsWithin (fun _ => unbounded) j).2.idle.active ≠ none) ∧
      (spinning.stepsWithin (fun _ => unbounded) 3).2.idle.active = none ∧
      (spinning.stepsWithin (fun _ => unbounded) 4).2.idle.active = some ⟨0, 2, 16, 2⟩ := by
  have hs : ∀ i < 2, (spinning.instructions i).2.outcome.safe = true := by decide +kernel
  have hback : (spinning.instructions 2).2.regs.sameButRefresh spinning.regs = true := by decide +kernel
  have hfound := loop_detected spinning (by decide) (by decide) (by decide) (by decide) (by decide)
    (Nat.le_refl 2) (Nat.le_refl 2) hs hback fun _ => unbounded
  exact ⟨⟨hs, hback⟩, hfound, by decide +kernel, by decide +kernel⟩

end Cpu

end Z80Machine
