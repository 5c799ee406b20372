import Mathlib.Algebra.BigOperators.Group.Finset.Basic
import Mathlib.Algebra.GroupWithZero.Nat
import Mathlib.Logic.Function.Iterate
import Z80Machine.Proofs.Outcome

/-! Idle loops as orbits. On ground that does not change, an instruction is a function of the registers behind the veil,
and a block that repeats in the history and left the registers alone closes an orbit of that function. -/

namespace Z80Machine.Idle

open Finset

lemma Detector.find_eq_some {history : List Entry} {threshold : Nat} {loop : Loop}
    (h : find? history threshold = some loop) :
    ∃ n, 2 ≤ n ∧ repeats history n ∧ ∃ last ∈ history.head?, loopOf history last.after.pc n = loop := by
  simp only [find?, Option.bind_eq_bind, Option.bind_eq_some_iff, Option.pure_def, Option.some.injEq] at h
  obtain ⟨n, hfind, last, hlast, hloop⟩ := h
  have hn := List.mem_of_find?_eq_some hfind
  rw [List.mem_range'_1] at hn
  exact ⟨n, hn.1, List.find?_some hfind, last, hlast, hloop⟩

lemma Detector.loopOf_cycles (history : List Entry) (start : UInt16) (n : Nat) :
    (loopOf history start n).cycles = ((history.take n).map (·.step.cycles)).sum := by
  simp only [loopOf, List.foldr_map, List.sum_eq_foldr]

lemma Detector.loopOf_fetches (history : List Entry) (start : UInt16) (n : Nat) :
    (loopOf history start n).fetches = ((history.take n).map (·.step.fetches)).sum := by
  simp only [loopOf, List.foldr_map, List.sum_eq_foldr]

/-- What a loop stands on. The second flip-flop is the one thing behind the veil that an instruction may look at. -/
structure Ground (B : Type) where
  mode : ClockMode
  bus : B
  iff2 : Bool

namespace Ground

variable {B : Type} (g : Ground B)

def mask (r : Registers) : Registers :=
  r.veil 0 false g.iff2

lemma mask_eq_of_sameButRefresh {r s : Registers} (h : r.sameButRefresh s) : g.mask r = g.mask s := by
  have hr : ({ r with r := 0 } : Registers) = { s with r := 0 } := by
    simpa only [Registers.sameButRefresh, beq_iff_eq] using h
  exact congrArg (·.veil 0 false g.iff2) hr

lemma mask_of_repeats {history : List Entry} {n : Nat} (hpos : 0 < n) (h : Detector.repeats history n) :
    ∃ hn : n < history.length, g.mask history[n].after = g.mask history[0].after := by
  simp only [Detector.repeats, Bool.and_eq_true, decide_eq_true_eq] at h
  obtain ⟨hlen, h⟩ := h
  have hlt : n < history.length := by omega
  refine ⟨hlt, ?_⟩
  rw [List.getElem?_eq_getElem (by omega : 0 < history.length), List.getElem?_eq_getElem hlt,
    List.getElem?_eq_getElem (by omega : n - 1 < history.length)] at h
  simp only [Bool.and_eq_true] at h
  exact g.mask_eq_of_sameButRefresh h.2

def core (y : Registers) (r : UInt8) (iff1 : Bool) : Core :=
  { regs := y.veil r iff1 g.iff2 }

lemma core_mask {c : Core} (hh : c.halted = false) (he : c.eiDelay = false) (hq : c.regs.iff2 = g.iff2) :
    g.core (g.mask c.regs) c.regs.r c.regs.iff1 = c := by
  obtain ⟨regs, halted, eiDelay⟩ := c
  rw [show halted = false from hh, show eiDelay = false from he, core, ← hq]
  rfl

lemma core_refresh {c : Core} (hh : c.halted = false) (he : c.eiDelay = false) (hq : c.regs.iff2 = g.iff2)
    (n : Nat) : g.core (g.mask c.regs) (Registers.refreshed c.regs.r n) c.regs.iff1 =
      { c with regs := c.regs.refresh n } :=
  g.core_mask (c := { c with regs := c.regs.refresh n }) hh he hq

variable [Bus B]

def outcome (x : Registers) : Outcome B :=
  Core.outcome { regs := x } g.mode g.bus

def next (x : Registers) : Registers :=
  g.mask (g.outcome x).core.regs

def Follows (older newer : Entry) : Prop :=
  (g.outcome (g.mask older.after)).safe = true ∧ (g.outcome (g.mask older.after)).step = newer.step ∧
    g.next (g.mask older.after) = g.mask newer.after

structure Orbit (x : Registers) (loop : Loop) : Prop where
  pos : 0 < loop.length
  back : g.next^[loop.length] x = x
  safe : ∀ i < loop.length, (g.outcome (g.next^[i] x)).safe = true
  cycles : ∑ i ∈ range loop.length, (g.outcome (g.next^[i] x)).cycles = loop.cycles
  fetches : ∑ i ∈ range loop.length, (g.outcome (g.next^[i] x)).instruction.shape.fetches = loop.fetches

end Ground

lemma sum_range_next {α : Type} {f : α → α} {x : α} {n : Nat} (h : f^[n] x = x) (w : α → Nat) :
    ∑ i ∈ range n, w (f^[i] (f x)) = ∑ i ∈ range n, w (f^[i] x) := by
  have hs := sum_range_succ (fun i => w (f^[i] x)) n
  rw [sum_range_succ' (fun i => w (f^[i] x)) n, h] at hs
  simpa only [Function.iterate_succ_apply, Function.iterate_zero_apply, Nat.add_right_cancel_iff] using hs

namespace Ground

variable {B : Type} [Bus B] {g : Ground B}

theorem Orbit.next {x : Registers} {loop : Loop} (h : g.Orbit x loop) : g.Orbit (g.next x) loop where
  pos := h.pos
  back := by rw [← Function.iterate_succ_apply, Function.iterate_succ_apply', h.back]
  safe i hi := by
    rw [← Function.iterate_succ_apply]
    rcases Nat.lt_or_ge (i + 1) loop.length with hlt | hge
    · exact h.safe _ hlt
    · have hi' : i.succ = loop.length := by omega
      rw [hi', h.back]
      exact h.safe 0 h.pos
  cycles := (sum_range_next h.back fun y => (g.outcome y).cycles).trans h.cycles
  fetches := (sum_range_next h.back fun y => (g.outcome y).instruction.shape.fetches).trans h.fetches

/-! Between the registers and the mask -/

variable (g) in
lemma instruction_mask (c : Core) :
    (g.outcome (g.mask c.regs)).instruction = (c.outcome g.mode g.bus).instruction := by
  simp only [outcome, Core.outcome, Core.untraced, Dialogue.run_bind, Dialogue.run]
  rfl

variable (g) in
lemma safe_mask (c : Core) : (g.outcome (g.mask c.regs)).safe = (c.outcome g.mode g.bus).safe :=
  congrArg Instruction.idleSafe (g.instruction_mask c)

variable {c : Core}

lemma outcome_mask (hh : c.halted = false) (hs : (c.outcome g.mode g.bus).safe)
    (hq : (c.outcome g.mode g.bus).instruction.op = .loadAI → g.iff2 = c.regs.iff2) :
    (g.outcome (g.mask c.regs)).step = (c.outcome g.mode g.bus).step ∧
      g.next (g.mask c.regs) = g.mask (c.outcome g.mode g.bus).core.regs := by
  have hc : g.outcome (g.mask c.regs) = (c.veil 0 false g.iff2).outcome g.mode g.bus := by
    obtain ⟨regs, halted, eiDelay⟩ := c
    rw [show halted = false from hh]
    rfl
  rw [next, hc, c.outcome_veil g.mode g.bus 0 false g.iff2 hs hq]
  generalize c.outcome g.mode g.bus = o
  exact ⟨rfl, rfl⟩

/-! Behind the veil and back -/

theorem outcome_core {y : Registers} (hy : y.iff2 = g.iff2) (hs : (g.outcome y).safe) (r : UInt8) (iff1 : Bool) :
    (g.core y r iff1).outcome g.mode g.bus = { g.outcome y with
      core := g.core (g.next y) (Registers.refreshed r (g.outcome y).instruction.shape.fetches) iff1 } := by
  have hh := Core.outcome_halted { regs := y } g.mode g.bus hs
  have he := Core.outcome_eiDelay { regs := y } g.mode g.bus hs
  have h := Core.outcome_veil { regs := y } g.mode g.bus r iff1 g.iff2 hs fun _ => hy.symm
  rw [show g.core y r iff1 = Core.veil { regs := y } r iff1 g.iff2 from rfl, h, next, outcome]
  generalize Core.outcome { regs := y } g.mode g.bus = o at hh he
  obtain ⟨opcode, instruction, ⟨regs, halted, eiDelay⟩, cycles, bus⟩ := o
  cases hh
  cases he
  rfl

/-! The history -/

lemma trail {history : List Entry} (hc : history.IsChain fun newer older => g.Follows older newer) (n : Nat)
    (hn : n < history.length) :
    g.next^[n] (g.mask history[n].after) = g.mask history[0].after ∧
      (∀ i < n, (g.outcome (g.next^[i] (g.mask history[n].after))).safe = true) ∧
      ∑ i ∈ range n, (g.outcome (g.next^[i] (g.mask history[n].after))).cycles =
        ((history.take n).map (·.step.cycles)).sum ∧
      ∑ i ∈ range n, (g.outcome (g.next^[i] (g.mask history[n].after))).instruction.shape.fetches =
        ((history.take n).map (·.step.fetches)).sum := by
  induction n generalizing history with
  | zero => simp
  | succ n ih =>
    match history, hc, hn with
    | newest :: second :: older, hc, hn =>
      rw [List.isChain_cons_cons] at hc
      obtain ⟨⟨hsafe, hstep, hnext⟩, hc⟩ := hc
      obtain ⟨hback, hsafes, hcycles, hfetches⟩ := ih hc (by simpa using hn)
      have hc' : (g.outcome (g.mask second.after)).cycles = newest.step.cycles := congrArg Step.cycles hstep
      have hf' : (g.outcome (g.mask second.after)).instruction.shape.fetches = newest.step.fetches :=
        congrArg Step.fetches hstep
      simp only [List.getElem_cons_succ, List.getElem_cons_zero, List.take_succ_cons, List.map_cons,
        List.sum_cons] at hback ⊢
      refine ⟨?_, fun i hi => ?_, ?_, ?_⟩
      · rw [Function.iterate_succ_apply', hback, hnext]
      · rcases Nat.lt_succ_iff_lt_or_eq.mp hi with hi | rfl
        · exact hsafes i hi
        · rwa [hback]
      · rw [sum_range_succ, hcycles, hback, hc', Nat.add_comm]
      · rw [sum_range_succ, hfetches, hback, hf', Nat.add_comm]

lemma orbit_of_back {history : List Entry} {n : Nat} (hpos : 0 < n) (hn : n < history.length)
    (hc : (history.take (n + 1)).IsChain fun newer older => g.Follows older newer)
    (hmask : g.mask history[n].after = g.mask history[0].after) (start : UInt16) :
    g.Orbit (g.mask history[0].after) (Detector.loopOf history start n) := by
  obtain ⟨hback, hsafe, hcycles, hfetches⟩ := trail hc n (by rw [List.length_take]; omega)
  simp only [List.getElem_take, List.take_take, hmask] at hback hsafe hcycles hfetches
  rw [Nat.min_eq_left (Nat.le_succ n)] at hcycles hfetches
  refine ⟨hpos, hback, hsafe, ?_, ?_⟩
  · rwa [Detector.loopOf_cycles]
  · rwa [Detector.loopOf_fetches]

theorem orbit_of_find {history : List Entry} (hc : history.IsChain fun newer older => g.Follows older newer)
    {threshold : Nat} {loop : Loop} (h : Detector.find? history threshold = some loop) :
    ∃ last ∈ history.head?, g.Orbit (g.mask last.after) loop := by
  obtain ⟨n, hn2, hrepeats, last, hlast, hloop⟩ := Detector.find_eq_some h
  -- That the steps came twice is not needed: on this ground the registers alone decide what comes next.
  obtain ⟨hn, hmask⟩ := g.mask_of_repeats (by omega) hrepeats
  have hlast' : history[0] = last := by
    rw [List.head?_eq_getElem?, List.getElem?_eq_getElem (by omega)] at hlast
    exact Option.some.inj hlast
  refine ⟨last, hlast, ?_⟩
  rw [← hloop, ← hlast']
  exact orbit_of_back (by omega) hn (hc.take (n + 1)) hmask _

end Ground

end Z80Machine.Idle
