import Mathlib.Data.Nat.Find
import Z80Machine.Proofs.Rounds

/-! The block searches `CPIR` and `CPDR`. Their rounds write nothing, so the detector follows them. It finds no loop
among them, since no two of them leave the same counter. -/

namespace Z80Machine

open Bus Idle

namespace Block

variable {B : Type} [Bus B] (dir : Direction) (s : Registers × B)

lemma turn_compare_bus [SteadyBus B] : (turn .compare dir s).2 = s.2 :=
  SteadyBus.bus_read s.2 s.1.hl

lemma turn_compare_flags : ∃ sign y h x, (turn .compare dir s).1.flags =
    { s := sign, z := peek s.2 s.1.hl == s.1.a, y, h, x, pv := (turn .compare dir s).1.bc != 0, n := true,
      c := s.1.flags.c } := by
  have hbc : (turn .compare dir s).1.bc = s.1.bc - 1 := Word.ofBytes_high_low _
  have hzero (byte : UInt8) : (byte == s.1.a) = (s.1.a - byte == 0) := by
    rw [Bool.eq_iff_iff, beq_iff_eq, beq_iff_eq]
    grind
  rw [hbc, hzero]
  exact ⟨_, _, _, _, Flags.ofByte_toByte _⟩

end Block

/-! The detector -/

namespace Idle.Detector

variable {d : Detector} {count : UInt16} {k : Nat}

def Counts (count : UInt16) (k : Nat) (history : List Entry) : Prop :=
  ∀ (i : Nat) (h : i < history.length), i < k ∧ history[i].after.bc = count - UInt16.ofNat (k - i)

lemma Counts.cons {history : List Entry} (h : Counts count k history) {newest : Entry}
    (hnewest : newest.after.bc = count - UInt16.ofNat (k + 1)) (n : Nat) :
    Counts count (k + 1) ((newest :: history).take n) := by
  intro i hi
  rw [List.getElem_take]
  cases i with
  | zero => exact ⟨k.succ_pos, hnewest⟩
  | succ i =>
    obtain ⟨hlt, hbc⟩ := h i (by simp at hi; omega)
    refine ⟨Nat.succ_lt_succ hlt, ?_⟩
    rw [List.getElem_cons_succ, hbc, Nat.succ_sub_succ]

lemma Counts.find_eq_none {history : List Entry} (h : Counts count k history) (hk : k < 65536) (threshold : Nat) :
    find? history threshold = none := by
  by_contra hsome
  obtain ⟨loop, hloop⟩ := Option.ne_none_iff_exists'.mp hsome
  obtain ⟨n, hn, hrepeats, -⟩ := find_eq_some hloop
  obtain ⟨hlen, hmask⟩ :=
    Ground.mask_of_repeats (g := ({ mode := .standard, bus := (), iff2 := false } : Ground Unit)) (by omega) hrepeats
  have hback : history[n].after.bc = history[0].after.bc := (congrArg Registers.bc hmask :)
  obtain ⟨hnk, hearlier⟩ := h n hlen
  have hsame : UInt16.ofNat (k - n) = UInt16.ofNat k := by
    rw [hearlier, (h 0 (by omega)).2, Nat.sub_zero] at hback
    grind
  have hsame' := congrArg UInt16.toNat hsame
  rw [UInt16.toNat_ofNat_of_lt' (by simp only [UInt16.size]; omega),
    UInt16.toNat_ofNat_of_lt' (by simp only [UInt16.size]; omega)] at hsame'
  omega

structure Counting (count : UInt16) (k : Nat) (d : Detector) : Prop where
  enabled : d.config.enabled = true
  active : d.active = none
  history : Counts count k d.history

lemma Counting.observe (h : d.Counting count k) (hk : k + 1 < 65536) (step : Step) (safe : Bool) {after : Registers}
    (hafter : after.bc = count - UInt16.ofNat (k + 1)) : (d.observe step safe after).value.Counting count (k + 1) := by
  have hnewest : ({ step, after } : Entry).after.bc = count - UInt16.ofNat (k + 1) := hafter
  have hcounts := h.history.cons hnewest (2 * d.config.threshold)
  simp only [Detector.observe, h.enabled, h.active, hcounts.find_eq_none hk, Bool.not_true, Option.isSome_none,
    Bool.or_self, Bool.false_eq_true, if_false]
  cases safe with
  | true => exact ⟨h.enabled, rfl, hcounts⟩
  | false => exact ⟨h.enabled, rfl, fun _ hi => absurd hi (Nat.not_lt_zero _)⟩

end Idle.Detector

namespace Cpu

variable {B : Type} [Bus B] {c : Cpu B} {dir : Direction}

variable (c dir) in
lemma turns_compare_bus [SteadyBus B] (k : Nat) : (c.turns .compare dir k).2 = c.bus := by
  induction k with
  | zero => rfl
  | succ k ih => rw [turns_succ, Block.turn_compare_bus, ih]

variable (c dir) in
lemma turns_compare_carry (k : Nat) : (c.turns .compare dir k).1.flags.c = c.regs.flags.c := by
  induction k with
  | zero => rfl
  | succ k ih =>
    obtain ⟨sign, y, h, x, hflags⟩ := Block.turn_compare_flags dir (c.turns .compare dir k)
    rw [turns_succ, hflags]
    exact ih

def found (c : Cpu B) (dir : Direction) (k : Nat) : Bool :=
  peek c.bus (dir.offset c.regs.hl k) == c.regs.a

variable (c dir) in
lemma turns_compare [SteadyBus B] (k : Nat) : ∃ sign y h x, (c.turns .compare dir (k + 1)).1 =
    (BlockOp.compare.moved dir c.regs (k + 1)).setFlags
      { s := sign, z := c.found dir k, y, h, x, pv := c.regs.bc - UInt16.ofNat (k + 1) != 0, n := true,
        c := c.regs.flags.c } := by
  have hbc : (c.turns .compare dir (k + 1)).1.bc = c.regs.bc - UInt16.ofNat (k + 1) := by
    rw [turns_moved]
    exact BlockOp.compare.moved_bc dir c.regs (k + 1) (.inr rfl)
  have ha : (c.turns .compare dir k).1.a = c.regs.a := by
    rw [turns_moved]
    rfl
  obtain ⟨sign, y, h, x, hflags⟩ := Block.turn_compare_flags dir (c.turns .compare dir k)
  simp only [← turns_succ, hbc, turns_hl, turns_compare_bus, turns_compare_carry, ha] at hflags
  exact ⟨sign, y, h, x, hflags ▸ c.turns_moved .compare dir (k + 1)⟩

variable [SteadyBus B] {k : Nat}

lemma search_rounds (hb : Holds c.bus c.regs.pc [0xED, BlockOp.compare.repeating dir])
    (hk : k < BlockOp.compare.rounds c.regs) (hbefore : ∀ i < k, c.found dir i = false)
    (hlast : c.found dir k = true ∨ k + 1 = BlockOp.compare.rounds c.regs) : c.Rounds .compare dir (k + 1) where
  pos := k.succ_pos
  held i _ := by
    rw [turns_compare_bus]
    exact hb
  again i hi := by
    obtain ⟨sign, y, h, x, hregs⟩ := c.turns_compare dir i
    have hz : (c.turns .compare dir (i + 1)).1.flags.z = c.found dir i := by
      rw [hregs, Registers.flags_setFlags]
    rw [turns_unfinished (by omega), hz, Bool.eq_iff_iff]
    simp only [bne_self_eq_false, Bool.false_or, Bool.and_eq_true, decide_eq_true_eq, Bool.not_eq_true']
    rcases Nat.lt_succ_iff_lt_or_eq.mp hi with hlt | rfl
    · simp only [hbefore i hlt, and_true]
      omega
    · rcases hlast with hfound | hlast
      · simp [hfound]
      · omega

lemma Rounds.finishes_of_idle {n : Nat} (h : c.Rounds .compare dir n) (hl : c.lifecycle ≠ .paused)
    (hp : c.pending = none) (hh : c.core.halted = false) (hidle : c.idle.Off ∨ c.idle.Empty)
    (hmode : c.clock.mode = .standard) (hn : n ≤ 65536) (budget : Nat → Nat) :
    c.Finishes budget n (((c.turns .compare dir n).1.setPc (c.regs.pc + 2)).refresh (2 * n))
      (c.turns .compare dir n).2 := by
  have hcase : c.idle.Off ∨ c.idle.Counting c.regs.bc 0 := by
    rcases hidle with hoff | ⟨hhistory, hactive⟩
    · exact .inl hoff
    · cases henabled : c.idle.config.enabled with
      | false => exact .inl ⟨henabled, hactive⟩
      | true => exact .inr ⟨henabled, hactive, by simp [Detector.Counts, hhistory]⟩
  have hactive : c.idle.active = none := by
    rcases hcase with hoff | hcounting
    · exact hoff.active
    · exact hcounting.active
  have hc : c.Underway := ⟨hl, hp, hh, hactive⟩
  rcases hcase with hoff | hcounting
  · refine h.finishes hc hmode (D := fun _ d => d.Off) hoff (fun _ _ hd => hd.active) ?_ budget
    rintro k d - - hd ⟨seen, safe, -, rfl⟩
    exact hd.observe _ _ _
  · refine h.finishes hc hmode (D := fun k d => d.Counting c.regs.bc k) hcounting (fun _ _ hd => hd.active) ?_ budget
    rintro k d - hk hd ⟨seen, safe, -, rfl⟩
    refine hd.observe (by omega) _ _ ?_
    rw [turns_moved]
    exact BlockOp.compare.moved_bc dir c.regs (k + 1) (.inr rfl)

/-- The detector may be off, or have just begun to watch. -/
theorem search_finishes (hl : c.lifecycle ≠ .paused) (hp : c.pending = none) (hh : c.core.halted = false)
    (hidle : c.idle.Off ∨ c.idle.Empty) (hmode : c.clock.mode = .standard)
    (hb : Holds c.bus c.regs.pc [0xED, BlockOp.compare.repeating dir]) (budget : Nat → Nat) :
    let n := if c.regs.bc = 0 then 65536 else c.regs.bc.toNat
    ∃ k < n, (∀ i < k, c.found dir i = false) ∧ (c.found dir k = true ∨ k + 1 = n) ∧
      let count := c.regs.bc - UInt16.ofNat (k + 1)
      ∃ sign y h x, c.Finishes budget (k + 1)
        (((((c.regs.setHl (dir.offset c.regs.hl (k + 1))).setBc count).setFlags
          { s := sign, z := c.found dir k, y, h, x, pv := count != 0, n := true, c := c.regs.flags.c }).setPc
            (c.regs.pc + 2)).refresh (2 * (k + 1))) c.bus := by
  intro n
  have hn : 0 < n := BlockOp.compare.rounds_pos c.regs
  have hle : n ≤ 65536 := by
    have := c.regs.bc.toNat_lt
    simp only [n]
    split <;> omega
  have hstops : ∃ k, c.found dir k = true ∨ k + 1 = n := ⟨n - 1, .inr (Nat.sub_add_cancel hn)⟩
  obtain ⟨k, hstop, hleast⟩ :
      ∃ k, (c.found dir k = true ∨ k + 1 = n) ∧ ∀ i < k, ¬ (c.found dir i = true ∨ i + 1 = n) :=
    ⟨Nat.find hstops, Nat.find_spec hstops, fun _ => Nat.find_min hstops⟩
  have hk : k < n := by
    by_contra hge
    exact hleast (n - 1) (by omega) (.inr (Nat.sub_add_cancel hn))
  have hbefore : ∀ i < k, c.found dir i = false := fun i hi =>
    Bool.eq_false_iff.mpr fun hfound => hleast i hi (.inl hfound)
  have hrounds : c.Rounds .compare dir (k + 1) := search_rounds hb hk hbefore hstop
  have hfinishes := hrounds.finishes_of_idle hl hp hh hidle hmode (by omega) budget
  obtain ⟨sign, y, h, x, hregs⟩ := c.turns_compare dir k
  rw [hregs, turns_compare_bus] at hfinishes
  exact ⟨k, hk, hbefore, hstop, sign, y, h, x, hfinishes⟩

/-- `CPIR` at the top of memory, with a counter that goes all the way round and the detector on. It meets its own
second byte, at `0001`. -/
theorem search_finishes_itself :
    let regs : Registers := { a := 0xB1, h := 0xFF, l := 0xFD }
    let memory (m : Memory) := (m.poke 0 0xED).poke 1 0xB1
    let c : Cpu Board := { bus := Board.mapMemory memory {}, core := { regs } }
    c.lifecycle ≠ .paused ∧ c.idle.config.enabled = true ∧ c.idle.Empty ∧ c.clock.mode = .standard ∧
      Holds c.bus 0 [0xED, BlockOp.compare.repeating .up] ∧
      ∃ sign y h x, c.Finishes (fun _ => unbounded) 5
        { a := 0xB1, b := 0xFF, c := 0xFB, h := 0, l := 2, pc := 2, r := 10,
          f := Flags.toByte { s := sign, z := true, y, h, x, pv := true, n := true } } c.bus := by
  intro regs memory c
  have hawake : c.lifecycle ≠ .paused := by decide
  have hpeek (x : UInt16) : peek c.bus x = if 1 = x then 0xB1 else if 0 = x then 0xED else 0 := by
    simp only [c, memory, peek, Bus.read, Board.mapMemory, Memory.peek, Memory.poke, Ram.get_set, Ram.empty,
      Ram.get_filled]
  have hb : Holds c.bus 0 [0xED, BlockOp.compare.repeating .up] := by
    simp [Holds, cells, hpeek, BlockOp.repeating]
  have hfound : ∀ i < 5, c.found .up i = decide (i = 4) := by
    simp only [found, hpeek]
    decide
  obtain ⟨k, hk, hbefore, hstop, sign, y, h, x, hfinishes⟩ :=
    search_finishes (c := c) hawake rfl rfl (.inr ⟨rfl, rfl⟩) rfl hb fun _ => unbounded
  have hle : k ≤ 4 := by
    by_contra hlt
    have hmissed := hbefore 4 (by omega)
    rw [hfound 4 (by decide)] at hmissed
    exact absurd hmissed (by decide)
  obtain rfl : k = 4 := by
    rcases hstop with hhit | hlast
    · rw [hfound k (by omega)] at hhit
      exact of_decide_eq_true hhit
    · have hzero : c.regs.bc = 0 := by decide
      rw [if_pos hzero] at hlast
      omega
  have hregs (sign y h x : Bool) :
      ((((regs.setHl (Direction.up.offset regs.hl 5)).setBc (regs.bc - UInt16.ofNat 5)).setFlags
        { s := sign, z := true, y, h, x, pv := regs.bc - UInt16.ofNat 5 != 0, n := true,
          c := regs.flags.c }).setPc 2).refresh 10 =
      { a := 0xB1, b := 0xFF, c := 0xFB, h := 0, l := 2, pc := 2, r := 10,
        f := Flags.toByte { s := sign, z := true, y, h, x, pv := true, n := true } } := by
    cases sign <;> cases y <;> cases h <;> cases x <;> decide
  rw [hfound 4 (by decide)] at hfinishes
  exact ⟨hawake, rfl, ⟨rfl, rfl⟩, rfl, hb, sign, y, h, x, hregs sign y h x ▸ hfinishes⟩

end Cpu

end Z80Machine
