import Z80Machine.Proofs.Decoding
import Z80Machine.Proofs.Nearly
import Z80Machine.Proofs.Rounds

/-! Chains of index prefixes. Each prefix but the last is an instruction of its own that does nothing, so a program that
runs through a chain does what it would do had it begun at the last prefix. -/

namespace Z80Machine

namespace Word

lemma add_ofNat_ofNat (w : UInt16) (m n : Nat) : w + UInt16.ofNat m + UInt16.ofNat n = w + UInt16.ofNat (m + n) := by
  rw [UInt16.add_assoc, UInt16.ofNat_add]

lemma add_ofNat_one (w : UInt16) (n : Nat) : w + UInt16.ofNat n + 1 = w + UInt16.ofNat (n + 1) :=
  add_ofNat_ofNat w n 1

end Word

namespace Bus

variable {B : Type} [Bus B] {b : B} {addr : UInt16} {xs ys bytes : List UInt8}

lemma holds_append : Holds b addr (xs ++ ys) ↔ Holds b addr xs ∧ Holds b (addr + UInt16.ofNat xs.length) ys := by
  induction xs generalizing addr with
  | nil =>
    have haddr : addr + UInt16.ofNat 0 = addr := UInt16.add_zero _
    rw [List.nil_append, List.length_nil, haddr]
    exact ⟨fun h => ⟨rfl, h⟩, And.right⟩
  | cons x xs ih =>
    have haddr : addr + 1 + UInt16.ofNat xs.length = addr + UInt16.ofNat (xs.length + 1) := by
      rw [Nat.add_comm]
      exact Word.add_ofNat_ofNat addr 1 xs.length
    rw [List.cons_append, holds_cons, holds_cons, ih, List.length_cons, haddr, and_assoc]

lemma Holds.drop (h : Holds b addr bytes) {i : Nat} (hi : i ≤ bytes.length) :
    Holds b (addr + UInt16.ofNat i) (bytes.drop i) := by
  rw [← List.take_append_drop i bytes] at h
  have hdrop := (holds_append.mp h).2
  rwa [List.length_take, Nat.min_eq_left hi] at hdrop

lemma Holds.peek (h : Holds b addr bytes) {i : Nat} (hi : i < bytes.length) :
    Bus.peek b (addr + UInt16.ofNat i) = bytes[i] := by
  have hdrop := h.drop (Nat.le_of_lt hi)
  rw [List.drop_eq_getElem_cons hi] at hdrop
  exact (holds_cons.mp hdrop).1

lemma Holds.pair (h : Holds b addr bytes) {i : Nat} (hi : i + 1 < bytes.length) :
    Holds b (addr + UInt16.ofNat i) [bytes[i], bytes[i + 1]] := by
  rw [holds_cons, holds_cons, Word.add_ofNat_one]
  exact ⟨h.peek (Nat.lt_of_succ_lt hi), h.peek hi, rfl⟩

end Bus

namespace Encoding

lemma read_deadPrefix {first second : UInt8} (h : DeadPrefix first second) :
    (ofOpcode first).read? [second] = some (⟨.nop, .m1, 1⟩, []) := by
  obtain ⟨rfl | rfl, rfl | rfl | rfl⟩ := h
  all_goals rfl

variable {B : Type} [Bus B] {chain : List UInt8} {o : UInt8} {addr : UInt16} {b : B}

lemma dead_of_chain (hne : chain ≠ []) (hchain : ∀ x ∈ chain, x = 0xDD ∨ x = 0xFD)
    (hb : Bus.Holds b addr (chain ++ [o])) {i : Nat} (hi : i < chain.length - 1 + if o = 0xED then 1 else 0) :
    ∃ x y, DeadPrefix x y ∧ Bus.Holds b (addr + UInt16.ofNat i) [x, y] := by
  have hpos : 0 < chain.length := List.length_pos_iff.mpr hne
  have hlt : i < chain.length := by
    split at hi <;> omega
  have hlt' : i + 1 < (chain ++ [o]).length := by
    rw [List.length_append]
    exact Nat.succ_lt_succ hlt
  refine ⟨_, _, ⟨?_, ?_⟩, hb.pair hlt'⟩
  · rw [List.getElem_append_left hlt]
    exact hchain _ (List.getElem_mem hlt)
  · by_cases hnext : i + 1 < chain.length
    · rw [List.getElem_append_left hnext]
      exact (hchain _ (List.getElem_mem hnext)).imp_right Or.inl
    · -- only ED makes the last prefix a dead one
      have hlast : i + 1 = chain.length := by omega
      have hed : o = 0xED := by
        by_contra h
        rw [if_neg h] at hi
        omega
      refine .inr (.inr ?_)
      simp [hlast, hed]

lemma first_of_chain (hne : chain ≠ []) (hb : Bus.Holds b addr (chain ++ [o])) :
    Bus.peek b (addr + UInt16.ofNat (chain.length - 1 + if o = 0xED then 1 else 0)) =
      if o = 0xED then o else chain.getLast hne := by
  have hpos : 0 < chain.length := List.length_pos_iff.mpr hne
  by_cases hed : o = 0xED
  · have hlt : chain.length < (chain ++ [o]).length := by
      rw [List.length_append]
      exact Nat.lt_succ_self _
    rw [if_pos hed, if_pos hed, Nat.sub_add_cancel hpos, hb.peek hlt]
    exact List.getElem_concat_length rfl _
  · have hlt : chain.length - 1 < chain.length := Nat.sub_lt hpos Nat.one_pos
    have hlt' : chain.length - 1 < (chain ++ [o]).length := by
      rw [List.length_append]
      exact Nat.lt_succ_of_lt hlt
    rw [if_neg hed, if_neg hed, Nat.add_zero, hb.peek hlt', List.getElem_append_left hlt, List.getLast_eq_getElem]

end Encoding

/-- Alike but for R and the time and, if `status`, for A and the flags. -/
structure Machine.Near {B : Type} (status : Prop) (m m' : Machine B) : Prop where
  regs : m.core.regs.Near status m'.core.regs
  halted : m'.core.halted = m.core.halted
  eiDelay : m'.core.eiDelay = m.core.eiDelay
  bus : m'.bus = m.bus
  lifecycle : m'.lifecycle = m.lifecycle
  pending : m'.pending = m.pending
  vectorByte : m'.vectorByte = m.vectorByte
  clock : m'.clock = m.clock

namespace Cpu

open Bus Encoding

section

variable {B : Type} {c d : Cpu B} {n t : Nat}

def passed (c : Cpu B) (n time : Nat) : Machine B :=
  { c.machine with
    core := {
      regs := { c.regs with pc := c.regs.pc + UInt16.ofNat n }.refresh n
      halted := c.core.halted
      eiDelay := c.core.eiDelay && n == 0 }
    lifecycle := if n = 0 then c.lifecycle else c.lifecycle.awake
    total := c.total + UInt64.ofNat time }

lemma passed_zero (c : Cpu B) : c.passed 0 0 = c.machine := by
  have hpc : c.regs.pc + UInt16.ofNat 0 = c.regs.pc := UInt16.add_zero _
  have hregs : { c.regs with pc := c.regs.pc + UInt16.ofNat 0 }.refresh 0 = c.core.regs := by
    rw [hpc, Registers.refresh_zero]
    rfl
  have htotal : c.total + UInt64.ofNat 0 = c.total := UInt64.add_zero _
  simp only [passed, hregs, htotal, beq_self_eq_true, Bool.and_true, if_true]
  rfl

lemma after_eq_passed (h : c.Underway) (n time : Nat) :
    c.after { regs := { { c.regs with pc := c.regs.pc + UInt16.ofNat n }.refresh n with
      pc := c.regs.pc + UInt16.ofNat n + 1 }.refresh 1 } c.bus time = c.passed (n + 1) time := by
  have hregs : { { c.regs with pc := c.regs.pc + UInt16.ofNat n }.refresh n with
      pc := c.regs.pc + UInt16.ofNat n + 1 }.refresh 1 =
      { c.regs with pc := c.regs.pc + UInt16.ofNat (n + 1) }.refresh (n + 1) := by
    rw [← Registers.refresh_refresh, Word.add_ofNat_one]
    rfl
  have hbeq : (n + 1 == 0) = false := rfl
  rw [hregs]
  simp only [passed, h.halted, hbeq, Bool.and_false]
  rfl

lemma after_passed (h : d.machine = c.passed n t) (core : Core) (bus : B) (s : Nat) :
    d.after core bus s = c.after core bus (t + s) := by
  have hawake : (if n = 0 then c.lifecycle else c.lifecycle.awake).awake = c.lifecycle.awake := by
    by_cases hn : n = 0
    · rw [if_pos hn]
    · rw [if_neg hn, Lifecycle.awake_awake]
  have htotal : c.total + UInt64.ofNat t + UInt64.ofNat s = c.total + UInt64.ofNat (t + s) := by
    rw [UInt64.add_assoc, UInt64.ofNat_add]
  change { d.machine with
    core, bus, lifecycle := d.machine.lifecycle.awake, total := d.machine.total + UInt64.ofNat s } = _
  rw [h]
  simp only [passed, hawake, htotal]
  rfl

end

variable {B : Type} [Bus B] [SteadyBus B] {c d p q : Cpu B} {m n t s : Nat}

def aside (c : Cpu B) : Idle.Detector × Nat :=
  (c.idle, c.chunkCycles)

omit [SteadyBus B] in
lemma aside_step (h : c.Underway) (hoff : c.idle.Off) (budget : Nat) : (c.step budget).2.aside = c.aside := by
  have hidle : (c.step budget).2.idle = (c.idle.observe _ _ _).value :=
    (h.stepKind budget ▸ c.stepped budget).of_instruction.2.2
  rw [aside, hidle, c.step_chunkCycles, Idle.Detector.observe, hoff.enabled]
  rfl

lemma step_deadPrefix (h : c.Underway) {first second : UInt8} (hd : DeadPrefix first second)
    (hb : Holds c.bus c.regs.pc [first, second]) (budget : Nat) :
    (c.clock.mode = .standard → (c.step budget).1 = 4) ∧
      (c.step budget).2.machine =
        c.after { regs := { c.regs with pc := c.regs.pc + 1 }.refresh 1 } c.bus (c.step budget).1 := by
  have hop (log : Log) (traffic : Traffic) :
      let e : Encoded := ⟨.nop, .m1, 1⟩
      let t := (e.op.onRegisters c.regs.pc (c.core.behind (e.toInstruction c.regs.pc [first, second]))).run c.bus log
        traffic
      t.result = ({ c.regs with pc := c.regs.pc + 1 }.refresh 1, 0) ∧ t.bus = c.bus := ⟨rfl, rfl⟩
  obtain ⟨htime, hmachine, -⟩ : (c.clock.mode = .standard → (c.step budget).1 = 4) ∧
      (c.step budget).2.machine = c.after _ c.bus (c.step budget).1 ∧ _ := step_held h hb (read_deadPrefix hd) hop
  exact ⟨htime, hmachine⟩

structure Passing (c : Cpu B) (n t : Nat) (d : Cpu B) : Prop where
  machine : d.machine = c.passed n t
  aside : d.aside = c.aside

omit [Bus B] [SteadyBus B] in
lemma Passing.off (hd : c.Passing n t d) (hoff : c.idle.Off) : d.idle.Off := by
  have hidle : d.idle = c.idle := congrArg Prod.fst hd.aside
  rwa [hidle]

omit [Bus B] [SteadyBus B] in
lemma Passing.underway (hd : c.Passing n t d) (h : c.Underway) (hoff : c.idle.Off) : d.Underway := by
  have hlifecycle : d.lifecycle = if n = 0 then c.lifecycle else c.lifecycle.awake :=
    congrArg Machine.lifecycle hd.machine
  refine ⟨?_, (congrArg Machine.pending hd.machine).trans h.pending,
    (congrArg (·.core.halted) hd.machine).trans h.halted, (hd.off hoff).active⟩
  rw [hlifecycle]
  split
  · exact h.lifecycle
  · exact Lifecycle.awake_ne_paused h.lifecycle

theorem passing_chain (h : c.Underway) (hoff : c.idle.Off) {n : Nat}
    (hdead : ∀ i < n, ∃ x y, DeadPrefix x y ∧ Holds c.bus (c.regs.pc + UInt16.ofNat i) [x, y]) (budget : Nat → Nat) :
    c.Passing n (c.stepsWithin budget n).1 (c.stepsWithin budget n).2 ∧
      (c.clock.mode = .standard → (c.stepsWithin budget n).1 = 4 * n) := by
  induction n with
  | zero => exact ⟨⟨c.passed_zero.symm, rfl⟩, fun _ => rfl⟩
  | succ n ih =>
    obtain ⟨hd, htime⟩ := ih fun i hi => hdead i (Nat.lt_succ_of_lt hi)
    obtain ⟨x, y, hxy, hb⟩ := hdead n (Nat.lt_succ_self n)
    generalize hs : c.stepsWithin budget n = s at hd htime
    obtain ⟨t, d⟩ := s
    dsimp only at hd htime
    have hunderway : d.Underway := hd.underway h hoff
    have hmachine : d.machine = c.passed n t := hd.machine
    have hbus : d.bus = c.bus := congrArg Machine.bus hmachine
    have hregs : d.regs = { c.regs with pc := c.regs.pc + UInt16.ofNat n }.refresh n :=
      congrArg (·.core.regs) hmachine
    have hclock : d.clock = c.clock := congrArg Machine.clock hmachine
    have hheld : Holds d.bus d.regs.pc [x, y] := by
      rw [hbus, hregs]
      exact hb
    obtain ⟨hcycles, hnext⟩ := step_deadPrefix hunderway hxy hheld (budget n)
    have hstep : c.stepsWithin budget (n + 1) = (t + (d.step (budget n)).1, (d.step (budget n)).2) := by
      rw [stepsWithin, hs]
    rw [hstep]
    refine ⟨⟨?_, (aside_step hunderway (hd.off hoff) _).trans hd.aside⟩, fun hmode => ?_⟩
    · rw [hnext, after_passed hmachine, hregs, hbus]
      exact after_eq_passed h n _
    · rw [htime hmode, hcycles (by rw [hclock, hmode])]
      exact (Nat.mul_succ 4 n).symm

lemma passing_chain_from (h : c.Underway) (hoff : c.idle.Off)
    (hdead : ∀ i < n, ∃ x y, DeadPrefix x y ∧ Holds c.bus (c.regs.pc + UInt16.ofNat (m + i)) [x, y])
    (budget : Nat → Nat) :
    let p := c.setRegs { c.regs with pc := c.regs.pc + UInt16.ofNat m }
    p.Passing n (p.stepsWithin budget n).1 (p.stepsWithin budget n).2 ∧
      (c.clock.mode = .standard → (p.stepsWithin budget n).1 = 4 * n) := by
  intro p
  have hunderway : p.Underway := ⟨h.lifecycle, h.pending, h.halted, h.active⟩
  refine passing_chain hunderway hoff (fun i hi => ?_) budget
  have haddr : p.regs.pc + UInt16.ofNat i = c.regs.pc + UInt16.ofNat (m + i) :=
    Word.add_ofNat_ofNat c.regs.pc m i
  rw [haddr]
  exact hdead i hi

lemma Passing.upcoming (hd : c.Passing n t d) {first : UInt8} (h : peek c.bus (c.regs.pc + UInt16.ofNat n) = first) :
    d.core.upcoming d.bus =
      ((Instruction.decode first (c.regs.pc + UInt16.ofNat n)).run c.bus {} {}).result := by
  have hpc : d.regs.pc = c.regs.pc + UInt16.ofNat n := congrArg (·.core.regs.pc) hd.machine
  have hbus : d.bus = c.bus := congrArg Machine.bus hd.machine
  rw [← hpc] at h ⊢
  rw [hbus]
  exact d.core.upcoming_eq c.bus h

omit [SteadyBus B] in
lemma Passing.outcome (hd : c.Passing n t d) : d.outcome = d.core.outcome c.clock.mode c.bus := by
  have hbus : d.bus = c.bus := congrArg Machine.bus hd.machine
  have hclock : d.clock = c.clock := congrArg Machine.clock hd.machine
  rw [Cpu.outcome, hbus, hclock]

omit [Bus B] [SteadyBus B] in
lemma Passing.core_counting (hd : c.Passing (m + n) t d)
    (hq : (c.setRegs { c.regs with pc := c.regs.pc + UInt16.ofNat m }).Passing n s q) :
    d.core = { q.core with regs := q.core.regs.counting d.core.regs.r, eiDelay := d.core.eiDelay } := by
  have hdcore : d.core = (c.passed (m + n) t).core := congrArg Machine.core hd.machine
  have hqcore : q.core = (Machine.core _) := congrArg Machine.core hq.machine
  rw [hdcore, hqcore, passed, ← Word.add_ofNat_ofNat]
  rfl

theorem Passing.ends (h : c.Underway) (hoff : c.idle.Off) (hd : c.Passing (m + n) t d)
    (hq : (c.setRegs { c.regs with pc := c.regs.pc + UInt16.ofNat m }).Passing n s q) (budget budget' : Nat) :
    (q.step budget').2.machine.Near ((d.core.upcoming d.bus).op = .loadAR) (d.step budget).2.machine ∧
      (d.step budget).2.aside = (q.step budget').2.aside ∧
      (c.clock.mode = .standard → (d.step budget).1 = (q.step budget').1) ∧
      (d.step budget).2.machine.total = c.total + UInt64.ofNat (t + (d.step budget).1) ∧
      (q.step budget').2.machine.total = c.total + UInt64.ofNat (s + (q.step budget').1) := by
  have hunderway : d.Underway := hd.underway h hoff
  have hunderway' : q.Underway := hq.underway ⟨h.lifecycle, h.pending, h.halted, h.active⟩ hoff
  have haside : (d.step budget).2.aside = (q.step budget').2.aside := by
    rw [aside_step hunderway (hd.off hoff), aside_step hunderway' (hq.off hoff), hd.aside, hq.aside]
    rfl
  obtain ⟨htime, hmachine, -⟩ := (hunderway.stepKind budget ▸ d.stepped budget).of_instruction
  obtain ⟨htime', hmachine', -⟩ := (hunderway'.stepKind budget' ▸ q.stepped budget').of_instruction
  have ho : d.outcome = d.core.outcome c.clock.mode c.bus := hd.outcome
  have ho' : q.outcome = q.core.outcome c.clock.mode c.bus := hq.outcome
  obtain ⟨hregs, hhalted, hdelay, hbuses, hcycles⟩ :=
    q.core.outcome_counting d.core.regs.r d.core.eiDelay c.clock.mode c.bus
  rw [← hd.core_counting hq, ← ho, ← ho'] at hregs hhalted hdelay hbuses hcycles
  have hupcoming : q.outcome.instruction = d.core.upcoming d.bus := by
    have hbus : d.bus = c.bus := congrArg Machine.bus hd.machine
    rw [ho', q.core.outcome_instruction, hbus]
    exact (congrArg (·.upcoming c.bus) (hd.core_counting hq)).symm
  rw [hupcoming] at hregs
  rw [htime, htime', hmachine, hmachine', after_passed hd.machine, after_passed hq.machine, htime, htime']
  -- What the instruction does is a long computation, which the comparison of the two machines must not start.
  generalize d.outcome = o' at hregs hhalted hdelay hbuses hcycles
  generalize q.outcome = o at hregs hhalted hdelay hbuses hcycles
  refine ⟨?_, haside, hcycles, rfl, rfl⟩
  exact ⟨hregs, hhalted, hdelay, hbuses, rfl, rfl, rfl, rfl⟩

/-- Of a chain of index prefixes only the last counts. Each one before it is a step of its own that does nothing, and so
is the last if ED follows. What comes then is the instruction of the last prefix, or of ED, and it leaves what it would
leave if the program began at the last prefix, unless it is the one that asks how many instructions there were. -/
theorem prefix_chain (c : Cpu B) (hl : c.lifecycle ≠ .paused) (hp : c.pending = none) (hh : c.core.halted = false)
    (hoff : c.idle.Off) {chain : List UInt8} (hne : chain ≠ []) (hchain : ∀ x ∈ chain, x = 0xDD ∨ x = 0xFD) {o : UInt8}
    (hb : Holds c.bus c.regs.pc (chain ++ [o])) (budget : Nat → Nat) :
    let own := if o = 0xED then 1 else 0
    let before := chain.length - 1
    let first := if o = 0xED then o else chain.getLast hne
    (∀ n ≤ before + own, (c.stepsWithin budget n).2.machine = c.passed n (c.stepsWithin budget n).1 ∧
      (c.stepsWithin budget n).2.aside = c.aside ∧
      (c.clock.mode = .standard → (c.stepsWithin budget n).1 = 4 * n)) ∧
    let d := (c.stepsWithin budget (before + own)).2
    d.stepKind (budget (before + own)) = .instruction ∧
    d.core.upcoming d.bus =
      ((Instruction.decode first (c.regs.pc + UInt16.ofNat (before + own))).run c.bus {} {}).result ∧
    ∀ budget',
      let p := c.setRegs { c.regs with pc := c.regs.pc + UInt16.ofNat before }
      let x := c.stepsWithin budget (before + own + 1)
      let y := p.stepsWithin budget' (own + 1)
      y.2.machine.Near ((d.core.upcoming d.bus).op = .loadAR) x.2.machine ∧ x.2.aside = y.2.aside ∧
        x.2.total = c.total + UInt64.ofNat x.1 ∧ y.2.total = c.total + UInt64.ofNat y.1 ∧
        (c.clock.mode = .standard → x.1 = y.1 + 4 * before) := by
  intro own before first
  have h : c.Underway := ⟨hl, hp, hh, hoff.active⟩
  have hdead (i : Nat) (hi : i < before + own) :
      ∃ x y, DeadPrefix x y ∧ Holds c.bus (c.regs.pc + UInt16.ofNat i) [x, y] :=
    dead_of_chain hne hchain hb hi
  have hpassing (n : Nat) (hn : n ≤ before + own) :=
    passing_chain h hoff (fun i hi => hdead i (Nat.lt_of_lt_of_le hi hn)) budget
  refine ⟨fun n hn => ⟨(hpassing n hn).1.machine, (hpassing n hn).1.aside, (hpassing n hn).2⟩, ?_⟩
  intro d
  obtain ⟨hd, htime⟩ := hpassing (before + own) (Nat.le_refl _)
  refine ⟨(hd.underway h hoff).stepKind _, hd.upcoming (first_of_chain hne hb), fun budget' => ?_⟩
  intro p x y
  obtain ⟨hq, htime'⟩ :=
    passing_chain_from h hoff (fun i hi => hdead (before + i) (Nat.add_lt_add_left hi before)) budget'
  obtain ⟨hnear, haside, hcycles, htotal, htotal'⟩ := hd.ends h hoff hq (budget (before + own)) (budget' own)
  refine ⟨hnear, haside, htotal, htotal', fun hmode => ?_⟩
  have hx : x.1 = (c.stepsWithin budget (before + own)).1 + (d.step (budget (before + own))).1 := rfl
  have hy : y.1 = (p.stepsWithin budget' own).1 + ((p.stepsWithin budget' own).2.step (budget' own)).1 := rfl
  have hlast : (d.step (budget (before + own))).1 = ((p.stepsWithin budget' own).2.step (budget' own)).1 :=
    hcycles hmode
  have htime' : (p.stepsWithin budget' own).1 = 4 * own := htime' hmode
  rw [hx, hy, htime hmode, htime', hlast]
  omega

/-- `PUSH IY` behind a spare prefix, around the end of the address space. -/
theorem prefix_chain_wrapping :
    let ram := ((Ram.empty.set 0xFFFE 0xDD).set 0xFFFF 0xFD).set 0 0xE5
    let regs : Registers := { pc := 0xFFFE, sp := 0x8000, iy := 0x1234, iff1 := true }
    let c : Cpu FlatBus :=
      { bus := { ram }, core := { regs, eiDelay := true }, idle := .ofConfig { enabled := false } }
    let p := c.setRegs { c.regs with pc := 0xFFFF }
    let d := (c.stepsWithin (fun _ => unbounded) 1).2
    c.lifecycle ≠ .paused ∧ c.pending = none ∧ c.core.halted = false ∧ c.idle.Off ∧
      Holds c.bus 0xFFFE [0xDD, 0xFD, 0xE5] ∧ d.machine = c.passed 1 4 ∧
      d.core.upcoming d.bus = ((Instruction.decode 0xFD 0xFFFF).run c.bus {} {}).result ∧
      (p.stepsWithin (fun _ => unbounded) 1).2.machine.Near ((d.core.upcoming d.bus).op = .loadAR)
        (c.stepsWithin (fun _ => unbounded) 2).2.machine ∧
      (c.stepsWithin (fun _ => unbounded) 2).1 = (p.stepsWithin (fun _ => unbounded) 1).1 + 4 := by
  intro ram regs c p d
  have hpeek (x : UInt16) : peek c.bus x =
      if 0 = x then 0xE5 else if 0xFFFF = x then 0xFD else if 0xFFFE = x then 0xDD else 0 := by
    simp only [c, ram, peek, Bus.read, Ram.get_set, Ram.empty, Ram.get_filled]
  have hb : Holds c.bus 0xFFFE [0xDD, 0xFD, 0xE5] := by
    simp only [holds_cons, hpeek]
    decide
  have hoff : c.idle.Off := ⟨rfl, rfl⟩
  have hchain : ∀ x ∈ ([0xDD, 0xFD] : List UInt8), x = 0xDD ∨ x = 0xFD := by simp
  obtain ⟨hpassed, -, hfirst, hends⟩ :=
    prefix_chain c (by decide) rfl rfl hoff (show [0xDD, 0xFD] ≠ [] by decide) hchain hb fun _ => unbounded
  obtain ⟨hmachine, -, htime⟩ := hpassed 1 (Nat.le_refl 1)
  obtain ⟨hnear, -, -, -, hcycles⟩ := hends fun _ => unbounded
  rw [htime rfl] at hmachine
  exact ⟨by decide, rfl, rfl, hoff, hb, hmachine, hfirst, hnear, hcycles rfl⟩

/-- The instruction may be the one that reads the refresh counter, and the first step of all starts the processor. -/
theorem prefix_chain_counted :
    let c : Cpu FlatBus :=
      { bus := { ram := Ram.empty.setAll 0 [0xDD, 0xDD, 0xED, 0x5F] }, idle := .ofConfig { enabled := false } }
    let p := c.setRegs { c.regs with pc := 1 }
    c.lifecycle ≠ .paused ∧ c.pending = none ∧ c.core.halted = false ∧ c.idle.Off ∧
      Holds c.bus c.regs.pc [0xDD, 0xDD, 0xED] ∧
      (c.stepsWithin (fun _ => unbounded) 3).2.regs.a = 4 ∧ (p.stepsWithin (fun _ => unbounded) 2).2.regs.a = 3 ∧
      c.lifecycle = .uninitialized ∧ (c.step unbounded).2.lifecycle = .initialized := by
  refine ⟨by decide, rfl, rfl, ⟨rfl, rfl⟩, ?_, ?_, ?_, rfl, ?_⟩ <;> decide +kernel

end Cpu

end Z80Machine
