import Z80Machine.Proofs.Outcome

/-! The machine beneath the detector. A step of a processor is one of a few kinds; all but skipping are also what the
machine does when nothing watches it. `Reaches` says where the machine comes to when it is left to run. -/

namespace Z80Machine

/-- What a program and a host can tell of a processor: all but the detector, the trace and the log. -/
structure Machine (B : Type) where
  core : Core
  bus : B
  lifecycle : Lifecycle
  pending : Option Interrupt
  vectorByte : UInt8
  total : UInt64
  clock : Clock

def Cpu.machine {B : Type} (c : Cpu B) : Machine B where
  core := c.core
  bus := c.bus
  lifecycle := c.lifecycle
  pending := c.pending
  vectorByte := c.vectorByte
  total := c.total
  clock := c.clock

namespace Cpu

variable {B : Type}

lemma machine_requestInterrupt (c : Cpu B) (kind : Interrupt) : (c.requestInterrupt kind).machine =
    { c.machine with pending := if c.pending = some .nonMaskable then c.pending else some kind } := by
  obtain ⟨_, _, _, pending, _, _, _, _, _, _, _⟩ := c
  rcases pending with _ | ⟨_ | _⟩ <;> cases kind <;> rfl

lemma idle_requestInterrupt (c : Cpu B) (kind : Interrupt) : (c.requestInterrupt kind).idle = c.idle.forget := by
  obtain ⟨_, _, _, pending, _, _, _, _, _, _, _⟩ := c
  rcases pending with _ | ⟨_ | _⟩ <;> cases kind <;> rfl

end Cpu

def Machine.cpu {B : Type} (m : Machine B) : Cpu B where
  core := m.core
  bus := m.bus
  lifecycle := m.lifecycle
  pending := m.pending
  vectorByte := m.vectorByte
  total := m.total
  clock := m.clock
  idle := { config := { enabled := false } }
  trace := { enabled := false, maxEntries := 0 }

def Lifecycle.awake (l : Lifecycle) : Lifecycle :=
  if l = .uninitialized then .initialized else l

lemma Lifecycle.awake_ne_paused {l : Lifecycle} (h : l ≠ .paused) : l.awake ≠ .paused := by
  cases l <;> simp_all [awake]

inductive StepKind where
  | paused
  | response (kind : Interrupt)
  | halted
  | skipped (loop : Idle.Loop)
  | instruction
  deriving DecidableEq, Repr

namespace Cpu

variable {B : Type}

def stepKind (c : Cpu B) (budget : Nat) : StepKind :=
  if c.lifecycle = .paused then .paused
  else match c.pending.filter c.accepts with
    | some kind => .response kind
    | none =>
      if c.core.halted then .halted
      else match c.skippable? budget with
        | some loop => .skipped loop
        | none => .instruction

lemma stepKind_bare (m : Machine B) (budget : Nat) (loop : Idle.Loop) : m.cpu.stepKind budget ≠ .skipped loop := by
  have h : m.cpu.skippable? budget = none := rfl
  simp only [stepKind, h]
  repeat' split
  all_goals exact StepKind.noConfusion

lemma stepKind_congr {c d : Cpu B} {budget : Nat} (hcore : c.core = d.core) (hl : c.lifecycle = d.lifecycle)
    (hp : c.pending = d.pending) (hs : c.skippable? budget = d.skippable? budget) :
    c.stepKind budget = d.stepKind budget := by
  have haccepts : c.accepts = d.accepts := by
    funext kind
    cases kind <;> simp only [accepts, regs, hcore]
  simp only [stepKind, hl, hp, hcore, haccepts, hs]

def response (c : Cpu B) : Interrupt → Dialogue (Registers × CycleShape)
  | .nonMaskable => enterNmi c.regs
  | .maskable => enterMaskable c.regs c.vectorByte

lemma response_congr {c d : Cpu B} (hcore : c.core = d.core) (hv : c.vectorByte = d.vectorByte) (kind : Interrupt) :
    c.response kind = d.response kind := by
  cases kind <;> simp only [response, regs, hcore, hv]

def after (c : Cpu B) (core : Core) (bus : B) (cycles : Nat) : Machine B :=
  { c.machine with core, bus, lifecycle := c.lifecycle.awake, total := c.total + UInt64.ofNat cycles }

variable [Bus B]

inductive Stepped (c : Cpu B) (budget : Nat) : StepKind → Nat → Machine B → Idle.Detector → Prop where
  | paused (hl : c.lifecycle = .paused) : Stepped c budget .paused 0 c.machine c.idle
  | response {kind : Interrupt} {t : Talk (Registers × CycleShape) B} (hl : c.lifecycle ≠ .paused)
      (hp : c.pending.filter c.accepts = some kind) (ht : t = (c.response kind).run c.bus {} {}) :
      Stepped c budget (.response kind) t.result.2.tStates
        { c.after { c.core with regs := t.result.1.refresh 1, halted := false } t.bus t.result.2.tStates with
          pending := none }
        c.idle.forget
  | halted (hl : c.lifecycle ≠ .paused) (hp : c.pending.filter c.accepts = none) (hh : c.core.halted = true) :
      Stepped c budget .halted haltedCycles
        (c.after { c.core with regs := c.regs.refresh 1 } c.bus haltedCycles) c.idle
  | skipped {loop : Idle.Loop} (hl : c.lifecycle ≠ .paused) (hp : c.pending.filter c.accepts = none)
      (hh : c.core.halted = false) (hs : c.skippable? budget = some loop) :
      Stepped c budget (.skipped loop) loop.cycles
        (c.after { c.core with regs := c.regs.refresh loop.fetches } c.bus loop.cycles) (c.idle.skip loop).value
  | instruction (hl : c.lifecycle ≠ .paused) (hp : c.pending.filter c.accepts = none)
      (hh : c.core.halted = false) (hs : c.skippable? budget = none) :
      Stepped c budget .instruction c.outcome.cycles (c.after c.outcome.core c.outcome.bus c.outcome.cycles)
        (c.idle.observe c.outcome.step c.outcome.safe c.outcome.core.regs).value

variable {c : Cpu B} {budget : Nat}

lemma step_eq (h : c.lifecycle ≠ .paused) :
    c.step budget =
      let s := { c with lifecycle := c.lifecycle.awake }.advance budget
      (s.1, { s.2 with total := s.2.total + UInt64.ofNat s.1 }) := by
  obtain ⟨_, _, lifecycle, _, _, _, _, _, _, _, _⟩ := c
  cases lifecycle with
  | paused => exact absurd rfl h
  | uninitialized => rfl
  | initialized => rfl
  | running => rfl

lemma service_eq (c : Cpu B) (kind : Interrupt) : ∃ log,
    let t := (c.response kind).run c.bus {} {}
    c.service kind = (t.result.2.tStates, { c with
      core := { c.core with regs := t.result.1.refresh 1, halted := false }
      bus := t.bus, pending := none, idle := c.idle.forget, log }) := by
  have h := (c.response kind).unlogged_run c.bus {} c.log {}
  have hr : ((c.response kind).run c.bus {} {}).result = ((c.response kind).run c.bus c.log {}).result :=
    congrArg (·.1) h
  have hb : ((c.response kind).run c.bus {} {}).bus = ((c.response kind).run c.bus c.log {}).bus :=
    congrArg (·.2.1) h
  simp only [hr, hb]
  cases kind <;> exact ⟨_, rfl⟩

theorem stepped (c : Cpu B) (budget : Nat) :
    Stepped c budget (c.stepKind budget) (c.step budget).1 (c.step budget).2.machine (c.step budget).2.idle := by
  by_cases hl : c.lifecycle = .paused
  · rw [show c.step budget = (0, c) by simp [step, hl], stepKind, if_pos hl]
    exact .paused hl
  rw [step_eq hl, stepKind, if_neg hl]
  generalize hd : ({ c with lifecycle := c.lifecycle.awake } : Cpu B) = d
  have ha : d.advance budget = match c.pending.filter c.accepts with
      | some kind => d.service kind
      | none =>
        if c.core.halted then (haltedCycles, d.setRegs (d.regs.refresh 1))
        else match c.skippable? budget with
          | some loop => d.skip loop
          | none => d.runInstruction := by rw [← hd]; rfl
  rw [ha]
  cases hp : c.pending.filter c.accepts with
  | some kind =>
    obtain ⟨log, h⟩ := d.service_eq kind
    have hr : d.response kind = c.response kind := by
      rw [← hd]
      cases kind <;> rfl
    simp only [h, hr]
    subst hd
    exact .response hl hp rfl
  | none =>
    cases hh : c.core.halted with
    | true =>
      simp only [if_true, ← hd]
      exact .halted hl hp hh
    | false =>
      cases hs : c.skippable? budget with
      | some loop =>
        simp only [Bool.false_eq_true, if_false, ← hd]
        exact .skipped hl hp hh hs
      | none =>
        obtain ⟨trace, log, h⟩ := d.runInstruction_eq
        have ho : d.outcome = c.outcome := by
          rw [← hd]
          rfl
        simp only [Bool.false_eq_true, if_false, h, ho]
        subst hd
        exact .instruction hl hp hh hs

lemma Stepped.unique {k k' : StepKind} {t t' : Nat} {m m' : Machine B} {d d' : Idle.Detector}
    (h : c.Stepped budget k t m d) (h' : c.Stepped budget k' t' m' d') : t = t' ∧ m = m' ∧ d = d' := by
  cases h <;> cases h' <;> simp_all

variable {k : StepKind} {t : Nat} {m : Machine B} {d : Idle.Detector}

lemma Stepped.of_response {kind : Interrupt} (h : c.Stepped budget (.response kind) t m d) :
    (c.lifecycle ≠ .paused ∧ c.pending.filter c.accepts = some kind) ∧
      t = ((c.response kind).run c.bus {} {}).result.2.tStates ∧
      m = { c.after
              { c.core with regs := ((c.response kind).run c.bus {} {}).result.1.refresh 1, halted := false }
              ((c.response kind).run c.bus {} {}).bus t with
            pending := none } ∧
      d = c.idle.forget := by
  cases h with
  | response hl hp ht =>
    subst ht
    exact ⟨⟨hl, hp⟩, rfl, rfl, rfl⟩

lemma Stepped.of_instruction (h : c.Stepped budget .instruction t m d) :
    t = c.outcome.cycles ∧ m = c.after c.outcome.core c.outcome.bus t ∧
      d = (c.idle.observe c.outcome.step c.outcome.safe c.outcome.core.regs).value := by
  cases h
  exact ⟨rfl, rfl, rfl⟩

lemma response_time (c : Cpu B) (kind : Interrupt) :
    4 ≤ ((c.response kind).run c.bus {} {}).result.2.tStates ∧
      ((c.response kind).run c.bus {} {}).result.2.tStates ≤ 29 := by
  have nmi := (by decide : 4 ≤ ((CycleShape.m1.addInternal 1).addWrites 2).tStates ∧
    ((CycleShape.m1.addInternal 1).addWrites 2).tStates ≤ 29)
  have im1 := (by decide : 4 ≤ (CycleShape.empty.withAcknowledge.addWrites 2).tStates ∧
    (CycleShape.empty.withAcknowledge.addWrites 2).tStates ≤ 29)
  have im2 := (by decide : 4 ≤ ((CycleShape.empty.withAcknowledge.addWrites 2).addReads 2).tStates ∧
    ((CycleShape.empty.withAcknowledge.addWrites 2).addReads 2).tStates ≤ 29)
  have h : (c.response kind).Always (fun s _ => 4 ≤ s.2.tStates ∧ s.2.tStates ≤ 29) [] := by
    cases kind with
    | nonMaskable => exact (Dialogue.always_bind _ _ _).mpr (Op.always_push _ _ _ fun _ _ _ => nmi)
    | maskable =>
      refine (Dialogue.always_bind _ _ _).mpr (Op.always_push _ _ _ fun _ _ _ => ?_)
      split
      · exact fun _ _ => im2
      · exact im1
  exact h.run c.bus {} {}

theorem Stepped.time (h : c.Stepped budget k t m d) (hl : c.lifecycle ≠ .paused) (hk : ∀ loop, k ≠ .skipped loop) :
    4 ≤ t ∧ t ≤ 29 := by
  cases h with
  | paused h => exact absurd h hl
  | response _ _ ht =>
    rw [ht]
    exact c.response_time _
  | halted => decide
  | skipped => exact absurd rfl (hk _)
  | instruction => exact ⟨c.core.outcome_time _ _, c.core.outcome_time_le _ _⟩

lemma Stepped.lifecycle (h : c.Stepped budget k t m d) (hl : c.lifecycle ≠ .paused) : m.lifecycle ≠ .paused := by
  cases h with
  | paused h => exact absurd h hl
  | response => exact Lifecycle.awake_ne_paused hl
  | halted => exact Lifecycle.awake_ne_paused hl
  | skipped => exact Lifecycle.awake_ne_paused hl
  | instruction => exact Lifecycle.awake_ne_paused hl

lemma Stepped.clock (h : c.Stepped budget k t m d) : m.clock = c.clock := by
  cases h <;> rfl

lemma Stepped.total (h : c.Stepped budget k t m d) : m.total = c.total + UInt64.ofNat t := by
  cases h with
  | paused => exact (UInt64.add_zero _).symm
  | response => rfl
  | halted => rfl
  | skipped => rfl
  | instruction => rfl

end Cpu

namespace Machine

variable {B : Type} [Bus B]

def tick (m : Machine B) : Nat × Machine B :=
  let (cycles, c) := m.cpu.step Cpu.unbounded
  (cycles, c.machine)

def ticks (m : Machine B) : Nat → Nat × Machine B
  | 0 => (0, m)
  | n + 1 =>
    let (cycles, m') := m.tick
    let (rest, m'') := m'.ticks n
    (cycles + rest, m'')

end Machine

theorem Cpu.Stepped.tick {B : Type} [Bus B] {c : Cpu B} {budget : Nat} {k : StepKind} {t : Nat} {m : Machine B}
    {d : Idle.Detector} (h : c.Stepped budget k t m d) (hk : ∀ loop, k ≠ .skipped loop) : c.machine.tick = (t, m) := by
  have bare : ∃ d', c.machine.cpu.Stepped unbounded k t m d' := by
    cases h with
    | paused hl => exact ⟨_, .paused hl⟩
    | response hl hp ht => exact ⟨_, .response hl hp ht⟩
    | halted hl hp hh => exact ⟨_, .halted hl hp hh⟩
    | skipped hl hp hh hs => exact absurd rfl (hk _)
    | instruction hl hp hh hs => exact ⟨_, .instruction hl hp hh rfl⟩
  obtain ⟨d', h'⟩ := bare
  obtain ⟨ht, hm, -⟩ := (c.machine.cpu.stepped unbounded).unique h'
  exact Prod.ext ht hm

namespace Machine

variable {B : Type} [Bus B] {m m' m'' : Machine B}

lemma tick_time (hl : m.lifecycle ≠ .paused) : 4 ≤ m.tick.1 :=
  ((m.cpu.stepped Cpu.unbounded).time hl (Cpu.stepKind_bare m _)).1

lemma tick_lifecycle (hl : m.lifecycle ≠ .paused) : m.tick.2.lifecycle ≠ .paused :=
  (m.cpu.stepped Cpu.unbounded).lifecycle hl

lemma ticks_add (m : Machine B) (i j : Nat) :
    m.ticks (i + j) = ((m.ticks i).1 + ((m.ticks i).2.ticks j).1, ((m.ticks i).2.ticks j).2) := by
  induction i generalizing m with
  | zero => simp [ticks]
  | succ i ih => simp only [Nat.succ_add, ticks, ih, Nat.add_assoc]

lemma ticks_lifecycle (hl : m.lifecycle ≠ .paused) (n : Nat) : (m.ticks n).2.lifecycle ≠ .paused := by
  induction n generalizing m with
  | zero => exact hl
  | succ n ih => exact ih (tick_lifecycle hl)

lemma ticks_lt {i j : Nat} (hl : m.lifecycle ≠ .paused) (hij : i < j) : (m.ticks i).1 < (m.ticks j).1 := by
  obtain ⟨k, rfl⟩ := Nat.exists_eq_add_of_lt hij
  rw [Nat.add_assoc, ticks_add]
  have := tick_time (ticks_lifecycle hl i)
  simp only [ticks]
  omega

def Reaches (m : Machine B) (target ran : Nat) (m' : Machine B) : Prop :=
  ∃ n, m.ticks n = (ran, m') ∧ target ≤ ran ∧ ∀ i < n, (m.ticks i).1 < target

namespace Reaches

variable {target target' ran ran' : Nat}

lemma zero (m : Machine B) : m.Reaches 0 0 m :=
  ⟨0, rfl, Nat.le_refl 0, fun _ h => absurd h (Nat.not_lt_zero _)⟩

lemma of_le (m : Machine B) (h : target ≤ ran) : m.Reaches (target - ran) 0 m := by
  rw [Nat.sub_eq_zero_of_le h]
  exact zero m

lemma of_ticks (hl : m.lifecycle ≠ .paused) {budget n : Nat} (hb : 0 < budget) (hn : 0 < n)
    (ht : m.ticks n = (ran, m')) (h : n = 1 ∨ ran ≤ budget) : ∃ target ≤ budget, m.Reaches target ran m' := by
  have hlt (i : Nat) (hi : i < n) : (m.ticks i).1 < ran := by
    have := ticks_lt hl hi
    rwa [ht] at this
  rcases h with rfl | hle
  · refine ⟨1, hb, 1, ht, hlt 0 hn, fun i hi => ?_⟩
    rw [Nat.lt_one_iff.mp hi]
    exact Nat.one_pos
  · exact ⟨ran, hle, n, ht, Nat.le_refl _, hlt⟩

lemma later (h : m.Reaches target ran m') (hle : target ≤ target') (hran : target' ≤ ran) :
    m.Reaches target' ran m' := by
  obtain ⟨n, hn, -, hlt⟩ := h
  exact ⟨n, hn, hran, fun i hi => Nat.lt_of_lt_of_le (hlt i hi) hle⟩

theorem unique (h : m.Reaches target ran m') (h' : m.Reaches target ran' m'') : ran = ran' ∧ m' = m'' := by
  obtain ⟨i, hi, hle, hlt⟩ := h
  obtain ⟨j, hj, hle', hlt'⟩ := h'
  have hij : i = j := by
    have hni : ¬ i < j := fun h => absurd (hlt' i h) (by rw [hi]; exact Nat.not_lt.mpr hle)
    have hnj : ¬ j < i := fun h => absurd (hlt j h) (by rw [hj]; exact Nat.not_lt.mpr hle')
    omega
  rw [hij, hj] at hi
  exact ⟨(congrArg Prod.fst hi).symm, (congrArg Prod.snd hi).symm⟩

theorem trans (h : m.Reaches target' ran m') (hle : target' ≤ target) (h' : m'.Reaches (target - ran) ran' m'') :
    m.Reaches target (ran + ran') m'' := by
  obtain ⟨i, hi, -, hlt⟩ := h
  obtain ⟨j, hj, hge, hlt'⟩ := h'
  refine ⟨i + j, by rw [ticks_add, hi, hj], by omega, fun k hk => ?_⟩
  rcases Nat.lt_or_ge k i with hki | hki
  · exact Nat.lt_of_lt_of_le (hlt k hki) hle
  · obtain ⟨l, rfl⟩ := Nat.exists_eq_add_of_le hki
    have := hlt' l (by omega)
    rw [ticks_add, hi]
    dsimp only
    omega

theorem exact (hl : m.lifecycle ≠ .paused) (h : m.Reaches target ran m') : m.Reaches ran ran m' := by
  obtain ⟨n, hn, -, -⟩ := h
  refine ⟨n, hn, Nat.le_refl _, fun i hi => ?_⟩
  have := ticks_lt hl hi
  rwa [hn] at this

lemma lifecycle (hl : m.lifecycle ≠ .paused) (h : m.Reaches target ran m') : m'.lifecycle ≠ .paused := by
  obtain ⟨n, hn, -, -⟩ := h
  have := ticks_lifecycle hl n
  rwa [hn] at this

end Reaches

end Machine

end Z80Machine
