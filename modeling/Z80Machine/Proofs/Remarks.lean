import Z80Machine.Proofs.Operands

/-! What is remarked of a stack pointer that wraps. Of all that a step may put in the log only the stack has anything to
say of it, so that what a step adds is what its dialogue with the bus notes. -/

namespace Z80Machine

open Bus

def Event.isWrap : Event → Bool
  | pushWrapped _ | popWrapped _ => true
  | _ => false

namespace Log

def wraps (l : Log) : List Event :=
  l.events.toList.filter Event.isWrap

def heeds (l : Log) (es : List Event) : List Event :=
  if l.gate.admits .warn then es.filter Event.isWrap else []

variable (l : Log) (e : Event) (es es' : List Event)

lemma heeds_append : l.heeds (es ++ es') = l.heeds es ++ l.heeds es' := by
  unfold heeds
  split
  · exact List.filter_append es es'
  · rfl

lemma heeds_of_not (h : ∀ e ∈ es, e.isWrap = false) : l.heeds es = [] := by
  unfold heeds
  split
  · exact List.filter_eq_nil_iff.mpr fun e he => Bool.eq_false_iff.mp (h e he)
  · rfl

lemma heeds_congr {l l' : Log} (h : l'.gate = l.gate) : l'.heeds es = l.heeds es := by
  rw [heeds, h, heeds]

lemma gate_add : (l.add e).gate = l.gate := by
  unfold add
  split <;> rfl

lemma wraps_add : (l.add e).wraps = l.wraps ++ l.heeds [e] := by
  cases he : e.isWrap with
  | true =>
    have hlevel : e.level = .warn := by
      cases e <;> first | rfl | cases he
    unfold add heeds
    rw [hlevel]
    split <;> simp [wraps, he]
  | false =>
    rw [heeds_of_not _ _ (by simpa using he), List.append_nil]
    unfold add
    split <;> simp [wraps, he]

lemma addAll_spec : (l.addAll es).gate = l.gate ∧ (l.addAll es).wraps = l.wraps ++ l.heeds es := by
  induction es generalizing l with
  | nil => exact ⟨rfl, by rw [heeds_of_not _ _ (List.forall_mem_nil _), List.append_nil]; rfl⟩
  | cons e es ih =>
    obtain ⟨hgate, hwraps⟩ := ih (l.add e)
    refine ⟨hgate.trans (l.gate_add e), hwraps.trans ?_⟩
    rw [wraps_add, heeds_congr es (l.gate_add e), List.append_assoc, ← heeds_append, List.singleton_append]

lemma wraps_addAll_of_not (h : ∀ e ∈ es, e.isWrap = false) : (l.addAll es).wraps = l.wraps := by
  rw [(l.addAll_spec es).2, heeds_of_not _ _ h, List.append_nil]

end Log

class TacitBus (B : Type) [Bus B] : Prop where
  write : ∀ (b : B) (addr : UInt16) (byte : UInt8), ∀ e ∈ writeRemark b addr byte, e.isWrap = false
  input : ∀ (b : B) (port : UInt8), ∀ e ∈ inputRemark b port, e.isWrap = false

instance : TacitBus FlatBus where
  write _ _ _ _ he := absurd he (Option.not_mem_none _)
  input _ _ _ he := absurd he (Option.not_mem_none _)

instance : TacitBus Board where
  write b addr byte e he := by
    simp only [writeRemark] at he
    split at he
    · cases he
      rfl
    · cases he
  input b port e he := by
    simp only [inputRemark] at he
    split at he
    · cases he
      rfl
    · cases he

namespace Dialogue

variable {α β B : Type} [Bus B]

def notes : Dialogue α → B → List Event
  | done _, _ => []
  | read addr next, b => (next (Bus.read b addr).1).notes (Bus.read b addr).2
  | write addr byte next, b => next.notes (Bus.write b addr byte)
  | input port next, b => (next (Bus.input b port).1).notes (Bus.input b port).2
  | output port byte next, b => next.notes (Bus.output b port byte)
  | note event next, b => event :: next.notes b

lemma notes_bind (d : Dialogue α) (f : α → Dialogue β) (b : B) (log : Log) (traffic : Traffic) :
    (d.bind f).notes b = d.notes b ++ (f (d.run b log traffic).result).notes (d.run b log traffic).bus := by
  induction d generalizing b log traffic with
  | done => rfl
  | read addr next ih => exact ih _ _ _ _
  | write addr byte next ih => exact ih _ _ _
  | input port next ih => exact ih _ _ _ _
  | output port byte next ih => exact ih _ _ _
  | note event next ih => exact congrArg (event :: ·) (ih _ _ _)

theorem run_wraps [TacitBus B] (d : Dialogue α) (b : B) (log : Log) (traffic : Traffic) :
    (d.run b log traffic).log.gate = log.gate ∧
      (d.run b log traffic).log.wraps = log.wraps ++ log.heeds (d.notes b) := by
  have hremark (log : Log) (o : Option Event) (h : ∀ e ∈ o, e.isWrap = false) {l : Log} {es : List Event}
      (hl : l.gate = (log.addAll o.toList).gate ∧
        l.wraps = (log.addAll o.toList).wraps ++ (log.addAll o.toList).heeds es) :
      l.gate = log.gate ∧ l.wraps = log.wraps ++ log.heeds es := by
    have hgate := (log.addAll_spec o.toList).1
    rw [hgate, Log.heeds_congr es hgate, log.wraps_addAll_of_not _ (by simpa using h)] at hl
    exact hl
  induction d generalizing b log traffic with
  | done => exact ⟨rfl, by rw [notes, log.heeds_of_not _ (List.forall_mem_nil _), List.append_nil]; rfl⟩
  | read addr next ih => exact ih _ _ _ _
  | write addr byte next ih =>
    exact hremark log (writeRemark b addr byte) (TacitBus.write b addr byte) (ih _ _ _)
  | input port next ih => exact hremark log (inputRemark b port) (TacitBus.input b port) (ih _ _ _ _)
  | output port byte next ih => exact ih _ _ _
  | note event next ih =>
    obtain ⟨hgate, hwraps⟩ := ih b (log.add event) traffic
    refine ⟨hgate.trans (log.gate_add event), hwraps.trans ?_⟩
    rw [log.wraps_add, Log.heeds_congr _ (log.gate_add event), List.append_assoc, ← Log.heeds_append]
    rfl

lemma notes_remarks (es : List Event) (b : B) (log : Log) (traffic : Traffic) :
    (es.forM remark).notes b = es ∧ ((es.forM remark).run b log traffic).bus = b := by
  induction es generalizing log with
  | nil => exact ⟨rfl, rfl⟩
  | cons e es ih =>
    obtain ⟨hnotes, hbus⟩ := ih (log.add e)
    exact ⟨congrArg (e :: ·) hnotes, hbus⟩

end Dialogue

lemma Encoding.notes_fetch {α B : Type} [Bus B] (e : Encoding α) (addr : UInt16) (seen : List UInt8) (b : B) :
    (e.fetch addr seen).notes b = [] := by
  induction e generalizing addr seen b with
  | complete => rfl
  | more next ih => exact ih _ _ _ _

lemma Trace.record_tacit (t : Trace) (i : Instruction) (r : Registers) :
    ∀ e ∈ (t.record i r).events, e.isWrap = false := by
  unfold record
  split
  · exact List.forall_mem_nil _
  · split
    · exact List.forall_mem_singleton.mpr rfl
    · exact List.forall_mem_singleton.mpr rfl

namespace Idle.Detector

variable (d : Detector)

lemma observe_tacit (step : Step) (safe : Bool) (after : Registers) :
    ∀ e ∈ (d.observe step safe after).events, e.isWrap = false := by
  unfold observe
  split
  · exact List.forall_mem_nil _
  · split
    · exact List.forall_mem_nil _
    · dsimp only
      split
      · exact List.forall_mem_nil _
      · exact List.forall_mem_singleton.mpr rfl

lemma cancel_tacit (why : Release) : ∀ e ∈ (d.cancel why).events, e.isWrap = false := by
  unfold cancel
  dsimp only
  split
  · exact List.forall_mem_singleton.mpr rfl
  · exact List.forall_mem_nil _

end Idle.Detector

/-! One step -/

section

variable {B : Type} [Bus B]

lemma Instruction.notes_fetchAt (pc : UInt16) (b : B) : (fetchAt pc).notes b = [] := by
  simp only [fetchAt, decode, Dialogue.bind_eq, Dialogue.pure_eq, Dialogue.notes_bind _ _ _ {} {}, Encoding.notes_fetch]
  rfl

def Core.upcomingOperation (c : Core) (b : B) : Dialogue (Registers × Nat) :=
  (c.upcoming b).op.onRegisters (c.upcoming b).address (c.behind (c.upcoming b))

lemma Core.heeds_cycle (c : Core) (trace : Trace) (b : B) (log : Log) :
    log.heeds ((c.cycle trace).notes b) = log.heeds ((c.upcomingOperation b).notes (c.fetched b).bus) := by
  have hcycle : c.cycle trace = (Instruction.fetchAt c.regs.pc).bind fun f =>
      ((trace.record f.2 (c.ready f.2).regs).events.forM Dialogue.remark).bind fun _ =>
        (f.2.execute (c.ready f.2)).bind fun e =>
          .done ⟨f.2, f.1, e.1, (trace.record f.2 (c.ready f.2).regs).value, e.2⟩ := by
    simp only [cycle, Instruction.fetchAt, Dialogue.bind_eq, Dialogue.pure_eq, Dialogue.bind_assoc, Dialogue.done_bind]
    rfl
  obtain ⟨hremarks, hbus⟩ := Dialogue.notes_remarks (trace.record (c.upcoming b) (c.ready (c.upcoming b)).regs).events
    (c.fetched b).bus {} {}
  have hexecute (b' : B) {α : Type} (f : Core × Nat → α) :
      (((c.upcoming b).execute (c.ready (c.upcoming b))).bind fun e => .done (f e)).notes b' =
        (c.upcomingOperation b).notes b' := by
    simp only [Instruction.execute, Dialogue.bind_eq, Dialogue.pure_eq, Dialogue.bind_assoc, Dialogue.done_bind,
      Dialogue.notes_bind _ _ _ {} {}]
    exact List.append_nil _
  have hnotes : (c.cycle trace).notes b = (trace.record (c.upcoming b) (c.ready (c.upcoming b)).regs).events ++
      (c.upcomingOperation b).notes (c.fetched b).bus := by
    rw [hcycle, Dialogue.notes_bind _ _ b {} {}, Instruction.notes_fetchAt, List.nil_append,
      Dialogue.notes_bind _ _ _ {} {}]
    refine congrArg₂ (· ++ ·) hremarks ((hexecute _ _).trans ?_)
    exact congrArg (c.upcomingOperation b).notes hbus
  rw [hnotes, log.heeds_append, log.heeds_of_not _ (trace.record_tacit _ _), List.nil_append]

namespace Cpu

variable {c : Cpu B} {budget : Nat}

lemma Stepped.runs {t : Nat} {m : Machine B} {d : Idle.Detector} (h : c.Stepped budget .instruction t m d) :
    c.lifecycle ≠ .paused ∧ c.pending.filter c.accepts = none ∧ c.core.halted = false ∧
      c.skippable? budget = none := by
  cases h with
  | instruction hl hp hh hs => exact ⟨hl, hp, hh, hs⟩

lemma advance_of_instruction (hp : c.pending.filter c.accepts = none) (hh : c.core.halted = false)
    (hs : c.skippable? budget = none) : c.advance budget = c.runInstruction := by
  rw [advance, hp, hh, hs]
  rfl

lemma advance_of_response {kind : Interrupt} (hp : c.pending.filter c.accepts = some kind) :
    c.advance budget = c.service kind := by
  rw [advance, hp]

lemma step_of_instruction (hk : c.stepKind budget = .instruction) :
    let s := { c with lifecycle := c.lifecycle.awake }.runInstruction
    c.step budget = (s.1, { s.2 with total := s.2.total + UInt64.ofNat s.1 }) := by
  have hstep := c.stepped budget
  rw [hk] at hstep
  obtain ⟨hl, hp, hh, hs⟩ := hstep.runs
  rw [step_eq hl, advance_of_instruction (c := { c with lifecycle := c.lifecycle.awake }) hp hh hs]

lemma step_of_response {kind : Interrupt} (hk : c.stepKind budget = .response kind) :
    let s := { c with lifecycle := c.lifecycle.awake }.service kind
    c.step budget = (s.1, { s.2 with total := s.2.total + UInt64.ofNat s.1 }) := by
  have hstep := c.stepped budget
  rw [hk] at hstep
  obtain ⟨⟨hl, hp⟩, -⟩ := hstep.of_response
  rw [step_eq hl, advance_of_response (c := { c with lifecycle := c.lifecycle.awake }) hp]

variable [TacitBus B]

theorem wraps_of_instruction (hk : c.stepKind budget = .instruction) : (c.step budget).2.log.wraps =
    c.log.wraps ++ c.log.heeds ((c.core.upcomingOperation c.bus).notes (c.core.fetched c.bus).bus) := by
  rw [step_of_instruction hk, ← c.core.heeds_cycle c.trace c.bus c.log,
    ← ((c.core.cycle c.trace).run_wraps c.bus c.log {}).2]
  exact Log.wraps_addAll_of_not _ _ (Idle.Detector.observe_tacit _ _ _ _)

theorem wraps_of_response {kind : Interrupt} (hk : c.stepKind budget = .response kind) :
    (c.step budget).2.log.wraps = c.log.wraps ++ c.log.heeds ((c.response kind).notes c.bus) := by
  rw [step_of_response hk, ← ((c.response kind).run_wraps c.bus c.log {}).2]
  cases kind <;> exact Log.wraps_addAll_of_not _ _ (Idle.Detector.cancel_tacit _ _)

end Cpu

end

end Z80Machine
