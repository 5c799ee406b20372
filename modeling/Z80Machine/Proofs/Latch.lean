import Z80Machine.Board
import Z80Machine.Proofs.Course

/-! The latch and the delay behind `EI`, told from what has happened alone. -/

namespace Z80Machine

def Happening.latch (waiting : Option Interrupt) : Happening → Option Interrupt
  | poweredOn | serviced _ => none
  | requested kind => if waiting = some .nonMaskable then waiting else some kind
  | _ => waiting

def Happening.delay (before : Bool) : Happening → Bool
  | poweredOn => false
  | executed op => (op matches .ei)
  | _ => before

def latched (waiting : Option Interrupt) (hs : List Happening) : Option Interrupt :=
  hs.foldr (fun x waiting => x.latch waiting) waiting

/-- The operation run last. Power-on forgets it. -/
def lastRun : List Happening → Option Op
  | [] => none
  | .poweredOn :: _ => none
  | .executed op :: _ => some op
  | _ :: hs => lastRun hs

lemma latched_nonMaskable (waiting : Option Interrupt) (later earlier : List Happening)
    (hlater : ∀ x ∈ later, x.isStep = false ∧ x ≠ .poweredOn) :
    latched waiting (later ++ .requested .nonMaskable :: earlier) = some .nonMaskable := by
  induction later with
  | nil =>
    change (if latched waiting earlier = some .nonMaskable then latched waiting earlier else _) = _
    split
    case isTrue h => exact h
    case isFalse => rfl
  | cons x later ih =>
    obtain ⟨hstep, hpower⟩ := hlater x List.mem_cons_self
    have hwaiting := ih fun y hy => hlater y (List.mem_cons_of_mem x hy)
    change x.latch (latched waiting (later ++ _)) = _
    rw [hwaiting]
    cases x with
    | poweredOn => exact absurd rfl hpower
    | serviced kind => exact Bool.noConfusion hstep
    | executed op => exact Bool.noConfusion hstep
    | idled => exact Bool.noConfusion hstep
    | requested kind => rfl
    | enabled on => rfl
    | written => rfl

namespace Cpu

variable {B : Type} [Bus B] {c d : Cpu B} {hs : List Happening} {budget : Nat} {kind : Interrupt}

/-! A step -/

lemma stepKind_response_iff :
    d.stepKind budget = .response kind ↔ d.lifecycle ≠ .paused ∧ d.pending = some kind ∧ d.accepts kind = true := by
  rw [← Option.filter_eq_some_iff]
  constructor
  · intro h
    have hstep := d.stepped budget
    rw [h] at hstep
    exact hstep.of_response.1
  · rintro ⟨hl, hp⟩
    rw [stepKind, if_neg hl, hp]

lemma after_response (h : d.stepKind budget = .response kind) :
    (d.step budget).2.pending = none ∧ (d.step budget).2.core.halted = false ∧
      (d.step budget).2.regs = ((d.response kind).run d.bus {} {}).result.1.refresh 1 := by
  have hstep := d.stepped budget
  rw [h] at hstep
  obtain ⟨-, -, hm, -⟩ := hstep.of_response
  exact ⟨congrArg Machine.pending hm, congrArg (·.core.halted) hm, congrArg (·.core.regs) hm⟩

lemma response_pc (d : Cpu B) : ((d.response .nonMaskable).run d.bus {} {}).result.1.pc = nmiVector := by
  have h : (d.response .nonMaskable).Always (fun s _ => s.1.pc = nmiVector) [] :=
    (Dialogue.always_bind _ _ _).mpr (Op.always_push _ _ _ fun _ _ _ => rfl)
  exact h.run d.bus {} {}

/-! A move -/

lemma Moved.latch {x : Option Happening} {core : Core} {pending : Option Interrupt} (h : Moved c x core pending) :
    pending = x.elim c.pending (Happening.latch c.pending) := by
  cases h <;> rfl

lemma Moved.eiDelay {x : Option Happening} {core : Core} {pending : Option Interrupt} (h : Moved c x core pending) :
    core.eiDelay = x.elim c.core.eiDelay (Happening.delay c.core.eiDelay) := by
  cases h
  case executed =>
    have hdelay := congrArg Core.eiDelay (c.core.outcome_core c.bus c.clock.mode)
    rw [← c.core.outcome_instruction c.bus c.clock.mode] at hdelay
    exact hdelay
  all_goals rfl

/-! A course -/

namespace Course

theorem pending (h : Course c hs d) : d.pending = latched c.pending hs := by
  induction h with
  | rest => rfl
  | @move hs x d e _ hm ih =>
    rw [hm.moved.latch, ih]
    cases x <;> rfl

lemma delayed (h : Course c hs d) (hlast : lastRun hs = some .ei) : d.core.eiDelay = true := by
  induction h with
  | rest => contradiction
  | @move hs x d e _ hm ih =>
    rw [hm.moved.eiDelay]
    cases x with
    | none => exact ih hlast
    | some x =>
      cases x with
      | poweredOn => contradiction
      | executed op =>
        obtain rfl : op = .ei := Option.some.inj hlast
        rfl
      | _ => exact ih hlast

lemma not_delayed (h : Course c hs d) (hc : c.core.eiDelay = false) (hlast : lastRun hs ≠ some .ei) :
    d.core.eiDelay = false := by
  induction h with
  | rest => exact hc
  | @move hs x d e _ hm ih =>
    rw [hm.moved.eiDelay]
    cases x with
    | none => exact ih hlast
    | some x =>
      cases x with
      | poweredOn => rfl
      | executed op =>
        have hop : op ≠ .ei := fun h => hlast (congrArg some h)
        cases op <;> first | rfl | exact absurd rfl hop
      | _ => exact ih hlast

theorem serviced_le (h : Course c hs d) (kind : Interrupt) :
    hs.count (.serviced kind) + d.pending.toList.count kind ≤
      hs.count (.requested kind) + c.pending.toList.count kind := by
  induction h with
  | rest => exact Nat.le_refl _
  | @move hs x d e _ hm ih =>
    have hmoved := hm.moved
    generalize e.core = core at hmoved
    generalize e.pending = waiting at hmoved ⊢
    cases hmoved with
    | @serviced k hp ha =>
      -- What was waiting is now among what was serviced, so the sum stays.
      rw [hp] at ih
      cases k <;> cases kind <;> simp at ih ⊢ <;> omega
    | requested k =>
      generalize d.pending = before at ih ⊢
      rcases before with _ | ⟨_ | _⟩ <;> cases k <;> cases kind <;> simp at ih ⊢ <;> omega
    | poweredOn => simp; omega
    | _ => simpa using ih

theorem waits (h : Course c hs d) (hc : c.pending = some .maskable) (hpower : .poweredOn ∉ hs)
    (hserviced : .serviced .maskable ∉ hs) (hdisplaced : .requested .nonMaskable ∉ hs) :
    d.pending = some .maskable := by
  induction h with
  | rest => exact hc
  | @move hs x d e _ hm ih =>
    have hearlier {y : Happening} (hy : y ∉ x.toList ++ hs) : y ∉ hs := fun h => hy (List.mem_append_right _ h)
    have hwaits := ih (hearlier hpower) (hearlier hserviced) (hearlier hdisplaced)
    have hmoved := hm.moved
    generalize e.core = core at hmoved
    generalize e.pending = waiting at hmoved ⊢
    cases hmoved with
    | poweredOn => exact absurd List.mem_cons_self hpower
    | @serviced k hp ha =>
      rw [hwaits] at hp
      cases hp
      exact absurd List.mem_cons_self hserviced
    | requested k =>
      cases k with
      | maskable => rw [hwaits]; rfl
      | nonMaskable => exact absurd List.mem_cons_self hdisplaced
    | _ => exact hwaits

lemma nonMaskable_next (h : Course c hs d) {later earlier : List Happening}
    (hs' : hs = later ++ .requested .nonMaskable :: earlier)
    (hlater : ∀ x ∈ later, x.isStep = false ∧ x ≠ .poweredOn) :
    d.pending = some .nonMaskable ∧ (d.lifecycle ≠ .paused → ∀ budget,
      d.stepKind budget = .response .nonMaskable ∧ (d.step budget).2.regs.pc = nmiVector) := by
  have hpending : d.pending = some .nonMaskable := by
    rw [h.pending, hs']
    exact latched_nonMaskable c.pending later earlier hlater
  refine ⟨hpending, fun hl budget => ?_⟩
  have hkind : d.stepKind budget = .response .nonMaskable := stepKind_response_iff.mpr ⟨hl, hpending, rfl⟩
  obtain ⟨-, -, hregs⟩ := after_response hkind
  rw [hregs]
  exact ⟨hkind, d.response_pc⟩

lemma maskable_held (h : Course c hs d) (hk : d.stepKind budget = .response .maskable) :
    d.regs.iff1 = true ∧ lastRun hs ≠ some .ei := by
  obtain ⟨-, -, haccepts⟩ := stepKind_response_iff.mp hk
  obtain ⟨hiff1, hdelay⟩ : d.regs.iff1 = true ∧ d.core.eiDelay = false := by simpa [accepts] using haccepts
  refine ⟨hiff1, fun hlast => ?_⟩
  rw [h.delayed hlast] at hdelay
  contradiction

lemma next_step (h : Course c hs d) {later between earlier : List Happening} {x : Happening}
    (hs' : hs = later ++ x :: (between ++ .requested .nonMaskable :: earlier)) (hx : x.isStep = true)
    (hbetween : ∀ y ∈ between, y.isStep = false ∧ y ≠ .poweredOn) : x = .serviced .nonMaskable := by
  rw [hs'] at h
  obtain ⟨e, f, he, hmove, -⟩ := h.split
  obtain ⟨budget, hkind, -⟩ := hmove.of_isStep hx
  have hl : e.lifecycle ≠ .paused := by
    intro hl
    rw [stepKind, if_pos hl] at hkind
    contradiction
  have hnext := ((he.nonMaskable_next rfl hbetween).2 hl budget).1
  rw [hnext] at hkind
  exact (Option.some.inj hkind).symm

lemma of_serviced (h : Course c hs d) {later earlier : List Happening} (hs' : hs = later ++ .serviced kind :: earlier) :
    ∃ e budget, Course c earlier e ∧ e.stepKind budget = .response kind ∧ Course (e.step budget).2 later d := by
  rw [hs'] at h
  obtain ⟨e, f, he, hmove, hf⟩ := h.split
  obtain ⟨budget, hkind, rfl⟩ := hmove.of_isStep rfl
  refine ⟨e, budget, he, ?_, hf⟩
  generalize e.stepKind budget = k at hkind
  cases k <;> cases hkind
  rfl

/-- What can be relied on about the latch, whatever the host does and in whatever order, through single steps or runs.
A non-maskable request is serviced by the first step after it. A maskable one is serviced only with interrupts enabled,
and not right behind `EI`. Nothing is serviced twice or unasked, and nothing that waits is lost. -/
theorem latch_protocol (h : Course c hs d) :
    (∀ cycles, ∃ new, Course c (new ++ hs) (d.run cycles).2 ∧ ofHost new = []) ∧
    (∀ (S : Type) (cycles chunk : Nat) (act : Nat → Cpu B × S → Cpu B × S) (s : S)
      (does : Nat → Cpu B × S → List Happening), (∀ ran e s, Course e (does ran (e, s)) (act ran (e, s)).1) →
      ∃ new, Course c (new ++ hs) (d.runChunked cycles chunk act s).2.1 ∧
        ofHost new = ofHost (d.called act does cycles chunk s)) ∧
    (∀ later earlier, hs = later ++ .requested .nonMaskable :: earlier →
      (∀ x ∈ later, x.isStep = false ∧ x ≠ .poweredOn) →
      d.pending = some .nonMaskable ∧ (d.lifecycle ≠ .paused → ∀ budget,
        d.stepKind budget = .response .nonMaskable ∧ (d.step budget).2.regs.pc = nmiVector)) ∧
    (∀ later x between earlier, hs = later ++ x :: (between ++ .requested .nonMaskable :: earlier) →
      x.isStep = true → (∀ y ∈ between, y.isStep = false ∧ y ≠ .poweredOn) → x = .serviced .nonMaskable) ∧
    (∀ budget, d.stepKind budget = .response .maskable → d.regs.iff1 = true ∧ lastRun hs ≠ some .ei) ∧
    (∀ kind later earlier, hs = later ++ .serviced kind :: earlier → ∃ e budget, Course c earlier e ∧
      e.stepKind budget = .response kind ∧ (e.step budget).2.pending = none ∧ Course (e.step budget).2 later d ∧
      (kind = .maskable → e.regs.iff1 = true ∧ lastRun earlier ≠ some .ei)) ∧
    (∀ kind, hs.count (.serviced kind) ≤ hs.count (.requested kind) + c.pending.toList.count kind) ∧
    (∀ kind budget, d.stepKind budget = .response kind → (d.step budget).2.pending = none) ∧
    (c.pending = some .maskable → .poweredOn ∉ hs → .serviced .maskable ∉ hs → .requested .nonMaskable ∉ hs →
      d.pending = some .maskable) := by
  refine ⟨fun cycles => ?_, fun S cycles chunk act s does hdoes => ?_, fun later earlier => h.nonMaskable_next,
    fun later x between earlier => h.next_step, fun budget => h.maskable_held, fun kind later earlier hs' => ?_,
    fun kind => ?_, fun kind budget hk => (after_response hk).1, h.waits⟩
  · obtain ⟨new, hrun, hnew⟩ := Course.run d cycles
    exact ⟨new, h.trans hrun, hnew⟩
  · obtain ⟨new, hrun, hnew⟩ := runChunked hdoes d cycles chunk s
    exact ⟨new, h.trans hrun, hnew⟩
  · obtain ⟨e, budget, he, hk, hlater⟩ := h.of_serviced hs'
    refine ⟨e, budget, he, hk, (after_response hk).1, hlater, fun hmaskable => ?_⟩
    subst hmaskable
    exact he.maskable_held hk
  · have hle := h.serviced_le kind
    omega

theorem latch_protocol_displaced :
    let c : Cpu Board := { bus := Board.mapMemory (·.poke 0 0xFB) {} }
    let d := ((c.step unbounded).2.requestInterrupt .maskable).requestInterrupt .nonMaskable
    let hs : List Happening := [.requested .nonMaskable, .requested .maskable, .executed .ei]
    Course c hs d ∧ d.lifecycle ≠ .paused ∧ d.stepKind unbounded = .response .nonMaskable := by
  intro c d hs
  have h : Course c hs d := by
    have hei : c.happening (c.stepKind unbounded) = some (.executed .ei) := by decide +kernel
    have hrun : Course c [.executed .ei] (c.step unbounded).2 := rest.step hei
    exact (hrun.move (.host (.requestInterrupt .maskable))).move (.host (.requestInterrupt .nonMaskable))
  have hl : d.lifecycle ≠ .paused := by decide +kernel
  obtain ⟨-, -, hnext, -⟩ := latch_protocol h
  exact ⟨h, hl, ((hnext [] _ rfl (by simp)).2 hl unbounded).1⟩

end Course

end Cpu

end Z80Machine
