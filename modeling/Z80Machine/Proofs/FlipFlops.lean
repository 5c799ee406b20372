import Z80Machine.Board
import Z80Machine.Proofs.Control
import Z80Machine.Proofs.Course

/-! The interrupt flip-flops and the interrupt mode over a whole course. Only the response to a non-maskable interrupt
parts the flip-flops, and whatever else sets them brings them together again. -/

namespace Z80Machine

namespace Happening

def settles : Happening → Bool
  | poweredOn | enabled _ | serviced .maskable => true
  | executed op => (op matches .ei | .di | .retn | .reti)
  | _ => false

end Happening

def sincePowerOn (hs : List Happening) : List Happening :=
  hs.takeWhile (· ≠ .poweredOn)

lemma mem_sincePowerOn_cons {hs : List Happening} {x y : Happening} (hy : y ≠ .poweredOn)
    (hx : x ∈ sincePowerOn hs) : x ∈ sincePowerOn (y :: hs) := by
  rw [sincePowerOn, List.takeWhile_cons_of_pos (by simpa using hy)]
  exact List.mem_cons_of_mem y hx

lemma mem_sincePowerOn_append {new hs : List Happening} {x : Happening} (h : x ∈ sincePowerOn (new ++ hs)) :
    x ∈ new ∨ x ∈ sincePowerOn hs := by
  induction new with
  | nil => exact .inr h
  | cons y new ih =>
    by_cases hy : y = .poweredOn
    · simp [sincePowerOn, hy] at h
    · rw [List.cons_append, sincePowerOn, List.takeWhile_cons_of_pos (by simpa using hy)] at h
      rcases List.mem_cons.mp h with rfl | h
      · exact .inl List.mem_cons_self
      · exact (ih h).imp_left (List.mem_cons_of_mem y)

/-- A non-maskable interrupt has been serviced, and nothing has settled the flip-flops since. -/
def Unsettled (hs : List Happening) : Prop :=
  ∃ later earlier, hs = later ++ .serviced .nonMaskable :: earlier ∧ ∀ x ∈ later, x.settles = false

lemma Unsettled.cons {hs : List Happening} (h : Unsettled hs) {x : Happening} (hx : x.settles = false) :
    Unsettled (x :: hs) := by
  obtain ⟨later, earlier, rfl, hlater⟩ := h
  exact ⟨x :: later, earlier, rfl, List.forall_mem_cons.mpr ⟨hx, hlater⟩⟩

structure Control.Governed (k : Control) (hs : List Happening) : Prop where
  iff2 : k.iff1 = true → k.iff2 = true
  im : k.im = 0 ∨ k.im = 1 ∨ k.im = 2
  differ : k.iff1 ≠ k.iff2 → Unsettled hs

namespace Control.Governed

variable {k : Control} {hs : List Happening} {r : Registers}

lemma cons (h : k.Governed hs) {x : Happening} (hx : x.settles = false) : k.Governed (x :: hs) :=
  ⟨h.iff2, h.im, fun hne => (h.differ hne).cons hx⟩

lemma withInterrupts (h : k.Governed hs) (on : Bool) (hs' : List Happening) : (k.withInterrupts on).Governed hs' :=
  ⟨id, h.im, fun hne => absurd rfl hne⟩

lemma executed (h : r.control.Governed hs) (op : Op)
    (hm : ∀ mode, op = .im mode → mode = 0 ∨ mode = 1 ∨ mode = 2) :
    (op.control r).Governed (.executed op :: hs) := by
  cases op
  case ei => exact h.withInterrupts true _
  case di => exact h.withInterrupts false _
  case im mode => exact ⟨h.iff2, hm mode rfl, fun hne => (h.differ hne).cons rfl⟩
  case loadIA => exact ⟨h.iff2, h.im, fun hne => (h.differ hne).cons rfl⟩
  case retn => exact ⟨id, h.im, fun hne => absurd rfl hne⟩
  case reti => exact ⟨id, h.im, fun hne => absurd rfl hne⟩
  all_goals exact h.cons rfl

lemma serviced (h : k.Governed hs) (kind : Interrupt) : (k.answered kind).Governed (.serviced kind :: hs) := by
  cases kind with
  | nonMaskable => exact ⟨nofun, h.im, fun _ => ⟨[], hs, rfl, List.forall_mem_nil _⟩⟩
  | maskable => exact h.withInterrupts false _

end Control.Governed

namespace Cpu

variable {B : Type} [Bus B] {c d : Cpu B} {hs : List Happening}

lemma governed_powerOn (hs : List Happening) : (Registers.powerOn.control).Governed hs :=
  ⟨nofun, .inl rfl, fun hne => absurd rfl hne⟩

lemma Moved.governed {x : Option Happening} {core : Core} {pending : Option Interrupt} (h : Moved c x core pending)
    (hx : x ≠ some .written) (hc : x = some .poweredOn ∨ c.regs.control.Governed hs) :
    core.regs.control.Governed (x.toList ++ hs) := by
  rcases hc with rfl | hc
  · cases h
    exact governed_powerOn _
  · cases h with
    | kept => exact hc
    | halted => exact hc
    | poweredOn => exact governed_powerOn _
    | requested kind => exact hc.cons rfl
    | enabled on => exact hc.withInterrupts on _
    | written regs => exact absurd rfl hx
    | serviced hp ha =>
      rw [Registers.control_refresh, response_control]
      exact hc.serviced _
    | idled n => exact hc.cons rfl
    | executed =>
      have hop : c.outcome.instruction = c.core.upcoming c.bus := c.core.outcome_instruction c.bus c.clock.mode
      have hcontrol : c.outcome.core.regs.control = (c.core.upcoming c.bus).op.control c.regs :=
        c.core.outcome_control c.bus c.clock.mode
      rw [hcontrol, hop]
      exact hc.executed _ fun mode => c.core.upcoming_moded c.bus

lemma Course.governed (h : Course c hs d) (hc : Fresh c) (hw : .written ∉ sincePowerOn hs) :
    d.regs.control.Governed hs := by
  induction h with
  | rest =>
    rw [regs, hc.core]
    exact governed_powerOn _
  | @move hs x d e _ hm ih =>
    have hx : x ≠ some .written := by
      rintro rfl
      simp [sincePowerOn] at hw
    refine hm.moved.governed hx ?_
    -- power on forgets whatever was written before it, any other happening keeps what was known
    by_cases hp : x = some .poweredOn
    · exact .inl hp
    · refine .inr (ih fun hmem => hw ?_)
      cases x with
      | none => exact hmem
      | some y => exact mem_sincePowerOn_cons (fun h => hp (congrArg some h)) hmem

lemma Course.governed_append (h : Course c hs d) (hc : Fresh c) (hw : .written ∉ sincePowerOn hs) {e : Cpu B}
    {new : List Happening} (hrun : Course d new e) (hnew : .written ∉ ofHost new) :
    e.regs.control.Governed (new ++ hs) := by
  refine (h.trans hrun).governed hc fun hmem => ?_
  rcases mem_sincePowerOn_append hmem with hmem | hmem
  · exact hnew ((mem_ofHost rfl).mpr hmem)
  · exact hw hmem

/-- Wherever a host that writes no registers may have brought the processor, through single steps or runs, the first
flip-flop is not set without the second, one of the three modes is selected, and the flip-flops differ only behind a
non-maskable interrupt. What was written before power was last switched on does not matter. -/
theorem Course.flip_flops (d : Cpu B) :
    (∀ writes, Reachable writes d ↔ ∃ c hs, Fresh c ∧ Course c hs d ∧ (.written ∈ hs → writes)) ∧
    ∀ c hs, Fresh c → Course c hs d → .written ∉ sincePowerOn hs →
      ((d.regs.iff1 = true → d.regs.iff2 = true) ∧
        (d.regs.im = 0 ∨ d.regs.im = 1 ∨ d.regs.im = 2) ∧
        (d.regs.iff1 ≠ d.regs.iff2 → ∃ later earlier, hs = later ++ .serviced .nonMaskable :: earlier ∧
          ∀ x ∈ later, x.settles = false)) ∧
      (∀ cycles, ∃ new, Course c (new ++ hs) (d.run cycles).2 ∧ ofHost new = [] ∧
        (d.run cycles).2.regs.control.Governed (new ++ hs)) ∧
      ∀ (S : Type) (cycles chunk : Nat) (act : Nat → Cpu B × S → Cpu B × S) (s : S)
        (does : Nat → Cpu B × S → List Happening), (∀ ran e s, Course e (does ran (e, s)) (act ran (e, s)).1) →
        ∃ new, Course c (new ++ hs) (d.runChunked cycles chunk act s).2.1 ∧
          ofHost new = ofHost (d.called act does cycles chunk s) ∧
          (.written ∉ d.called act does cycles chunk s →
            (d.runChunked cycles chunk act s).2.1.regs.control.Governed (new ++ hs)) := by
  refine ⟨fun writes => reachable_iff_course, fun c hs hc h hw => ⟨?_, fun cycles => ?_, ?_⟩⟩
  · have hd := h.governed hc hw
    exact ⟨hd.iff2, hd.im, hd.differ⟩
  · obtain ⟨new, hrun, hnew⟩ := run d cycles
    refine ⟨new, h.trans hrun, hnew, h.governed_append hc hw hrun ?_⟩
    rw [hnew]
    exact List.not_mem_nil
  · intro S cycles chunk act s does hdoes
    obtain ⟨new, hrun, hnew⟩ := runChunked hdoes d cycles chunk s
    refine ⟨new, h.trans hrun, hnew, fun hcalled => h.governed_append hc hw hrun ?_⟩
    rwa [hnew, mem_ofHost rfl]

theorem Course.flip_flops_parted :
    let c : Cpu Board := { bus := Board.mapMemory (·.poke 0 0xFB) {} }
    let d := (((c.step unbounded).2.requestInterrupt .nonMaskable).step unbounded).2
    let hs : List Happening := [.serviced .nonMaskable, .requested .nonMaskable, .executed .ei]
    Fresh c ∧ Course c hs d ∧ .written ∉ sincePowerOn hs ∧ d.regs.iff1 ≠ d.regs.iff2 ∧
      ∃ later earlier, hs = later ++ .serviced .nonMaskable :: earlier ∧ ∀ x ∈ later, x.settles = false := by
  intro c d hs
  have hfresh : Fresh c := .new _
  have hei : c.happening (c.stepKind unbounded) = some (.executed .ei) := by decide +kernel
  let e := (c.step unbounded).2.requestInterrupt .nonMaskable
  have hrequested : Course c [.requested .nonMaskable, .executed .ei] e :=
    (rest.step hei).move (.host (.requestInterrupt .nonMaskable))
  have hnmi : e.happening (e.stepKind unbounded) = some (.serviced .nonMaskable) := by decide +kernel
  have h : Course c hs d := hrequested.step hnmi
  have hw : .written ∉ sincePowerOn hs := by decide
  have hne : d.regs.iff1 ≠ d.regs.iff2 := by decide +kernel
  obtain ⟨-, -, hdiffer⟩ := ((flip_flops d).2 c hs hfresh h hw).1
  exact ⟨hfresh, h, hw, hne, hdiffer hne⟩

end Cpu

end Z80Machine
