import Z80Machine.Proofs.Fetching
import Z80Machine.Proofs.Reachable

/-! What has happened to a processor, newest first. A course is any sequence of what the host may do and of steps, be
they taken one by one or in runs, together with what of it bears on interrupts. -/

namespace Z80Machine

inductive Happening where
  | poweredOn
  | requested (kind : Interrupt)
  | enabled (on : Bool)
  | written
  | serviced (kind : Interrupt)
  | executed (op : Op)
  | idled
  deriving DecidableEq, Repr

namespace Happening

def isStep : Happening → Bool
  | serviced _ | executed _ | idled => true
  | _ => false

end Happening

def ofHost (hs : List Happening) : List Happening :=
  hs.filter fun x => !x.isStep

@[simp] lemma ofHost_append (hs hs' : List Happening) : ofHost (hs ++ hs') = ofHost hs ++ ofHost hs' :=
  List.filter_append ..

lemma mem_ofHost {hs : List Happening} {x : Happening} (hx : x.isStep = false) : x ∈ ofHost hs ↔ x ∈ hs := by
  simp [ofHost, hx]

def HostOp.happening {B : Type} (c : Cpu B) : HostOp B → Option Happening
  | setUp | reset => some .poweredOn
  | start => if c.lifecycle = .uninitialized then some .poweredOn else none
  | requestInterrupt kind => some (.requested kind)
  | _ => none

lemma HostOp.isStep_of_happening {B : Type} {op : HostOp B} {c : Cpu B} {x : Happening}
    (h : op.happening c = some x) : x.isStep = false := by
  cases op
  case start =>
    simp only [HostOp.happening] at h
    split at h <;> cases h
    rfl
  all_goals
    cases h
    try rfl

lemma HostOp.happening_ne_written {B : Type} (op : HostOp B) (c : Cpu B) : op.happening c ≠ some .written := by
  cases op
  case start =>
    simp only [HostOp.happening]
    split <;> nofun
  all_goals nofun

namespace Cpu

variable {B : Type} [Bus B]

def happening (c : Cpu B) : StepKind → Option Happening
  | .paused => none
  | .response kind => some (.serviced kind)
  | .halted | .skipped _ => some .idled
  | .instruction => some (.executed c.outcome.instruction.op)

inductive Move (c : Cpu B) : Option Happening → Cpu B → Prop where
  | log (log : Log) : Move c none { c with log }
  | host (op : HostOp B) : Move c (op.happening c) (op.apply c)
  | setInterruptEnabled (on : Bool) : Move c (some (.enabled on)) (c.setInterruptEnabled on)
  | setRegs (regs : Registers) : Move c (some .written) (c.setRegs regs)
  | step (budget : Nat) : Move c (c.happening (c.stepKind budget)) (c.step budget).2

inductive Course (c : Cpu B) : List Happening → Cpu B → Prop where
  | rest : Course c [] c
  | move {hs : List Happening} {x : Option Happening} {d e : Cpu B} : Course c hs d → Move d x e →
      Course c (x.toList ++ hs) e

inductive Fresh : Cpu B → Prop where
  | new (bus : B) : Fresh { bus }
  | withConfig {bus : B} {config : CpuConfig} {log : Log} {c : Cpu B} (h : Cpu.withConfig bus config log = .ok c) :
      Fresh c

variable {c d e : Cpu B} {hs : List Happening}

lemma isStep_of_happening {k : StepKind} {x : Happening} (h : c.happening k = some x) : x.isStep = true := by
  cases k <;> cases h <;> rfl

lemma ofHost_happening (c : Cpu B) (k : StepKind) (hs : List Happening) :
    ofHost ((c.happening k).toList ++ hs) = ofHost hs := by
  cases h : c.happening k with
  | none => rfl
  | some x => exact List.filter_cons_of_neg (by simp [isStep_of_happening h])

lemma Move.of_isStep {x : Happening} (h : Move d (some x) e) (hx : x.isStep = true) :
    ∃ budget, d.happening (d.stepKind budget) = some x ∧ e = (d.step budget).2 := by
  generalize hy : some x = y at h
  cases h with
  | log => contradiction
  | host op =>
    rw [HostOp.isStep_of_happening hy.symm] at hx
    contradiction
  | setInterruptEnabled on =>
    cases hy
    contradiction
  | setRegs regs =>
    cases hy
    contradiction
  | step budget => exact ⟨budget, rfl, rfl⟩

variable {writes : Prop}

lemma Move.reachable {x : Option Happening} (h : Move d x e) (hx : x = some .written → writes)
    (hd : Reachable writes d) : Reachable writes e := by
  cases h with
  | log l => exact hd.log l
  | host op => exact hd.host op
  | setInterruptEnabled on => exact hd.setInterruptEnabled on
  | setRegs regs => exact hd.setRegs (hx rfl) regs
  | step budget => exact hd.step budget

lemma Fresh.reachable (h : Fresh c) : Reachable writes c := by
  cases h with
  | new bus => exact .new bus
  | withConfig h => exact .withConfig h

omit [Bus B] in
lemma Fresh.core (h : Fresh c) : c.core = {} := by
  cases h with
  | new bus => rfl
  | withConfig h => exact (withConfig_fresh h).1

theorem reachable_iff_course :
    Reachable writes d ↔ ∃ c hs, Fresh c ∧ Course c hs d ∧ (.written ∈ hs → writes) := by
  constructor
  · intro h
    have hmove {d e : Cpu B} {x : Option Happening} (hm : Move d x e) (hx : x = some .written → writes) :
        (∃ c hs, Fresh c ∧ Course c hs d ∧ (.written ∈ hs → writes)) →
          ∃ c hs, Fresh c ∧ Course c hs e ∧ (.written ∈ hs → writes) := by
      rintro ⟨c, hs, hc, h, hw⟩
      refine ⟨c, _, hc, h.move hm, fun hmem => ?_⟩
      rcases List.mem_append.mp hmem with hmem | hmem
      · exact hx (Option.mem_toList.mp hmem)
      · exact hw hmem
    induction h with
    | new bus => exact ⟨_, [], .new bus, .rest, nofun⟩
    | withConfig h => exact ⟨_, [], .withConfig h, .rest, nofun⟩
    | log l _ ih => exact hmove (.log l) nofun ih
    | @host d op _ ih => exact hmove (.host op) (fun hx => absurd hx (op.happening_ne_written d)) ih
    | setInterruptEnabled on _ ih => exact hmove (.setInterruptEnabled on) nofun ih
    | setRegs h regs _ ih => exact hmove (.setRegs regs) (fun _ => h) ih
    | step budget _ ih => exact hmove (.step budget) (fun hx => nomatch isStep_of_happening hx) ih
  · rintro ⟨c, hs, hc, h, hw⟩
    induction h with
    | rest => exact hc.reachable
    | move _ hm ih =>
      refine hm.reachable (fun hx => hw ?_) (ih fun hmem => hw (List.mem_append_right _ hmem))
      rw [hx]
      exact List.mem_cons_self

namespace Course

lemma trans {hs' : List Happening} (h : Course c hs d) (h' : Course d hs' e) : Course c (hs' ++ hs) e := by
  induction h' with
  | rest => exact h
  | move _ hm ih =>
    rw [List.append_assoc]
    exact ih.move hm

lemma step {x : Happening} {budget : Nat} (h : Course c hs d) (hx : d.happening (d.stepKind budget) = some x) :
    Course c (x :: hs) (d.step budget).2 := by
  have hstep := h.move (.step budget)
  rwa [hx] at hstep

lemma split {later earlier : List Happening} {x : Happening} (h : Course c (later ++ x :: earlier) d) :
    ∃ e f, Course c earlier e ∧ Move e (some x) f ∧ Course f later d := by
  generalize hs : later ++ x :: earlier = hs at h
  induction h generalizing later with
  | rest => simp at hs
  | @move hs' y d' e' h hm ih =>
    cases y with
    | none =>
      obtain ⟨e, f, he, hx, hf⟩ := ih hs
      exact ⟨e, f, he, hx, hf.move hm⟩
    | some y =>
      cases later with
      | nil =>
        obtain ⟨rfl, rfl⟩ := List.cons.inj hs
        exact ⟨d', e', h, hm, .rest⟩
      | cons z later =>
        obtain ⟨rfl, hrest⟩ := List.cons.inj hs
        obtain ⟨e, f, he, hx, hf⟩ := ih hrest
        exact ⟨e, f, he, hx, hf.move hm⟩

end Course

/-! Runs -/

section

variable {S : Type} (act : Nat → Cpu B × S → Cpu B × S) (does : Nat → Cpu B × S → List Happening)

def noting (ran : Nat) (x : Cpu B × S × List Happening) : Cpu B × S × List Happening :=
  let (c, s) := act ran (x.1, x.2.1)
  (c, s, does ran (x.1, x.2.1) ++ x.2.2)

/-- What the callbacks of a run do. -/
def called (c : Cpu B) (cycles chunk : Nat) (s : S) : List Happening :=
  (c.runChunked cycles chunk (noting act does) (s, [])).2.2.2

lemma runChunks_noting (cycles chunk done : Nat) (c : Cpu B) (s : S) (told : List Happening) :
    (runChunks cycles chunk (noting act does) done c (s, told)).2.1 = (runChunks cycles chunk act done c s).2.1 := by
  induction hn : cycles - done using Nat.strongRecOn generalizing done c s told with
  | ind n ih =>
    rw [runChunks, runChunks]
    split
    case isTrue => rfl
    case isFalse hlt =>
      dsimp only
      split
      case isTrue => rfl
      case isFalse hpos => exact ih _ (by omega) _ _ _ _ rfl

end

namespace Course

/-- Besides its steps, nothing happens in a run but what its callbacks do. -/
theorem runChunked {S : Type} {act : Nat → Cpu B × S → Cpu B × S} {does : Nat → Cpu B × S → List Happening}
    (hdoes : ∀ ran e s, Course e (does ran (e, s)) (act ran (e, s)).1) (d : Cpu B) (cycles chunk : Nat) (s : S) :
    ∃ new, Course d new (d.runChunked cycles chunk act s).2.1 ∧
      ofHost new = ofHost (d.called act does cycles chunk s) := by
  let R (e : Cpu B) (x : S × List Happening) : Prop := ∃ new, Course d new e ∧ ofHost new = ofHost x.2
  have hstep (e : Cpu B) (x : S × List Happening) (budget : Nat) : R e x → R (e.step budget).2 x := by
    rintro ⟨new, h, hnew⟩
    exact ⟨_, h.move (.step budget), (ofHost_happening ..).trans hnew⟩
  have hlog (e : Cpu B) (x : S × List Happening) (log : Log) : R e x → R { e with log } x := by
    rintro ⟨new, h, hnew⟩
    exact ⟨_, h.move (.log log), hnew⟩
  have hact (ran : Nat) (e : Cpu B) (x : S × List Happening) :
      R e x → R (noting act does ran (e, x)).1 (noting act does ran (e, x)).2 := by
    rintro ⟨new, h, hnew⟩
    refine ⟨_, h.trans (hdoes ran e x.1), ?_⟩
    simp only [ofHost_append, hnew, noting]
  have h := runChunks_related hstep hlog _ hact ⟨[], .rest, rfl⟩ cycles (max chunk 1) 0 (s := (s, []))
  rwa [runChunks_noting] at h

lemma run (d : Cpu B) (cycles : Nat) : ∃ new, Course d new (d.run cycles).2 ∧ ofHost new = [] := by
  refine run_closed (P := fun e => ∃ new, Course d new e ∧ ofHost new = []) ?_ ?_ ⟨[], .rest, rfl⟩ cycles
  · rintro e budget ⟨new, h, hnew⟩
    exact ⟨_, h.move (.step budget), (ofHost_happening ..).trans hnew⟩
  · rintro e log ⟨new, h, hnew⟩
    exact ⟨_, h.move (.log log), hnew⟩

end Course

inductive Moved (c : Cpu B) : Option Happening → Core → Option Interrupt → Prop where
  | kept : Moved c none c.core c.pending
  | halted : Moved c none { c.core with halted := true } c.pending
  | poweredOn : Moved c (some .poweredOn) {} none
  | requested (kind : Interrupt) :
      Moved c (some (.requested kind)) c.core (if c.pending = some .nonMaskable then c.pending else some kind)
  | enabled (on : Bool) :
      Moved c (some (.enabled on)) { c.core with regs := c.regs.setInterrupts on } c.pending
  | written (regs : Registers) : Moved c (some .written) { c.core with regs } c.pending
  | serviced {kind : Interrupt} (hp : c.pending = some kind) (ha : c.accepts kind = true) :
      Moved c (some (.serviced kind))
        { c.core with
          regs := ((c.response kind).run c.bus {} {}).result.1.refresh 1
          halted := false } none
  | idled (n : Nat) : Moved c (some .idled) { c.core with regs := c.regs.refresh n } c.pending
  | executed : Moved c (some (.executed c.outcome.instruction.op)) c.outcome.core c.pending

lemma moved_apply (c : Cpu B) (op : HostOp B) :
    Moved c (op.happening c) (op.apply c).core (op.apply c).pending := by
  cases op
  case setUp => exact .poweredOn
  case start =>
    by_cases h : c.lifecycle = .uninitialized
    · simp only [HostOp.happening, HostOp.apply, start, if_pos h]
      exact .poweredOn
    · simp only [HostOp.happening, HostOp.apply, start, if_neg h]
      exact .kept
  case pause =>
    simp only [HostOp.apply, pause]
    split <;> exact .kept
  case resume =>
    simp only [HostOp.apply, resume]
    split <;> exact .kept
  case stop =>
    simp only [HostOp.apply, stop]
    split <;> exact .kept
  case reset =>
    simp only [HostOp.apply, reset, stop]
    split <;> exact .poweredOn
  case requestInterrupt kind =>
    obtain ⟨_, _, _, pending, _, _, _, _, _, _, _, _⟩ := c
    rcases pending with _ | ⟨_ | _⟩ <;> cases kind <;> exact .requested _
  case halt => exact .halted
  case setClockMode mode =>
    simp only [HostOp.apply, setClockMode]
    split <;> exact .kept
  case setSpeedMultiplier x =>
    simp only [HostOp.apply, setSpeedMultiplier, Clock.setMultiplier]
    split
    case h_1 c' hc =>
      split at hc <;> cases hc
      exact .kept
    case h_2 => exact .kept
  all_goals exact .kept

lemma Stepped.moved {budget t : Nat} {k : StepKind} {m : Machine B} {i : Idle.Detector}
    (h : c.Stepped budget k t m i) : Moved c (c.happening k) m.core m.pending := by
  cases h with
  | paused => exact .kept
  | response _ hp ht =>
    rw [Option.filter_eq_some_iff] at hp
    rw [ht]
    exact .serviced hp.1 hp.2
  | halted => exact .idled 1
  | skipped => exact .idled _
  | instruction => exact .executed

theorem Move.moved {x : Option Happening} (h : Move c x d) : Moved c x d.core d.pending := by
  cases h with
  | log => exact .kept
  | host op => exact c.moved_apply op
  | setInterruptEnabled on => exact .enabled on
  | setRegs regs => exact .written regs
  | step budget => exact (c.stepped budget).moved

end Cpu

end Z80Machine
