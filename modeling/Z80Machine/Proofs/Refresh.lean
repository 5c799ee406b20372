import Z80Machine.Board
import Z80Machine.Proofs.Course

/-! The refresh counter. It moves on by one for every opcode fetch, wherever the fetch comes from, and by as much for
the iterations of a loop that are skipped as their instructions would have fetched. -/

namespace Z80Machine

open Idle

lemma Registers.veil_self (r : Registers) : r.veil r.r r.iff1 r.iff2 = r := rfl

namespace Op

variable (r : Registers) (address : UInt16) {B : Type} [Bus B] (bus : B) (log : Log) (traffic : Traffic)

lemma run_push_refresh (word : UInt16) : ((Stack.push word r).run bus log traffic).result.r = r.r := by
  have h := congrArg (fun d => (d.run bus log traffic).result.r) (Stack.push_veil r r.r r.iff1 r.iff2 word)
  rwa [r.veil_self, Dialogue.run_bind] at h

lemma run_pop_refresh : ((Stack.pop r).run bus log traffic).result.2.r = r.r := by
  have h := congrArg (fun d => (d.run bus log traffic).result.2.r) (Stack.pop_veil r r.r r.iff1 r.iff2)
  rwa [r.veil_self, Dialogue.run_bind] at h

theorem run_refresh (op : Op) (hop : op ≠ .loadRA) :
    ((op.onRegisters address r).run bus log traffic).result.1.r = r.r := by
  cases hd : op.disturbs with
  | false =>
    have h := congrArg (fun d => (d.run bus log traffic).result.1.r)
      (onRegisters_veil r r.r r.iff1 r.iff2 address hd fun _ => rfl)
    rwa [r.veil_self, Dialogue.run_bind] at h
  | true =>
    cases op
    case loadRA => contradiction
    case call cond addr =>
      by_cases h : r.meets cond
      · simp only [onRegisters, h, if_true, Dialogue.bind_eq, Dialogue.pure_eq, Dialogue.run_bind, Dialogue.run]
        exact run_push_refresh r bus log traffic r.pc
      · simp only [onRegisters, h]
        rfl
    case rst vector =>
      simp only [onRegisters, Dialogue.bind_eq, Dialogue.pure_eq, Dialogue.run_bind, Dialogue.run]
      exact run_push_refresh r bus log traffic r.pc
    case retn =>
      simp only [onRegisters, Dialogue.bind_eq, Dialogue.pure_eq, Dialogue.run_bind, Dialogue.run]
      exact run_pop_refresh r bus log traffic
    case reti =>
      simp only [onRegisters, Dialogue.bind_eq, Dialogue.pure_eq, Dialogue.run_bind, Dialogue.run]
      exact run_pop_refresh r bus log traffic
    all_goals first
      | rfl
      | cases hd

end Op

lemma Core.outcome_refresh {B : Type} [Bus B] (c : Core) (mode : ClockMode) (bus : B)
    (hop : (c.outcome mode bus).instruction.op ≠ .loadRA) : (c.outcome mode bus).core.regs.r =
      Registers.refreshed c.regs.r (c.outcome mode bus).instruction.shape.fetches := by
  rw [outcome_instruction] at hop ⊢
  rw [outcome_core]
  exact Op.run_refresh _ _ _ _ _ _ hop

lemma Cpu.response_refresh {B : Type} [Bus B] (c : Cpu B) (kind : Interrupt) :
    ((c.response kind).run c.bus {} {}).result.1.r = c.regs.r := by
  cases kind with
  | nonMaskable =>
    simp only [response, enterNmi, Dialogue.bind_eq, Dialogue.pure_eq, Dialogue.run_bind, Dialogue.run]
    exact Op.run_push_refresh { c.regs with iff1 := false } c.bus {} {} c.regs.pc
  | maskable =>
    simp only [response, enterMaskable, Dialogue.bind_eq, Dialogue.pure_eq, Dialogue.run_bind]
    have h := Op.run_push_refresh (c.regs.setInterrupts false) c.bus {} {} c.regs.pc
    split
    · exact h
    · exact h

inductive Beat where
  | poweredOn
  | written
  | halted
  | answered (kind : Interrupt)
  | executed (i : Instruction)
  | skipped (loop : Loop)
  deriving DecidableEq, Repr

namespace Beat

def fetches : Beat → Nat
  | halted | answered _ => 1
  | executed i => i.shape.fetches
  | skipped loop => loop.fetches
  | _ => 0

def counts : Beat → Bool
  | poweredOn | written => false
  | executed i => i.op ≠ .loadRA
  | _ => true

def isStep : Beat → Bool
  | poweredOn | written => false
  | _ => true

def instruction? : Beat → Option Instruction
  | executed i => some i
  | _ => none

end Beat

def HostOp.beat {B : Type} (c : Cpu B) (op : HostOp B) : Option Beat :=
  if op.happening c = some .poweredOn then some .poweredOn else none

namespace Cpu

variable {B : Type} [Bus B]

def beat (c : Cpu B) : StepKind → Option Beat
  | .paused => none
  | .response kind => some (.answered kind)
  | .halted => some .halted
  | .skipped loop => some (.skipped loop)
  | .instruction => some (.executed c.outcome.instruction)

inductive Beats (c : Cpu B) : List Beat → Cpu B → Prop where
  | rest : Beats c [] c
  | log {beats : List Beat} {d : Cpu B} (log : Log) : Beats c beats d → Beats c beats { d with log }
  | host {beats : List Beat} {d : Cpu B} (op : HostOp B) : Beats c beats d →
      Beats c ((op.beat d).toList ++ beats) (op.apply d)
  | setInterruptEnabled {beats : List Beat} {d : Cpu B} (on : Bool) : Beats c beats d →
      Beats c beats (d.setInterruptEnabled on)
  | setRegs {beats : List Beat} {d : Cpu B} (regs : Registers) : Beats c beats d →
      Beats c (.written :: beats) (d.setRegs regs)
  | step {beats : List Beat} {d : Cpu B} (budget : Nat) : Beats c beats d →
      Beats c ((d.beat (d.stepKind budget)).toList ++ beats) (d.step budget).2

lemma Stepped.refresh {c : Cpu B} {budget t : Nat} {k : StepKind} {m : Machine B} {d : Detector}
    (h : c.Stepped budget k t m d) (hcounts : ∀ x ∈ c.beat k, x.counts) :
    m.core.regs.r = Registers.refreshed c.regs.r ((c.beat k).toList.map Beat.fetches).sum := by
  cases h with
  | paused => exact (Registers.refreshed_zero _).symm
  | response _ _ ht =>
    rw [ht]
    exact congrArg (Registers.refreshed · 1) (c.response_refresh _)
  | halted => rfl
  | skipped => rfl
  | instruction =>
    have hop : c.outcome.instruction.op ≠ .loadRA := by simpa [beat, Beat.counts] using hcounts
    exact c.core.outcome_refresh _ _ hop

lemma Moved.refresh {c : Cpu B} {x : Option Happening} {core : Core} {pending : Option Interrupt}
    (h : Moved c x core pending) (hx : x = none ∨ ∃ kind, x = some (.requested kind)) : core.regs.r = c.regs.r := by
  rcases hx with rfl | ⟨kind, rfl⟩
  · cases h <;> rfl
  · cases h
    rfl

lemma apply_refresh (c : Cpu B) (op : HostOp B) (h : op.happening c ≠ some .poweredOn) :
    (op.apply c).regs.r = c.regs.r := by
  refine (c.moved_apply op).refresh ?_
  cases op with
  | setUp => contradiction
  | reset => contradiction
  | start => exact .inl (if_neg fun hl => h (if_pos hl))
  | requestInterrupt kind => exact .inr ⟨kind, rfl⟩
  | _ => exact .inl rfl

variable {c d : Cpu B} {beats : List Beat}

theorem Beats.refresh (h : Beats c beats d) (hcounts : ∀ x ∈ beats, x.counts) :
    d.regs.r = Registers.refreshed c.regs.r (beats.map Beat.fetches).sum := by
  induction h with
  | rest => exact (Registers.refreshed_zero _).symm
  | log _ _ ih => exact ih hcounts
  | @host beats d op _ ih =>
    simp only [HostOp.beat] at hcounts ⊢
    split at hcounts
    case isTrue => exact Bool.noConfusion (hcounts _ List.mem_cons_self)
    case isFalse hx =>
      rw [if_neg hx, d.apply_refresh op hx]
      exact ih hcounts
  | setInterruptEnabled _ _ ih => exact ih hcounts
  | setRegs => exact Bool.noConfusion (hcounts _ List.mem_cons_self)
  | @step beats d budget _ ih =>
    simp only [List.mem_append, or_imp, forall_and, Option.mem_toList] at hcounts
    have hstep := (d.stepped budget).refresh hcounts.1
    rw [ih hcounts.2, Registers.refreshed_refreshed, Nat.add_comm] at hstep
    rw [List.map_append, List.sum_append]
    exact hstep

end Cpu

/-! Loops -/

namespace Idle

/-- Whether an iteration of the loop is a block of these instructions, which were executed one after another and stand
here newest first. -/
def Loop.Stems (loop : Loop) (is : List Instruction) : Prop :=
  ∃ block, block <:+: is ∧ block.length = loop.length ∧ block.getLast?.map Instruction.address = some loop.start ∧
    (block.map fun i => i.shape.fetches).sum = loop.fetches

structure Detector.Backed (is : List Instruction) (d : Detector) : Prop where
  history : d.history.map (fun e => (e.step.pc, e.step.fetches)) <+: is.map fun i => (i.address, i.shape.fetches)
  active : ∀ loop ∈ d.active, loop.Stems is
  blind : d.config.enabled = false ∨ d.active ≠ none → d.history = []

lemma Loop.Stems.cons {loop : Loop} {is : List Instruction} (h : loop.Stems is) (i : Instruction) :
    loop.Stems (i :: is) := by
  obtain ⟨block, hblock, h⟩ := h
  exact ⟨block, hblock.trans (List.suffix_cons i is).isInfix, h⟩

lemma stems_of_find {history : List Entry} {is : List Instruction} {threshold : Nat} {loop : Loop}
    (hh : history.map (fun e => (e.step.pc, e.step.fetches)) <+: is.map fun i => (i.address, i.shape.fetches))
    (h : Detector.find? history threshold = some loop) : loop.Stems is := by
  obtain ⟨n, hn, hrepeats, last, hlast, rfl⟩ := Detector.find_eq_some h
  simp only [Detector.repeats, Bool.and_eq_true, decide_eq_true_eq] at hrepeats
  obtain ⟨hlength, hrepeats⟩ := hrepeats
  have hle : history.length ≤ is.length := by simpa using hh.length_le
  have htake : (history.take n).map (fun e => (e.step.pc, e.step.fetches)) =
      (is.take n).map fun i => (i.address, i.shape.fetches) := by
    rw [List.map_take, List.map_take, List.prefix_iff_eq_take.mp hh, List.take_take, List.length_map,
      Nat.min_eq_left (by omega)]
  refine ⟨is.take n, (List.take_prefix n is).isInfix, ?_, ?_, ?_⟩
  · simp only [Detector.loopOf, List.length_take]
    omega
  · -- the oldest of the block stands where the newest leads back to
    rw [List.head?_eq_getElem?, List.getElem?_eq_getElem (by omega), Option.mem_some_iff] at hlast
    rw [List.getElem?_eq_getElem (by omega : 0 < history.length),
      List.getElem?_eq_getElem (by omega : n < history.length),
      List.getElem?_eq_getElem (by omega : n - 1 < history.length)] at hrepeats
    simp only [Bool.and_eq_true, beq_iff_eq] at hrepeats
    have haddress := congrArg (fun l => (l[n - 1]?).map Prod.fst) htake
    simp only [List.getElem?_map, List.getElem?_take, if_pos (by omega : n - 1 < n), Option.map_map,
      List.getElem?_eq_getElem (by omega : n - 1 < history.length)] at haddress
    rw [List.getLast?_eq_getElem?, List.length_take, Nat.min_eq_left (by omega), List.getElem?_take,
      if_pos (by omega), Detector.loopOf, ← hlast, hrepeats.1.1]
    exact haddress.symm
  · have hfetches := congrArg (List.map Prod.snd) htake
    simp only [List.map_map, Function.comp_def] at hfetches
    rw [Detector.loopOf_fetches, hfetches]

namespace Detector

variable {is : List Instruction} {d d' : Detector}

lemma Empty.backed (h : d.Empty) : d.Backed is := by
  refine ⟨?_, ?_, fun _ => h.1⟩
  · rw [h.1]
    exact List.nil_prefix
  · simp [h.2]

lemma Backed.congr (h : d.Backed is) (hh : d'.history = d.history) (ha : d'.active = d.active)
    (he : d'.config.enabled = false → d.config.enabled = false) : d'.Backed is := by
  obtain ⟨history, active, blind⟩ := h
  refine ⟨by rwa [hh], by rwa [ha], ?_⟩
  rw [hh, ha]
  exact fun h => blind (h.imp_left he)

lemma Backed.skip (h : d.Backed is) (loop : Loop) : (d.skip loop).value.Backed is := by
  unfold Detector.skip
  dsimp only
  split
  · exact h.congr rfl rfl id
  · exact (empty_forget _).backed

lemma Backed.observe (h : d.Backed is) {i : Instruction} {step : Step} (hstep : step.pc = i.address)
    (hfetches : step.fetches = i.shape.fetches) (safe : Bool) (after : Registers) :
    (d.observe step safe after).value.Backed (i :: is) := by
  unfold Detector.observe
  split
  case isTrue hoff =>
    have hempty : d.history = [] := h.blind (by
      rw [Bool.or_eq_true, Bool.not_eq_true', Option.isSome_iff_ne_none] at hoff
      exact hoff)
    refine ⟨?_, fun loop hl => (h.active loop hl).cons i, h.blind⟩
    rw [hempty]
    exact List.nil_prefix
  case isFalse hon =>
    obtain ⟨hon, ha⟩ : d.config.enabled = true ∧ d.active = none := by simpa using hon
    split
    case isTrue => exact Empty.backed ⟨rfl, ha⟩
    case isFalse =>
      have hhistory : (({ step, after } :: d.history).take (2 * d.config.threshold)).map
          (fun e => (e.step.pc, e.step.fetches)) <+: (i :: is).map fun i => (i.address, i.shape.fetches) := by
        rw [List.map_take]
        refine (List.take_prefix _ _).trans ?_
        rw [List.map_cons, List.map_cons, hstep, hfetches]
        exact List.prefix_cons_inj _ |>.mpr h.history
      dsimp only
      split
      case h_1 => exact ⟨hhistory, by simp [ha], by simp [hon, ha]⟩
      case h_2 loop hfind =>
        refine ⟨List.nil_prefix, fun loop' hl => ?_, fun _ => rfl⟩
        cases hl
        exact stems_of_find hhistory hfind

end Detector

end Idle

namespace Cpu

variable {B : Type} [Bus B] {c d e : Cpu B} {beats older : List Beat}

def executed (beats : List Beat) : List Instruction :=
  beats.filterMap Beat.instruction?

lemma Stepped.backed {budget t : Nat} {k : StepKind} {m : Machine B} {i : Detector} (h : c.Stepped budget k t m i)
    (hc : c.idle.Backed (executed beats)) : i.Backed (executed ((c.beat k).toList ++ beats)) := by
  cases h with
  | paused => exact hc
  | response => exact (Detector.empty_forget _).backed
  | halted => exact hc
  | skipped => exact hc.skip _
  | instruction => exact hc.observe rfl rfl _ _

lemma Stepped.active {budget t : Nat} {loop : Loop} {m : Machine B} {i : Detector}
    (h : c.Stepped budget (.skipped loop) t m i) : c.idle.active = some loop := by
  cases h with
  | skipped _ _ _ hs =>
    rw [skippable?, Option.filter_eq_some_iff] at hs
    exact hs.1

def Stem (beats : List Beat) : Prop :=
  ∀ later loop earlier, beats = later ++ .skipped loop :: earlier → loop.Stems (executed earlier)

omit [Bus B] in
lemma apply_backed (op : HostOp B) (h : d.idle.Backed (executed beats)) :
    (op.apply d).idle.Backed (executed ((op.beat d).toList ++ beats)) := by
  have hbeats : executed ((op.beat d).toList ++ beats) = executed beats := by
    unfold HostOp.beat
    split <;> rfl
  rw [hbeats]
  rcases op.kept_or_empty d with hk | hempty
  · exact h.congr hk.history hk.active hk.enabled
  · exact hempty.backed

lemma Stem.cons (h : Stem beats) {x : Beat} (hx : ∀ loop, x = .skipped loop → loop.Stems (executed beats)) :
    Stem (x :: beats) := by
  intro later loop earlier heq
  cases later with
  | nil =>
    obtain ⟨hloop, rfl⟩ := List.cons.inj heq
    exact hx loop hloop
  | cons y later =>
    obtain ⟨-, hrest⟩ := List.cons.inj heq
    exact h later loop earlier hrest

theorem Beats.backed (h : Beats c beats d) (hc : c.idle.Empty) : d.idle.Backed (executed beats) ∧ Stem beats := by
  induction h with
  | rest => exact ⟨hc.backed, fun later _ _ h => by simp at h⟩
  | log _ _ ih => exact ih
  | @host beats d op _ ih =>
    refine ⟨apply_backed op ih.1, ?_⟩
    unfold HostOp.beat
    split
    · exact ih.2.cons nofun
    · exact ih.2
  | setInterruptEnabled _ _ ih => exact ih
  | setRegs _ _ ih => exact ⟨ih.1, ih.2.cons nofun⟩
  | @step beats d budget _ ih =>
    refine ⟨(d.stepped budget).backed ih.1, ?_⟩
    cases hk : d.stepKind budget with
    | paused => exact ih.2
    | response kind => exact ih.2.cons nofun
    | halted => exact ih.2.cons nofun
    | skipped loop =>
      refine ih.2.cons fun loop' hloop => ?_
      cases hloop
      have hstepped := d.stepped budget
      rw [hk] at hstepped
      exact ih.1.active loop hstepped.active
    | instruction => exact ih.2.cons nofun

lemma Beats.trans (h : Beats c older d) (h' : Beats d beats e) : Beats c (beats ++ older) e := by
  induction h' with
  | rest => exact h
  | log l _ ih => exact ih.log l
  | host op _ ih =>
    rw [List.append_assoc]
    exact ih.host op
  | setInterruptEnabled on _ ih => exact ih.setInterruptEnabled on
  | setRegs regs _ ih => exact ih.setRegs regs
  | step budget _ ih =>
    rw [List.append_assoc]
    exact ih.step budget

lemma isStep_of_beat {k : StepKind} {x : Beat} (h : c.beat k = some x) : x.isStep = true := by
  cases k <;> cases h <;> rfl

lemma Beats.run (h : Beats c beats d) (cycles : Nat) :
    ∃ more, Beats c (more ++ beats) (d.run cycles).2 ∧ ∀ x ∈ more, x.isStep = true := by
  refine run_closed (P := fun e => ∃ more, Beats c (more ++ beats) e ∧ ∀ x ∈ more, x.isStep = true) ?_ ?_
    ⟨[], h, List.forall_mem_nil _⟩ cycles
  · rintro e budget ⟨more, he, hmore⟩
    refine ⟨(e.beat (e.stepKind budget)).toList ++ more, ?_, fun x hx => ?_⟩
    · rw [List.append_assoc]
      exact he.step budget
    · rcases List.mem_append.mp hx with hx | hx
      · exact isStep_of_beat (Option.mem_toList.mp hx)
      · exact hmore x hx
  · rintro e log ⟨more, he, hmore⟩
    exact ⟨more, he.log log, hmore⟩

/-- Nothing but the fetches moves the refresh counter, and none of them is lost. Skipped iterations count as the
instructions did that the loop stems from. A run adds the beats of its steps. -/
theorem refresh_counts (h : Beats d beats e) (hcounts : ∀ x ∈ beats, x.counts) :
    e.regs.r.toNat / 128 = d.regs.r.toNat / 128 ∧
      e.regs.r.toNat % 128 = (d.regs.r.toNat + (beats.map Beat.fetches).sum) % 128 ∧
      (∀ c older, c.idle.Empty → Beats c older d → ∀ later loop earlier,
        beats ++ older = later ++ .skipped loop :: earlier → loop.Stems (executed earlier)) ∧
      ∀ cycles, ∃ more, Beats d (more ++ beats) (e.run cycles).2 ∧ ∀ x ∈ more, x.isStep = true := by
  have hr : e.regs.r.toNat = 128 * (d.regs.r.toNat / 128) +
      (d.regs.r.toNat + (beats.map Beat.fetches).sum) % 128 := by
    rw [h.refresh hcounts, Registers.toNat_refreshed]
  refine ⟨by omega, by omega, fun c older hc hpast => ?_, h.run⟩
  exact ((hpast.trans h).backed hc).2

/-- Two rounds of `NOP` and `JP 0000`, a third one that is skipped, and the response to an interrupt, with the counter
at FE. -/
theorem refresh_counts_spinning :
    let c : Cpu Board := Cpu.setRegs { bus := Board.mapMemory (·.poke 1 0xC3) {} } { r := 0xFE }
    let spun := ((((c.step unbounded).2.step unbounded).2.step unbounded).2.step unbounded).2
    let d := ((spun.step unbounded).2.requestInterrupt .nonMaskable).step unbounded
    ∃ beats, Beats c beats d.2 ∧ (∀ x ∈ beats, x.counts) ∧ .skipped ⟨0, 2, 14, 2⟩ ∈ beats ∧
      d.2.regs.r.toNat / 128 = 1 ∧ d.2.regs.r.toNat % 128 = (254 + 7) % 128 := by
  intro c spun d
  have hspun : Beats c _ spun := (((Beats.rest.step unbounded).step unbounded).step unbounded).step unbounded
  obtain ⟨beats, h, hcounts, hskipped, hsum⟩ : ∃ beats, Beats c beats d.2 ∧ (∀ x ∈ beats, x.counts) ∧
      .skipped ⟨0, 2, 14, 2⟩ ∈ beats ∧ (beats.map Beat.fetches).sum = 7 :=
    ⟨_, ((hspun.step unbounded).host (.requestInterrupt .nonMaskable)).step unbounded, by decide +kernel,
      by decide +kernel, by decide +kernel⟩
  obtain ⟨hhigh, hlow, -⟩ := refresh_counts h hcounts
  rw [hsum] at hlow
  exact ⟨beats, h, hcounts, hskipped, hhigh.trans (by decide +kernel), hlow⟩

end Cpu

end Z80Machine
