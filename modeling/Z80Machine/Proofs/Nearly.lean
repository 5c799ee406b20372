import Z80Machine.Proofs.Control
import Z80Machine.Proofs.Handler

/-! Registers that differ in the refresh counter only. Whatever an instruction does with them, it leaves them alike
again but for the refresh counter, unless it is the one that loads A from it. -/

namespace Z80Machine

namespace Registers

def Near (status : Prop) (r s : Registers) : Prop :=
  ∃ a f x, s = { r with a, f, r := x } ∧ (¬ status → a = r.a ∧ f = r.f)

def counting (r : Registers) (x : UInt8) : Registers :=
  { r with r := x }

variable (r : Registers) (x : UInt8)

lemma near_counting (status : Prop) : r.Near status (r.counting x) :=
  ⟨r.a, r.f, x, rfl, fun _ => ⟨rfl, rfl⟩⟩

@[simp] lemma meets_counting (cond : Option Condition) : (r.counting x).meets cond = r.meets cond := by
  cases cond <;> rfl

end Registers

namespace Op

lemma control_of_not_disturbs {op : Op} (h : op.disturbs = false) (r : Registers) : op.control r = r.control := by
  cases op <;> first | rfl | contradiction

variable {B : Type} [Bus B] (op : Op) (address : UInt16) (r : Registers) (x : UInt8) (b : B) (log : Log)
  (traffic : Traffic)

structure Nearly (status : Prop) (t t' : Talk (Registers × Nat) B) : Prop where
  regs : t.result.1.Near status t'.result.1
  extra : t'.result.2 = t.result.2
  bus : t'.bus = t.bus

lemma nearly_of_not_disturbs {op : Op} (h : op.disturbs = false) (status : Prop) :
    Nearly status ((op.onRegisters address r).run b log traffic)
      ((op.onRegisters address (r.counting x)).run b log traffic) := by
  have hveil := onRegisters_veil r x r.iff1 r.iff2 address h fun _ => rfl
  have hcontrol := (op.always_control r [] address).run b log traffic
  rw [control_of_not_disturbs h] at hcontrol
  change Nearly status _ ((op.onRegisters address (r.veil x r.iff1 r.iff2)).run b log traffic)
  rw [hveil, Dialogue.run_bind]
  generalize (op.onRegisters address r).run b log traffic = t at hcontrol
  have h1 : t.result.1.iff1 = r.iff1 := congrArg Control.iff1 hcontrol
  have h2 : t.result.1.iff2 = r.iff2 := congrArg Control.iff2 hcontrol
  refine ⟨?_, rfl, rfl⟩
  change t.result.1.Near status (t.result.1.veil x r.iff1 r.iff2)
  rw [← h1, ← h2]
  exact t.result.1.near_counting x status

lemma nearly_push (word pc : UInt16) (status : Prop) (time : Nat) :
    Nearly status (((Stack.push word r).bind fun s => .done ({ s with pc }, time)).run b log traffic)
      (((Stack.push word (r.counting x)).bind fun s => .done ({ s with pc }, time)).run b log traffic) := by
  obtain ⟨hresult, hbus⟩ := run_push b log traffic word r
  obtain ⟨hresult', hbus'⟩ := run_push b log traffic word (r.counting x)
  simp only [Dialogue.run_bind, Dialogue.run]
  refine ⟨?_, rfl, hbus'.trans hbus.symm⟩
  rw [hresult, hresult']
  exact Registers.near_counting _ x status

variable [SteadyBus B]

lemma nearly_return (status : Prop) :
    Nearly status
      (((Stack.pop r).bind fun s => .done ({ s.2 with pc := s.1, iff1 := s.2.iff2 }, 0)).run b log traffic)
      (((Stack.pop (r.counting x)).bind fun s => .done ({ s.2 with pc := s.1, iff1 := s.2.iff2 }, 0)).run b log
        traffic) := by
  obtain ⟨hresult, hbus⟩ := run_pop b log traffic r
  obtain ⟨hresult', hbus'⟩ := run_pop b log traffic (r.counting x)
  simp only [Dialogue.run_bind, Dialogue.run]
  refine ⟨?_, rfl, hbus'.trans hbus.symm⟩
  rw [hresult, hresult']
  exact Registers.near_counting _ x status

theorem nearly_counting : Nearly (op = .loadAR) ((op.onRegisters address r).run b log traffic)
    ((op.onRegisters address (r.counting x)).run b log traffic) := by
  cases hop : op.disturbs with
  | false => exact nearly_of_not_disturbs address r x b log traffic hop _
  | true =>
    cases op
    case call cond addr =>
      have hmeets := r.meets_counting x cond
      cases h : r.meets cond with
      | false =>
        simp only [onRegisters, hmeets, h]
        exact ⟨r.near_counting x _, rfl, rfl⟩
      | true =>
        simp only [onRegisters, hmeets, h, if_true]
        exact nearly_push r x b log traffic _ _ _ _
    case rst vector => exact nearly_push r x b log traffic _ _ _ _
    case retn | reti => exact nearly_return r x b log traffic _
    case loadAR => exact ⟨⟨_, _, x, rfl, fun h => absurd rfl h⟩, rfl, rfl⟩
    case loadRA => exact ⟨⟨r.a, r.f, r.a, rfl, fun _ => ⟨rfl, rfl⟩⟩, rfl, rfl⟩
    all_goals first
      | contradiction
      | exact ⟨⟨r.a, r.f, x, rfl, fun _ => ⟨rfl, rfl⟩⟩, rfl, rfl⟩

end Op

theorem Core.outcome_counting {B : Type} [Bus B] [SteadyBus B] (c : Core) (x : UInt8) (delay : Bool) (mode : ClockMode)
    (b : B) :
    let o := c.outcome mode b
    let o' := ({ c with regs := c.regs.counting x, eiDelay := delay } : Core).outcome mode b
    o.core.regs.Near (o.instruction.op = .loadAR) o'.core.regs ∧ o'.core.halted = o.core.halted ∧
      o'.core.eiDelay = o.core.eiDelay ∧ o'.bus = o.bus ∧ (mode = .standard → o'.cycles = o.cycles) := by
  intro o o'
  let d : Core := { c with regs := c.regs.counting x, eiDelay := delay }
  have hnear : Op.Nearly ((c.upcoming b).op = .loadAR) (c.operated b) (d.operated b) :=
    (c.upcoming b).op.nearly_counting (c.upcoming b).address (c.behind (c.upcoming b))
      (Registers.refreshed x (c.upcoming b).shape.fetches) (c.fetched b).bus (c.fetched b).log (c.fetched b).traffic
  have hcore : o.core = _ := c.outcome_core b mode
  have hcore' : o'.core = _ := d.outcome_core b mode
  have hbus : o.bus = _ := c.untraced_bus b
  have hbus' : o'.bus = _ := d.untraced_bus b
  rw [show o.instruction = _ from c.outcome_instruction b mode, hcore, hcore', hbus, hbus']
  refine ⟨hnear.regs, rfl, rfl, hnear.bus, fun hmode => ?_⟩
  subst hmode
  change (d.untraced.run b {} {}).result.2.2 + _ = (c.untraced.run b {} {}).result.2.2 + _
  rw [ClockMode.contention_standard, ClockMode.contention_standard, c.untraced_result, d.untraced_result, hnear.extra]
  rfl

end Z80Machine
