import Z80Machine.Proofs.Latch
import Z80Machine.Proofs.Stack
import Z80Machine.Proofs.Timing

/-! Interrupts and their handlers. The shortest handlers undo what the response to the interrupt did, so an interrupted
program goes on as if nothing had been, wherever it was interrupted. -/

namespace Z80Machine

lemma Lifecycle.awake_awake (l : Lifecycle) : l.awake.awake = l.awake := by
  cases l <;> rfl

lemma Registers.refresh_zero (r : Registers) : r.refresh 0 = r :=
  congrArg (fun x => { r with r := x }) (refreshed_zero r.r)

lemma Registers.refresh_refresh (r : Registers) (m n : Nat) : (r.refresh m).refresh n = r.refresh (m + n) :=
  congrArg (fun x => { r with r := x }) (refreshed_refreshed r.r m n)

lemma Idle.Detector.active_observe {d : Detector} (h : d.active = none) (step : Step) (after : Registers) :
    (d.observe step false after).value.active = none := by
  simp only [observe]
  split
  · exact h
  · exact h

theorem Core.outcome_held {B : Type} [Bus B] [SteadyBus B] (c : Core) (mode : ClockMode) {b b' : B} {opcode : UInt8}
    {rest : List UInt8} {e : Encoded} (hb : Bus.Holds b c.regs.pc (opcode :: rest))
    (hr : (Encoding.ofOpcode opcode).read? rest = some (e, [])) {regs : Registers} {extra : Nat}
    (hop : ∀ log traffic,
      let t := (e.op.onRegisters c.regs.pc (c.behind (e.toInstruction c.regs.pc (opcode :: rest)))).run b log traffic
      t.result = (regs, extra) ∧ t.bus = b') :
    (c.outcome mode b).instruction = e.toInstruction c.regs.pc (opcode :: rest) ∧
      (c.outcome mode b).core =
        { regs, halted := c.halted || e.op matches .halt, eiDelay := e.op matches .ei } ∧
      (c.outcome mode b).bus = b' ∧
      (mode = .standard → (c.outcome mode b).cycles = e.shape.tStates + extra) := by
  obtain ⟨hupcoming, hfetched⟩ := c.fetched_of_holds b hb hr
  obtain ⟨hresult, hbus⟩ : (c.operated b).result = (regs, extra) ∧ (c.operated b).bus = b' := by
    rw [operated, hupcoming, hfetched]
    exact hop _ _
  refine ⟨(c.outcome_instruction b mode).trans hupcoming, ?_, (c.untraced_bus b).trans hbus, fun hmode => ?_⟩
  · rw [c.outcome_core, hupcoming, hresult]
    rfl
  · rw [outcome, hmode, ClockMode.contention_standard]
    change (c.untraced.run b {} {}).result.2.2 = _
    rw [c.untraced_result, hupcoming, hresult]
    rfl

namespace Cpu

open Bus

variable {B : Type} {c : Cpu B} {budget : Nat} {kind : Interrupt}

structure Underway (c : Cpu B) : Prop where
  lifecycle : c.lifecycle ≠ .paused
  pending : c.pending = none
  halted : c.core.halted = false
  active : c.idle.active = none

lemma Underway.stepKind (h : c.Underway) (budget : Nat) : c.stepKind budget = .instruction := by
  simp [Cpu.stepKind, skippable?, h.lifecycle, h.pending, h.halted, h.active]

/-! The response -/

def entered (c : Cpu B) : Interrupt → Registers
  | .nonMaskable => { c.regs with iff1 := false, sp := c.regs.sp - 2, pc := nmiVector }
  | .maskable => { c.regs with iff1 := false, iff2 := false, sp := c.regs.sp - 2, pc := im1Vector }

def entryTime : Interrupt → Nat
  | .nonMaskable => 11
  | .maskable => 13

variable [Bus B]

lemma run_response (hm : kind = .maskable → c.regs.im ≠ 2) :
    ((c.response kind).run c.bus {} {}).result.1 = c.entered kind ∧
      ((c.response kind).run c.bus {} {}).result.2.tStates = entryTime kind ∧
      ((c.response kind).run c.bus {} {}).bus = pushed c.bus c.regs.sp c.regs.pc := by
  cases kind with
  | nonMaskable =>
    obtain ⟨hresult, hbus⟩ := Op.run_push c.bus {} {} c.regs.pc { c.regs with iff1 := false }
    simp only [response, enterNmi, Dialogue.bind_eq, Dialogue.pure_eq, Dialogue.run_bind, Dialogue.run, hresult]
    exact ⟨rfl, rfl, hbus⟩
  | maskable =>
    have him : ((c.regs.setInterrupts false).im == 2) = false := by simpa [Registers.setInterrupts] using hm rfl
    obtain ⟨hresult, hbus⟩ := Op.run_push c.bus {} {} c.regs.pc (c.regs.setInterrupts false)
    simp only [response, enterMaskable, Dialogue.bind_eq, Dialogue.pure_eq, Dialogue.run_bind, hresult]
    simp only [him, Bool.false_eq_true, if_false, Dialogue.run]
    exact ⟨rfl, rfl, hbus⟩

structure Entered (c : Cpu B) (kind : Interrupt) (d : Cpu B) : Prop where
  machine : d.machine =
    { c.after { c.core with regs := (c.entered kind).refresh 1, halted := false } (pushed c.bus c.regs.sp c.regs.pc)
        (entryTime kind) with
      pending := none }
  underway : d.Underway

namespace Entered

variable {d : Cpu B} (h : c.Entered kind d)

include h

lemma regs : d.regs = (c.entered kind).refresh 1 :=
  congrArg (·.core.regs) h.machine

lemma bus : d.bus = pushed c.bus c.regs.sp c.regs.pc :=
  congrArg Machine.bus h.machine

lemma clock : d.clock = c.clock :=
  congrArg Machine.clock h.machine

end Entered

theorem entered_of_response (hk : c.stepKind budget = .response kind) (hm : kind = .maskable → c.regs.im ≠ 2) :
    c.Entered kind (c.step budget).2 := by
  have hstep := c.stepped budget
  rw [hk] at hstep
  obtain ⟨⟨hl, -⟩, ht, hmachine, hidle⟩ := hstep.of_response
  obtain ⟨hregs, htime, hbus⟩ := run_response hm
  rw [hregs, hbus, ht, htime] at hmachine
  refine ⟨hmachine, ?_, congrArg Machine.pending hmachine, congrArg (·.core.halted) hmachine, by rw [hidle]; rfl⟩
  rw [show (c.step budget).2.lifecycle = c.lifecycle.awake from congrArg Machine.lifecycle hmachine]
  exact Lifecycle.awake_ne_paused hl

/-! The instructions of the handlers -/

variable [SteadyBus B]

theorem step_held (h : c.Underway) {opcode : UInt8} {rest : List UInt8} {e : Encoded}
    (hb : Holds c.bus c.regs.pc (opcode :: rest)) (hr : (Encoding.ofOpcode opcode).read? rest = some (e, []))
    {regs : Registers} {extra : Nat} {b : B}
    (hop : ∀ log traffic,
      let t := (e.op.onRegisters c.regs.pc (c.core.behind (e.toInstruction c.regs.pc (opcode :: rest)))).run c.bus log
        traffic
      t.result = (regs, extra) ∧ t.bus = b) :
    (c.clock.mode = .standard → (c.step budget).1 = e.shape.tStates + extra) ∧
      (c.step budget).2.machine =
        c.after { regs, halted := e.op matches .halt, eiDelay := e.op matches .ei } b (c.step budget).1 ∧
      (e.op.disturbs = true → (e.op matches .halt) = false → (c.step budget).2.Underway) := by
  obtain ⟨hinstruction, hcore, hafter, hcycles⟩ := c.core.outcome_held c.clock.mode hb hr hop
  have hstep := c.stepped budget
  rw [h.stepKind] at hstep
  obtain ⟨ht, hmachine, hidle⟩ := hstep.of_instruction
  rw [outcome, hcore, hafter, h.halted] at hmachine
  refine ⟨fun hmode => ht.trans (hcycles hmode), hmachine, fun hop hhalt => ?_⟩
  have hsafe : c.outcome.safe = false := by
    rw [Outcome.safe, outcome, hinstruction]
    simp [Instruction.idleSafe, Encoded.toInstruction, hop]
  have hlifecycle : (c.step budget).2.lifecycle = c.lifecycle.awake := congrArg Machine.lifecycle hmachine
  have hpending : (c.step budget).2.pending = c.pending := congrArg Machine.pending hmachine
  have hhalted : (c.step budget).2.core.halted = (e.op matches .halt) := congrArg (·.core.halted) hmachine
  refine ⟨?_, hpending.trans h.pending, hhalted.trans hhalt, ?_⟩
  · rw [hlifecycle]
    exact Lifecycle.awake_ne_paused h.lifecycle
  · rw [hidle, hsafe]
    exact Idle.Detector.active_observe h.active _ _

lemma step_ei (h : c.Underway) (hb : Holds c.bus c.regs.pc [0xFB]) (budget : Nat) :
    (c.clock.mode = .standard → (c.step budget).1 = 4) ∧
      (c.step budget).2.machine =
        c.after
          { regs := { c.regs.refresh 1 with pc := c.regs.pc + 1, iff1 := true, iff2 := true }, eiDelay := true }
          c.bus (c.step budget).1 ∧
      (c.step budget).2.Underway := by
  obtain ⟨htime, hmachine, hnext⟩ := step_held (e := { op := .ei, shape := .m1 }) h hb rfl fun _ _ => ⟨rfl, rfl⟩
  exact ⟨htime, hmachine, hnext rfl rfl⟩

lemma step_return (h : c.Underway) {x : UInt8} {op : Op} (hop : op = .reti ∨ op = .retn)
    (hr : (Encoding.ofOpcode 0xED).read? [x] = some ({ op, shape := CycleShape.m1.addFetch.addReads 2 }, []))
    (hb : Holds c.bus c.regs.pc [0xED, x]) {bus : B} {sp word : UInt16} (hroom : Room bus sp)
    (hbus : c.bus = pushed bus sp word) (hsp : c.regs.sp = sp - 2) (budget : Nat) :
    (c.clock.mode = .standard → (c.step budget).1 = 14) ∧
      (c.step budget).2.machine =
        c.after { regs := { c.regs.refresh 2 with sp, pc := word, iff1 := c.regs.iff2 } } c.bus
          (c.step budget).1 := by
  have hrun (log : Log) (traffic : Traffic) :
      let t := (op.onRegisters c.regs.pc { c.regs.refresh 2 with pc := c.regs.pc + 2 }).run c.bus log traffic
      t.result = ({ c.regs.refresh 2 with sp, pc := word, iff1 := c.regs.iff2 }, 0) ∧ t.bus = c.bus := by
    have hretn : op.onRegisters c.regs.pc { c.regs.refresh 2 with pc := c.regs.pc + 2 } =
        Op.retn.onRegisters c.regs.pc { c.regs.refresh 2 with pc := c.regs.pc + 2 } := by
      rcases hop with rfl | rfl <;> rfl
    obtain ⟨hresult, hafter⟩ :=
      Op.run_pop_pushed bus log traffic hroom word { c.regs.refresh 2 with pc := c.regs.pc + 2 } hsp
    rw [← hbus] at hresult hafter
    rw [hretn]
    simp only [Op.onRegisters, Dialogue.bind_eq, Dialogue.pure_eq, Dialogue.run_bind, Dialogue.run, hresult]
    exact ⟨rfl, hafter⟩
  obtain ⟨htime, hmachine, -⟩ := step_held h hb hr hrun
  refine ⟨htime, ?_⟩
  rcases hop with rfl | rfl
  · exact hmachine
  · exact hmachine

/-! Entry and return -/

omit [Bus B] [SteadyBus B] in
lemma after_after {d : Cpu B} {core : Core} {bus : B} {s : Nat} {p : Option Interrupt}
    (h : d.machine = { c.after core bus s with pending := p }) (core' : Core) (bus' : B) (t : Nat) :
    d.after core' bus' t = { c.after core' bus' (s + t) with pending := p } := by
  have htotal : c.total + UInt64.ofNat s + UInt64.ofNat t = c.total + UInt64.ofNat (s + t) := by
    rw [UInt64.add_assoc, UInt64.ofNat_add]
  change { d.machine with
    core := core', bus := bus', lifecycle := d.machine.lifecycle.awake, total := d.machine.total + UInt64.ofNat t } = _
  rw [h]
  simp only [after, Lifecycle.awake_awake, htotal]

/-- The machine as it was, awake and with nothing pending, but for so many opcode fetches, the word left below the
stack pointer, and the time. -/
def restored (c : Cpu B) (fetches time : Nat) : Machine B :=
  { c.after { regs := c.regs.refresh fetches } (pushed c.bus c.regs.sp c.regs.pc) time with pending := none }

lemma maskable_restored (hk : c.stepKind budget = .response .maskable) (hiff : c.regs.iff1 = c.regs.iff2)
    (him : c.regs.im ≠ 2) (hroom : Room c.bus c.regs.sp) (hb : Holds c.bus im1Vector [0xFB, 0xED, 0x4D])
    (hapart : ∀ x ∈ cells im1Vector 3, x ≠ c.regs.sp - 1 ∧ x ≠ c.regs.sp - 2) (budget' budget'' : Nat) :
    ∃ time, (((c.step budget).2.step budget').2.step budget'').2.machine = c.restored 4 time ∧
      (c.clock.mode = .standard → time = 31) := by
  have hiff1 : c.regs.iff1 = true := by
    obtain ⟨-, -, haccepts⟩ := stepKind_response_iff.mp hk
    simp only [accepts, Bool.and_eq_true] at haccepts
    exact haccepts.1
  -- The return address goes below the stack pointer, so the handler is still there when it is fetched.
  have hheld : Holds (pushed c.bus c.regs.sp c.regs.pc) im1Vector [0xFB, 0xED, 0x4D] := hb.pushed hroom _ hapart
  obtain ⟨hei, hreti⟩ := holds_cons.mp hheld
  have hentered := entered_of_response hk fun _ => him
  generalize (c.step budget).2 = d at hentered ⊢
  have hfirst : Holds d.bus d.regs.pc [0xFB] := by
    rw [hentered.regs, hentered.bus]
    exact holds_cons.mpr ⟨hei, rfl⟩
  obtain ⟨htime, henabled, hunderway⟩ := step_ei hentered.underway hfirst budget'
  rw [after_after hentered.machine] at henabled
  generalize d.step budget' = s at htime henabled hunderway ⊢
  obtain ⟨t, e⟩ := s
  dsimp only at htime henabled hunderway ⊢
  have hregs : e.regs = { d.regs.refresh 1 with pc := d.regs.pc + 1, iff1 := true, iff2 := true } :=
    congrArg (·.core.regs) henabled
  have hbus : e.bus = pushed c.bus c.regs.sp c.regs.pc := (congrArg Machine.bus henabled).trans hentered.bus
  have hclock : e.clock = c.clock := congrArg Machine.clock henabled
  have hsecond : Holds e.bus e.regs.pc [0xED, 0x4D] := by
    rw [hregs, hbus, hentered.regs]
    exact hreti
  have hsp : e.regs.sp = c.regs.sp - 2 := by
    rw [hregs, hentered.regs]
    rfl
  obtain ⟨htime', hreturned⟩ := step_return hunderway (.inl rfl) rfl hsecond hroom hbus hsp budget''
  rw [after_after henabled, hregs, hentered.regs, hbus] at hreturned
  -- `EI` sets both flip-flops, which is how they were: an accepted interrupt found the first one set.
  have hback : c.regs.refresh 4 =
      (({ c.regs with iff1 := true, iff2 := true }.refresh 1).refresh 1).refresh 2 := by
    have hsame : { c.regs with iff1 := true, iff2 := true } = c.regs :=
      congrArg₂ (fun p q => { c.regs with iff1 := p, iff2 := q }) hiff1.symm (hiff ▸ hiff1.symm)
    rw [hsame, Registers.refresh_refresh, Registers.refresh_refresh]
  refine ⟨entryTime .maskable + t + (e.step budget'').1, hreturned.trans ?_, fun hmode => ?_⟩
  · rw [restored, hback]
    rfl
  · rw [htime (by rw [hentered.clock, hmode]), htime' (by rw [hclock, hmode])]
    rfl

lemma nonMaskable_restored (hk : c.stepKind budget = .response .nonMaskable) (hiff : c.regs.iff1 = c.regs.iff2)
    (hroom : Room c.bus c.regs.sp) (hb : Holds c.bus nmiVector [0xED, 0x45])
    (hapart : ∀ x ∈ cells nmiVector 2, x ≠ c.regs.sp - 1 ∧ x ≠ c.regs.sp - 2) (budget' : Nat) :
    ∃ time, ((c.step budget).2.step budget').2.machine = c.restored 3 time ∧
      (c.clock.mode = .standard → time = 25) := by
  have hheld : Holds (pushed c.bus c.regs.sp c.regs.pc) nmiVector [0xED, 0x45] := hb.pushed hroom _ hapart
  have hentered := entered_of_response hk fun h => Interrupt.noConfusion h
  generalize (c.step budget).2 = d at hentered ⊢
  have hfirst : Holds d.bus d.regs.pc [0xED, 0x45] := by
    rw [hentered.regs, hentered.bus]
    exact hheld
  have hsp : d.regs.sp = c.regs.sp - 2 := by
    rw [hentered.regs]
    rfl
  obtain ⟨htime, hreturned⟩ :=
    step_return hentered.underway (.inr rfl) rfl hfirst hroom hentered.bus hsp budget'
  rw [after_after hentered.machine, hentered.regs, hentered.bus] at hreturned
  -- `RETN` copies the second flip-flop, which the response left alone, over the first.
  have hback : c.regs.refresh 3 = ({ c.regs with iff1 := c.regs.iff2 }.refresh 1).refresh 2 := by
    have hsame : { c.regs with iff1 := c.regs.iff2 } = c.regs :=
      congrArg (fun p => { c.regs with iff1 := p }) hiff.symm
    rw [hsame, Registers.refresh_refresh]
  refine ⟨entryTime .nonMaskable + (d.step budget').1, hreturned.trans ?_, fun hmode => ?_⟩
  · rw [restored, hback]
    rfl
  · rw [htime (by rw [hentered.clock, hmode])]
    rfl

/-- An interrupt and its shortest handler leave no trace but the refresh counter, the time, and the word below the
stack pointer, wherever the program was and whether or not it was halted. -/
theorem handler_restores (c : Cpu B) (hl : c.lifecycle ≠ .paused) (hiff : c.regs.iff1 = c.regs.iff2)
    (hd : c.core.eiDelay = false) (hroom : Room c.bus c.regs.sp) :
    (c.pending = some .maskable → c.regs.iff1 = true → c.regs.im = 0 ∨ c.regs.im = 1 →
      Holds c.bus im1Vector [0xFB, 0xED, 0x4D] →
      (∀ x ∈ cells im1Vector 3, x ≠ c.regs.sp - 1 ∧ x ≠ c.regs.sp - 2) → ∀ budget budget' budget'',
      c.stepKind budget = .response .maskable ∧
        ∃ time, (((c.step budget).2.step budget').2.step budget'').2.machine = c.restored 4 time ∧
          (c.clock.mode = .standard → time = 31)) ∧
    (c.pending = some .nonMaskable → Holds c.bus nmiVector [0xED, 0x45] →
      (∀ x ∈ cells nmiVector 2, x ≠ c.regs.sp - 1 ∧ x ≠ c.regs.sp - 2) → ∀ budget budget',
      c.stepKind budget = .response .nonMaskable ∧
        ∃ time, ((c.step budget).2.step budget').2.machine = c.restored 3 time ∧
          (c.clock.mode = .standard → time = 25)) ∧
    ∀ fetches time x, x ≠ c.regs.sp - 1 → x ≠ c.regs.sp - 2 →
      peek (c.restored fetches time).bus x = peek c.bus x := by
  refine ⟨fun hp hiff1 him hb hapart budget budget' budget'' => ?_, fun hp hb hapart budget budget' => ?_,
    fun fetches time x hhigh hlow => ?_⟩
  · have haccepts : c.accepts .maskable = true := by simp [accepts, hiff1, hd]
    have hk : c.stepKind budget = .response .maskable := stepKind_response_iff.mpr ⟨hl, hp, haccepts⟩
    have him2 : c.regs.im ≠ 2 := by
      rcases him with him | him
      · rw [him]; decide
      · rw [him]; decide
    exact ⟨hk, maskable_restored hk hiff him2 hroom hb hapart budget' budget''⟩
  · have hk : c.stepKind budget = .response .nonMaskable := stepKind_response_iff.mpr ⟨hl, hp, rfl⟩
    exact ⟨hk, nonMaskable_restored hk hiff hroom hb hapart budget'⟩
  · change peek (pushed c.bus c.regs.sp c.regs.pc) x = _
    rw [peek_pushed hroom, if_neg hlow, if_neg hhigh]

theorem handler_restores_halted :
    let memory (m : Memory) := ((((m.poke 0x38 0xFB).poke 0x39 0xED).poke 0x3A 0x4D).poke 0x66 0xED).poke 0x67 0x45
    let regs : Registers := { pc := 0x1234, sp := 1, iff1 := true, iff2 := true, im := 1 }
    let c : Cpu Board := {
      bus := Board.mapMemory memory {}, core := { regs, halted := true }, pending := some .maskable }
    let d := c.requestInterrupt .nonMaskable
    c.lifecycle ≠ .paused ∧ c.regs.iff1 = c.regs.iff2 ∧ c.core.eiDelay = false ∧ Room c.bus c.regs.sp ∧
      Holds c.bus im1Vector [0xFB, 0xED, 0x4D] ∧ Holds d.bus nmiVector [0xED, 0x45] ∧
      (((c.step unbounded).2.step unbounded).2.step unbounded).2.machine = c.restored 4 31 ∧
      ((d.step unbounded).2.step unbounded).2.machine = d.restored 3 25 := by
  intro memory regs c d
  have hl : c.lifecycle ≠ .paused := Lifecycle.noConfusion
  have hroom : Room c.bus c.regs.sp := Board.room (Nat.zero_le _) (Nat.zero_le _)
  have hmaskable : Holds c.bus im1Vector [0xFB, 0xED, 0x4D] := by decide +kernel
  have hnonMaskable : Holds d.bus nmiVector [0xED, 0x45] := by decide +kernel
  have hsp : c.regs.sp = 1 := rfl
  have hapart : ∀ x ∈ cells im1Vector 3, x ≠ c.regs.sp - 1 ∧ x ≠ c.regs.sp - 2 := by simp [hsp, cells, im1Vector]
  have hapart' : ∀ x ∈ cells nmiVector 2, x ≠ c.regs.sp - 1 ∧ x ≠ c.regs.sp - 2 := by simp [hsp, cells, nmiVector]
  obtain ⟨hint, -, -⟩ := handler_restores c hl rfl rfl hroom
  obtain ⟨-, hnmi, -⟩ := handler_restores d hl rfl rfl hroom
  obtain ⟨-, time, hreturned, htime⟩ := hint rfl rfl (.inr rfl) hmaskable hapart unbounded unbounded unbounded
  obtain ⟨-, time', hreturned', htime'⟩ := hnmi rfl hnonMaskable hapart' unbounded unbounded
  rw [htime rfl] at hreturned
  rw [htime' rfl] at hreturned'
  exact ⟨hl, rfl, rfl, hroom, hmaskable, hnonMaskable, hreturned, hreturned'⟩

end Cpu

end Z80Machine
