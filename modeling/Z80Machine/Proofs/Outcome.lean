import Z80Machine.Cpu.Step
import Z80Machine.Proofs.Shape
import Z80Machine.Proofs.Veil

/-! What one instruction does, whatever the trace and the log: its bounds in time, the accesses a safe one makes, and
the veil lifted from operations to whole instructions. -/

namespace Z80Machine

def Instruction.fetchAt (pc : UInt16) : Dialogue (UInt8 × Instruction) :=
  (Dialogue.readByte pc).bind fun opcode => (decode opcode pc).bind fun i => .done (opcode, i)

structure Outcome (B : Type) where
  opcode : UInt8
  instruction : Instruction
  core : Core
  cycles : Nat
  bus : B

namespace Outcome

variable {B : Type}

def step (o : Outcome B) : Idle.Step where
  pc := o.instruction.address
  opcode := o.opcode
  cycles := o.cycles
  fetches := o.instruction.shape.fetches

def safe (o : Outcome B) : Bool :=
  o.instruction.idleSafe

end Outcome

lemma ClockMode.contention_le (mode : ClockMode) (video ports : Nat) :
    mode.contention video ports ≤ video + 2 * ports := by
  cases mode <;> simp [contention, waitStates, accessQuarters, accessTime]

lemma Op.tally_of_not_disturbs {op : Op} (h : op.disturbs = false) (taken : Bool) :
    (op.tally taken).writes = (op.tally false).writes ∧ (op.tally taken).outputs = (op.tally false).outputs := by
  cases op
  case call cond addr => contradiction
  case block op dir repeating => cases op <;> exact ⟨rfl, rfl⟩
  all_goals exact ⟨rfl, rfl⟩

lemma Encoded.Faithful.silent {e : Encoded} {n : Nat} (he : e.Faithful n) (taken : Bool)
    (hs : e.shape.writesOutside = false) (hd : e.op.disturbs = false) :
    (e.op.tally taken).writes = 0 ∧ (e.op.tally taken).outputs = 0 := by
  obtain ⟨hw, ho⟩ := Op.tally_of_not_disturbs hd taken
  simp only [CycleShape.writesOutside, Bool.or_eq_false_iff, decide_eq_false_iff_not, Nat.not_lt,
    Nat.le_zero] at hs
  exact ⟨by rw [hw, ← he.writes, hs.1], by rw [ho, ← he.outputs, hs.2]⟩

namespace Core

variable {B : Type} [Bus B]

def ready (c : Core) (i : Instruction) : Core :=
  { c with regs := { c.regs with pc := c.regs.pc + 1 }.refresh i.shape.fetches, eiDelay := false }

def untraced (c : Core) : Dialogue ((UInt8 × Instruction) × Core × Nat) :=
  (Instruction.fetchAt c.regs.pc).bind fun f => (f.2.execute (c.ready f.2)).bind fun e => .done (f, e)

def outcome (c : Core) (mode : ClockMode) (bus : B) : Outcome B :=
  let t := c.untraced.run bus {} {}
  { opcode := t.result.1.1, instruction := t.result.1.2, core := t.result.2.1, bus := t.bus
    cycles := t.result.2.2 + mode.contention t.traffic.video t.traffic.ports }

/-! The trace and the log -/

lemma cycle_silent (c : Core) (trace : Trace) :
    ((c.cycle trace).bind fun ran => .done ((ran.opcode, ran.instruction), ran.core, ran.cycles)).silent =
      c.untraced.silent := by
  simp only [cycle, untraced, Instruction.fetchAt, Dialogue.bind_eq, Dialogue.pure_eq, Dialogue.bind_assoc,
    Dialogue.done_bind, Dialogue.silent_bind, Dialogue.silent_remarks, Dialogue.silent_done]
  rfl

lemma cycle_accesses (c : Core) (trace : Trace) (bus : B) :
    (c.cycle trace).accesses bus = c.untraced.accesses bus := by
  have h := congrArg (·.accesses bus) (c.cycle_silent trace)
  simpa only [Dialogue.silent_accesses, Dialogue.accesses_bind _ _ bus {} {}, Dialogue.accesses, List.append_nil]
    using h

lemma cycle_run (c : Core) (trace : Trace) (bus : B) (log : Log) :
    let t := (c.cycle trace).run bus log {}
    let u := c.untraced.run bus {} {}
    ((t.result.opcode, t.result.instruction), t.result.core, t.result.cycles) = u.result ∧ t.bus = u.bus ∧
      t.traffic = u.traffic := by
  have h := congrArg (fun d => (d.run bus {} {}).unlogged) (c.cycle_silent trace)
  simp only [Dialogue.silent_run _ bus {} log, Dialogue.run_bind, Dialogue.run] at h
  rw [c.untraced.unlogged_run bus log {}] at h
  exact ⟨congrArg (·.1) h, congrArg (·.2.1) h, congrArg (·.2.2) h⟩

/-! Bounds -/

structure Runs (c : Core) (i : Instruction) (d : Core) (cycles : Nat) (l : List Access) : Prop where
  time : 4 ≤ cycles
  time_le : cycles + (Tally.of l).memory + 2 * (Tally.of l).ports ≤ 29
  asks : i.idleSafe → ∀ a ∈ l, a.asks
  halted : i.idleSafe → d.halted = c.halted
  eiDelay : i.idleSafe → d.eiDelay = false

lemma always_fetchAt (pc : UInt16) :
    (Instruction.fetchAt pc).Always (fun f l => ∃ (e : Encoded) (n : Nat), e.Faithful n ∧ f.2.op = e.op ∧
      f.2.shape = e.shape ∧ Tally.of l = { reads := n }) [] := by
  simp only [Instruction.fetchAt, Instruction.decode, Dialogue.bind_eq, Dialogue.pure_eq, Dialogue.always_bind,
    Dialogue.always_readByte, Dialogue.always_done]
  intro opcode
  refine (Encoding.always_fetch _ _ [opcode] _ (Encoding.ofOpcode_faithful opcode)).mono ?_
  rintro ⟨e, bytes⟩ l ⟨he, hle, hl⟩
  refine ⟨e, bytes.length, he, rfl, rfl, ?_⟩
  have hb : 1 + (bytes.length - 1) = bytes.length := by
    have : 1 ≤ bytes.length := hle
    omega
  simpa [hb] using hl

theorem always_untraced (c : Core) :
    c.untraced.Always (fun s l => c.Runs s.1.2 s.2.1 s.2.2 l) [] := by
  refine (Dialogue.always_bind _ _ _).mpr ((always_fetchAt c.regs.pc).mono ?_)
  rintro ⟨opcode, i⟩ l ⟨e, n, he, hop, hshape, hl⟩
  refine (Dialogue.always_bind _ _ _).mpr ((Dialogue.always_bind _ _ _).mpr ?_)
  refine (i.op.always_onRegisters _ _ l).mono ?_
  rintro ⟨regs, extra⟩ m ⟨hm, hextra⟩
  generalize i.op.taken _ = taken at hm hextra
  have htally : Tally.of m = { reads := n } + e.op.tally taken := by rw [hm, hl, hop]
  have htime : i.tStates = e.shape.tStates := congrArg CycleShape.tStates hshape
  have hle := he.time_le taken
  have hfetched := he.fetched
  rw [hop] at hextra
  have hsafe (hs : i.idleSafe) : e.shape.writesOutside = false ∧ e.op.disturbs = false := by
    simpa [Instruction.idleSafe, ← hop, ← hshape] using hs
  refine ⟨?_, ?_, ?_, fun hs => ?_, fun hs => ?_⟩
  · have : 4 * e.shape.fetches ≤ e.shape.tStates := by
      unfold CycleShape.tStates
      omega
    dsimp only
    omega
  · rw [htally]
    cases ht : e.op.tally taken
    simp only [ht, Tally.memory, Tally.ports, Tally.mk_add_mk] at hle ⊢
    omega
  · intro hs
    obtain ⟨hw, ho⟩ := he.silent taken (hsafe hs).1 (hsafe hs).2
    cases ht : e.op.tally taken
    simp only [ht] at hw ho
    apply Tally.asks_of_mem <;> simp [htally, ht, hw, ho]
  · have hd : i.op.disturbs = false := by rw [hop, (hsafe hs).2]
    dsimp only
    split
    case h_1 h =>
      rw [h] at hd
      contradiction
    case h_2 => exact Bool.or_false _
  · have hd : i.op.disturbs = false := by rw [hop, (hsafe hs).2]
    dsimp only
    split
    case h_1 h =>
      rw [h] at hd
      contradiction
    case h_2 => exact Bool.or_false _

variable (c : Core) (mode : ClockMode) (bus : B)

lemma outcome_runs : c.Runs (c.outcome mode bus).instruction (c.outcome mode bus).core
    (c.untraced.run bus {} {}).result.2.2 (c.untraced.accesses bus) := by
  exact c.always_untraced.run bus {} {}

lemma outcome_time : 4 ≤ (c.outcome mode bus).cycles :=
  Nat.le_trans (c.outcome_runs mode bus).time (Nat.le_add_right _ _)

theorem outcome_time_le : (c.outcome mode bus).cycles ≤ 29 := by
  have h := (c.outcome_runs mode bus).time_le
  have hv := c.untraced.run_traffic_video_le bus {} {}
  have hp := c.untraced.run_traffic_ports bus {} {}
  have hc := mode.contention_le (c.untraced.run bus {} {}).traffic.video (c.untraced.run bus {} {}).traffic.ports
  rw [Tally.countP_not_isPort] at hv
  rw [Tally.countP_isPort] at hp
  simp only [outcome]
  simp only [Nat.zero_add] at hv hp
  omega

theorem outcome_bus [QuietBus B] (h : (c.outcome mode bus).safe) : (c.outcome mode bus).bus = bus :=
  Dialogue.run_bus_of_asks _ _ _ _ ((c.outcome_runs mode bus).asks h)

lemma safe_op (h : (c.outcome mode bus).safe) : (c.outcome mode bus).instruction.op.disturbs = false := by
  simp only [Outcome.safe, Instruction.idleSafe, Bool.and_eq_true, Bool.not_eq_true'] at h
  exact h.2

lemma outcome_halted (h : (c.outcome mode bus).safe) : (c.outcome mode bus).core.halted = c.halted :=
  (c.outcome_runs mode bus).halted h

lemma outcome_eiDelay (h : (c.outcome mode bus).safe) : (c.outcome mode bus).core.eiDelay = false :=
  (c.outcome_runs mode bus).eiDelay h

/-! The veil -/

def veil (c : Core) (x : UInt8) (p q : Bool) : Core :=
  { c with regs := c.regs.veil x p q }

lemma ready_veil (i : Instruction) (x : UInt8) (p q : Bool) :
    (c.veil x p q).ready i = (c.ready i).veil (Registers.refreshed x i.shape.fetches) p q := rfl

lemma execute_veil (i : Instruction) (x : UInt8) (p q : Bool) (hop : i.op.disturbs = false)
    (hq : i.op = .loadAI → q = c.regs.iff2) :
    i.execute (c.veil x p q) = (i.execute c).bind fun e => .done (e.1.veil x p q, e.2) := by
  have h := i.op.onRegisters_veil { c.regs with pc := i.address + i.size } x p q i.address hop hq
  simp only [Instruction.execute, Dialogue.bind_eq, Dialogue.pure_eq, Dialogue.bind_assoc, Dialogue.done_bind]
  simp only [veil, Registers.veil] at h ⊢
  rw [h]
  simp only [Dialogue.bind_assoc, Dialogue.done_bind]

theorem outcome_veil (x : UInt8) (p q : Bool) (hs : (c.outcome mode bus).safe)
    (hq : (c.outcome mode bus).instruction.op = .loadAI → q = c.regs.iff2) :
    (c.veil x p q).outcome mode bus = { c.outcome mode bus with
      core := (c.outcome mode bus).core.veil
        (Registers.refreshed x (c.outcome mode bus).instruction.shape.fetches) p q } := by
  have hop := c.safe_op mode bus hs
  simp only [outcome, untraced, Dialogue.run_bind, Dialogue.run] at hop hq ⊢
  rw [show (c.veil x p q).regs.pc = c.regs.pc from rfl]
  generalize (Instruction.fetchAt c.regs.pc).run bus {} {} = f at hop hq ⊢
  rw [ready_veil, (c.ready f.result.2).execute_veil _ _ _ _ hop hq, Dialogue.run_bind]
  rfl

lemma outcome_iff2 (hs : (c.outcome mode bus).safe) : (c.outcome mode bus).core.regs.iff2 = c.regs.iff2 :=
  congrArg (·.core.regs.iff2) (c.outcome_veil mode bus c.regs.r c.regs.iff1 c.regs.iff2 hs fun _ => rfl)

end Core

namespace Cpu

variable {B : Type} [Bus B]

def outcome (c : Cpu B) : Outcome B :=
  c.core.outcome c.clock.mode c.bus

lemma runInstruction_eq (c : Cpu B) : ∃ trace log, c.runInstruction = (c.outcome.cycles, { c with
    core := c.outcome.core, bus := c.outcome.bus, trace, log
    idle := (c.idle.observe c.outcome.step c.outcome.safe c.outcome.core.regs).value }) := by
  obtain ⟨hr, hb, ht⟩ := c.core.cycle_run c.trace c.bus c.log
  simp only [runInstruction, setIdle, regs, outcome, Core.outcome, Outcome.step, Outcome.safe, ← hr, ← hb, ← ht]
  exact ⟨_, _, rfl⟩

end Cpu

end Z80Machine
