import Z80Machine.Proofs.Control
import Z80Machine.Proofs.Staleness
import Z80Machine.Proofs.Window

/-! A step of the processor in numbers of so many bits, with the detector's history in an indexed list. It breaks off at
a number that does not fit, at a shift that is too long and at an index that is out of range, and it never does. -/

namespace Z80Machine

open Width Idle

namespace Dialogue

variable {α β γ : Type}

def ensure (o : Option α) : OptionT Dialogue α :=
  OptionT.mk (.done o)

def sure (d : Dialogue α) : OptionT Dialogue α :=
  OptionT.mk (d.bind fun a => .done (some a))

lemma ensure_some_bind (a : α) (f : α → OptionT Dialogue β) : ensure (some a) >>= f = f a := rfl

lemma sure_bind (d : Dialogue α) (f : α → Dialogue β) : sure (d.bind f) = sure d >>= fun a => sure (f a) := by
  change (d.bind f).bind _ = (d.bind _).bind _
  simp only [bind_assoc, done_bind]
  rfl

lemma sure_done_bind (d : Dialogue α) (f : α → β) (g : β → OptionT Dialogue γ) :
    sure (d.bind fun a => .done (f a)) >>= g = sure d >>= fun a => g (f a) := by
  change ((d.bind _).bind _).bind _ = (d.bind _).bind _
  simp only [bind_assoc, done_bind]

lemma sure_bind_congr {p : α → List Access → Prop} {d : Dialogue α} {seen : List Access} (h : d.Always p seen)
    {f g : α → OptionT Dialogue β} (hfg : ∀ a l, p a l → f a = g a) : sure d >>= f = sure d >>= g := by
  induction d generalizing seen with
  | done a => exact hfg a _ h
  | read addr next ih => exact congrArg (Dialogue.read addr) (funext fun b => ih b (h b))
  | write addr byte next ih => exact congrArg (Dialogue.write addr byte) (ih h)
  | input port next ih => exact congrArg (Dialogue.input port) (funext fun b => ih b (h b))
  | output port byte next ih => exact congrArg (Dialogue.output port byte) (ih h)
  | note event next ih => exact congrArg (Dialogue.note event) (ih h)

lemma run_sure {B : Type} [Bus B] (d : Dialogue α) (bus : B) (log : Log) (traffic : Traffic) :
    (sure d).run.run bus log traffic =
      let t := d.run bus log traffic
      { result := some t.result, bus := t.bus, log := t.log, traffic := t.traffic } :=
  run_bind d _ bus log traffic

end Dialogue

open Dialogue

/-! Decoding and execution -/

namespace Op

def checkedChangeBit (target : Operand) (copy : Option Register) (r : Registers) (f : UInt8 → Option UInt8) :
    OptionT Dialogue Registers := do
  let value ← sure (target.load r)
  let result ← ensure (f value)
  let r ← sure (target.store result r)
  return match copy with
    | some x => r.set x result
    | none => r

def checkedOnRegisters (op : Op) (address : UInt16) (r : Registers) : OptionT Dialogue (Registers × Nat) := do
  match op with
  | alu op src =>
    let value ← sure (src.load r)
    return (r.setA (← ensure (Arithmetic.checkedPerform op r.a value r.flags.c)), 0)
  | addPair dst src =>
    let (word, flags) ← ensure (Arithmetic.checkedAddWords (r.getPair dst) (r.getPair src) r.flags)
    return ((r.setFlags flags).setPair dst word, 0)
  | adcHl src =>
    let (word, flags) ← ensure (Arithmetic.checkedAdcWords r.hl (r.getPair src) r.flags.c)
    return ((r.setFlags flags).setHl word, 0)
  | sbcHl src =>
    let (word, flags) ← ensure (Arithmetic.checkedSbcWords r.hl (r.getPair src) r.flags.c)
    return ((r.setFlags flags).setHl word, 0)
  | neg => return (r.setA (← ensure (Arithmetic.checkedSub 0 r.a false)), 0)
  | bit n target =>
    let value ← sure (target.load r)
    return (r.setFlags (← ensure (Arithmetic.checkedTestBit n value r.flags.c)), 0)
  | res n target copy => return (← checkedChangeBit target copy r (Arithmetic.checkedResetBit n), 0)
  | set n target copy => return (← checkedChangeBit target copy r (Arithmetic.checkedSetBit n), 0)
  | op => sure (op.onRegisters address r)

lemma checkedChangeBit_eq (target : Operand) (copy : Option Register) (r : Registers) {f : UInt8 → Option UInt8}
    {g : UInt8 → UInt8} (h : ∀ v, f v = some (g v)) :
    checkedChangeBit target copy r f = sure (changeBit target copy r g) := by
  simp only [checkedChangeBit, changeBit, Dialogue.bind_eq, sure_bind, h, ensure_some_bind]
  rfl

lemma checkedOnRegisters_eq (op : Op) (address : UInt16) (r : Registers) :
    op.checkedOnRegisters address r = sure (op.onRegisters address r) := by
  cases op
  case alu op src =>
    simp only [checkedOnRegisters, onRegisters, Dialogue.bind_eq, sure_bind, Arithmetic.checkedPerform_eq,
      ensure_some_bind]
    rfl
  case addPair dst src =>
    simp only [checkedOnRegisters, Arithmetic.checkedAddWords_eq]
    rfl
  case adcHl src =>
    simp only [checkedOnRegisters, Arithmetic.checkedAdcWords_eq]
    rfl
  case sbcHl src =>
    simp only [checkedOnRegisters, Arithmetic.checkedSbcWords_eq]
    rfl
  case neg =>
    simp only [checkedOnRegisters, Arithmetic.checkedSub_eq]
    rfl
  case bit n target =>
    simp only [checkedOnRegisters, onRegisters, Dialogue.bind_eq, sure_bind, Arithmetic.checkedTestBit_eq,
      ensure_some_bind]
    rfl
  case res n target copy =>
    simp only [checkedOnRegisters, onRegisters, Dialogue.bind_eq, sure_bind,
      checkedChangeBit_eq target copy r (Arithmetic.checkedResetBit_eq · n)]
    rfl
  case set n target copy =>
    simp only [checkedOnRegisters, onRegisters, Dialogue.bind_eq, sure_bind,
      checkedChangeBit_eq target copy r (Arithmetic.checkedSetBit_eq · n)]
    rfl
  all_goals rfl

end Op

namespace Instruction

def checkedDecode (opcode : UInt8) (pc : UInt16) : OptionT Dialogue Instruction := do
  let (encoded, bytes) ← sure ((Encoding.checkedOfOpcode opcode).fetch (pc + 1) [opcode])
  let _ ← ensure (fit 16 bytes.length)
  return (← ensure encoded).toInstruction pc bytes

def checkedExecute (i : Instruction) (c : Core) : OptionT Dialogue (Core × Nat) := do
  let base ← ensure i.shape.checkedTime
  let (regs, extra) ← i.op.checkedOnRegisters i.address { c.regs with pc := i.address + i.size }
  let cycles ← ensure (plus 32 base extra)
  return ({ regs, halted := c.halted || i.op matches .halt, eiDelay := c.eiDelay || i.op matches .ei }, cycles)

lemma checkedDecode_eq (opcode : UInt8) (pc : UInt16) : checkedDecode opcode pc = sure (decode opcode pc) := by
  have hfetch := Encoding.always_fetch _ (pc + 1) [opcode] [] (Encoding.ofOpcode_faithful opcode)
  rw [checkedDecode, Encoding.checkedOfOpcode_eq, Encoding.fetch_bind_complete, sure_done_bind, decode,
    Dialogue.bind_eq, sure_bind]
  refine sure_bind_congr hfetch fun s l h => ?_
  have hlength : s.2.length < 2 ^ 16 := by
    have := h.1.time_le false
    omega
  dsimp only
  rw [fit_of_lt hlength]
  rfl

lemma checkedExecute_eq {i : Instruction} {e : Encoded} {n : Nat} (he : e.Faithful n) (hop : i.op = e.op)
    (hshape : i.shape = e.shape) (c : Core) : i.checkedExecute c = sure (i.execute c) := by
  have htime : i.shape.checkedTime = some i.tStates := by
    rw [hshape, he.fits.checkedTime, Instruction.tStates, hshape]
  simp only [checkedExecute, execute, Dialogue.bind_eq, sure_bind, htime, ensure_some_bind, Op.checkedOnRegisters_eq]
  refine sure_bind_congr (i.op.always_onRegisters _ _ []) fun s l h => ?_
  obtain ⟨-, hextra⟩ := h
  generalize i.op.taken _ = taken at hextra
  have hle := he.time_le taken
  have hcycles : i.tStates + s.2 < 2 ^ 32 := by
    rw [← hop, ← hshape] at hle
    rw [Instruction.tStates]
    omega
  rw [plus_of_lt hcycles]
  rfl

end Instruction

def Trace.checkedRecord (t : Trace) (i : Instruction) (before : Registers) : Option (Logged Trace) := do
  if t.enabled ∧ t.emitted < t.maxEntries then discard (plus 64 t.emitted 1)
  return t.record i before

lemma Trace.checkedRecord_eq {t : Trace} (h : t.maxEntries < 2 ^ 64) (i : Instruction) (before : Registers) :
    t.checkedRecord i before = some (t.record i before) := by
  unfold checkedRecord
  split
  case isTrue hroom =>
    rw [plus_of_lt (Nat.lt_of_le_of_lt hroom.2 h)]
    rfl
  case isFalse => rfl

namespace Core

def checkedCycle (c : Core) (trace : Trace) : OptionT Dialogue Ran := do
  let pc := c.regs.pc
  let opcode ← sure (Dialogue.readByte pc)
  let instruction ← Instruction.checkedDecode opcode pc
  let regs := { c.regs with pc := pc + 1 }.refresh instruction.shape.fetches
  let traced ← ensure (trace.checkedRecord instruction regs)
  sure (traced.events.forM Dialogue.remark)
  let (core, cycles) ← instruction.checkedExecute { c with regs, eiDelay := false }
  return { instruction, opcode, core, trace := traced.value, cycles }

lemma checkedCycle_eq (c : Core) {trace : Trace} (h : trace.maxEntries < 2 ^ 64) :
    c.checkedCycle trace = sure (c.cycle trace) := by
  have hfetch := always_fetchAt c.regs.pc
  simp only [Instruction.fetchAt, always_bind, always_readByte, always_done] at hfetch
  simp only [checkedCycle, cycle, Dialogue.bind_eq, sure_bind, Instruction.checkedDecode_eq, Trace.checkedRecord_eq h,
    ensure_some_bind]
  refine congrArg (sure (Dialogue.readByte c.regs.pc) >>= ·) (funext fun opcode => ?_)
  refine sure_bind_congr (hfetch opcode) fun i l h => ?_
  obtain ⟨e, n, he, hop, hshape, -⟩ := h
  rw [Instruction.checkedExecute_eq he hop hshape]
  rfl

end Core

def ClockMode.checkedContention (mode : ClockMode) (video ports : Nat) : Option Nat := do
  let video ← times 32 (mode.waitStates .video) (← fit 32 video)
  let ports ← times 32 (mode.waitStates .port) (← fit 32 ports)
  plus 32 video ports

namespace Cpu

variable {B : Type} [Bus B]

def checkedService (c : Cpu B) (kind : Interrupt) : Option (Nat × Cpu B) := do
  let shape ← (c.converse (c.response kind)).1.2.checked
  return (← shape.checkedTime, (c.service kind).2)

def checkedRunInstruction (c : Cpu B) : Option (Nat × Cpu B) := do
  let t := (c.core.checkedCycle c.trace).run.run c.bus c.log {}
  let ran ← t.result
  let waits ← c.clock.mode.checkedContention t.traffic.video t.traffic.ports
  let cycles ← plus 32 ran.cycles waits
  let c := { c with core := ran.core, trace := ran.trace, bus := t.bus, log := t.log }
  let step : Idle.Step := {
    pc := ran.instruction.address, opcode := ran.opcode, cycles, fetches := ran.instruction.shape.fetches }
  return (cycles, c.setIdle (← c.idle.checkedObserve step ran.instruction.idleSafe c.regs))

def checkedSkip (c : Cpu B) (loop : Idle.Loop) : Option (Nat × Cpu B) := do
  return (loop.cycles, (c.setRegs (c.regs.refresh loop.fetches)).setIdle (← c.idle.checkedSkip loop))

def checkedAdvance (c : Cpu B) (budget : Nat) : Option (Nat × Cpu B) :=
  match c.pending.filter c.accepts with
  | some kind => c.checkedService kind
  | none =>
    if c.core.halted then some (haltedCycles, c.setRegs (c.regs.refresh 1))
    else match c.skippable? budget with
      | some loop => c.checkedSkip loop
      | none => c.checkedRunInstruction

/-- A step, if nothing in it goes out of range. The total of all cycles wraps. -/
def checkedStep (c : Cpu B) (budget : Nat) : Option (Nat × Cpu B) :=
  match c.lifecycle with
  | .paused => some (0, c)
  | _ => do
    let c := if c.lifecycle = .uninitialized then { c with lifecycle := .initialized } else c
    let (cycles, c) ← c.checkedAdvance budget
    return (cycles, { c with total := c.total + UInt64.ofNat cycles })

end Cpu

/-! The bounds that every number keeps to -/

namespace Core

variable {B : Type} [Bus B] (c : Core) (bus : B)

lemma untraced_traffic_le : (c.untraced.run bus {} {}).traffic.video ≤ 29 ∧
    (c.untraced.run bus {} {}).traffic.ports ≤ 29 := by
  have h := (c.outcome_runs .standard bus).time_le
  have hvideo := c.untraced.run_traffic_video_le bus {} {}
  have hports := c.untraced.run_traffic_ports bus {} {}
  rw [Tally.countP_not_isPort] at hvideo
  rw [Tally.countP_isPort] at hports
  simp only [Nat.zero_add] at hvideo hports
  omega

lemma outcome_fetches_le (mode : ClockMode) : (c.outcome mode bus).instruction.shape.fetches ≤ 7 := by
  have h : c.untraced.Always (fun s _ => s.1.2.shape.fetches ≤ 7) [] := by
    refine (always_bind _ _ _).mpr ((always_fetchAt c.regs.pc).mono ?_)
    rintro f l ⟨e, n, he, -, hshape, -⟩
    refine (always_bind _ _ _).mpr (always_of_forall (fun s m => ?_) _ _)
    have htime := he.time_le false
    rw [CycleShape.tStates] at htime
    rw [always_done, hshape]
    omega
  exact h.run bus {} {}

lemma upcoming_fits : (c.upcoming bus).shape.Fits := by
  have h : (Instruction.fetchAt c.regs.pc).Always (fun f _ => f.2.shape.Fits) [] := by
    refine (always_fetchAt c.regs.pc).mono ?_
    rintro f l ⟨e, n, he, -, hshape, -⟩
    rw [hshape]
    exact he.fits
  exact h.run bus {} {}

end Core

lemma ClockMode.checkedContention_eq (mode : ClockMode) {video ports : Nat} (hvideo : video ≤ 29)
    (hports : ports ≤ 29) :
    mode.checkedContention video ports = some (mode.contention video ports) := by
  have hwaits : mode.waitStates .video ≤ 2 ∧ mode.waitStates .port ≤ 2 := by
    cases mode <;> decide
  have hv : mode.waitStates .video * video ≤ 2 * 29 := Nat.mul_le_mul hwaits.1 hvideo
  have hp : mode.waitStates .port * ports ≤ 2 * 29 := Nat.mul_le_mul hwaits.2 hports
  simp only [checkedContention, fit_of_lt (show video < 2 ^ 32 by omega), fit_of_lt (show ports < 2 ^ 32 by omega),
    Option.bind_eq_bind, Option.bind_some, times_of_lt (show mode.waitStates .video * video < 2 ^ 32 by omega),
    times_of_lt (show mode.waitStates .port * ports < 2 ^ 32 by omega)]
  exact plus_of_lt (by omega)

namespace Cpu

variable {B : Type} [Bus B] {c : Cpu B} {budget : Nat}

lemma response_fits (c : Cpu B) (kind : Interrupt) : ((c.response kind).run c.bus {} {}).result.2.Fits :=
  CycleShape.fits_of_time (Nat.lt_of_le_of_lt (c.response_time kind).2 (by decide))

lemma checkedService_eq (c : Cpu B) (kind : Interrupt) : c.checkedService kind = some (c.service kind) := by
  have hresponse : (c.converse (c.response kind)).1 = ((c.response kind).run c.bus {} {}).result :=
    (run_fresh _ _ _ _ _ _).1
  have hfits := c.response_fits kind
  rw [← hresponse] at hfits
  have htime : (c.service kind).1 = (c.converse (c.response kind)).1.2.tStates := by
    cases kind <;> rfl
  simp only [checkedService, hfits.checked, Option.bind_eq_bind, Option.bind_some, hfits.checkedTime, Option.pure_def,
    ← htime]

lemma checkedRunInstruction_eq (h : c.idle.Narrow) (ht : c.trace.maxEntries < 2 ^ 64)
    (hloops : c.runInstruction.2.idle.stats.loops < 2 ^ 64) : c.checkedRunInstruction = some c.runInstruction := by
  obtain ⟨hresult, -, htraffic⟩ := c.core.cycle_run c.trace c.bus c.log
  obtain ⟨hvideo, hports⟩ := c.core.untraced_traffic_le c.bus
  have htime := c.core.outcome_time_le c.clock.mode c.bus
  have hfetches := c.core.outcome_fetches_le c.bus c.clock.mode
  simp only [Core.outcome, ← hresult, ← htraffic] at htime hfetches hvideo hports
  simp only [checkedRunInstruction, runInstruction, Core.checkedCycle_eq c.core ht, run_sure] at hloops ⊢
  generalize (c.core.cycle c.trace).run c.bus c.log {} = t at *
  have hsum : plus 32 t.result.cycles (c.clock.mode.contention t.traffic.video t.traffic.ports) = some _ :=
    plus_of_lt (Nat.lt_of_le_of_lt htime (by decide))
  simp only [c.clock.mode.checkedContention_eq hvideo hports, hsum, Option.bind_eq_bind, Option.bind_some,
    Option.pure_def]
  rw [Detector.checkedObserve_eq h htime hfetches _ _ hloops, Option.bind_some]

omit [Bus B] in
lemma checkedSkip_eq (h : c.idle.Narrow) {loop : Loop} (ha : c.idle.active = some loop)
    (hiterations : (c.skip loop).2.idle.stats.iterations < 2 ^ 64)
    (hcycles : (c.skip loop).2.idle.stats.cycles < 2 ^ 64) : c.checkedSkip loop = some (c.skip loop) := by
  rw [checkedSkip, Detector.checkedSkip_eq h ha hiterations hcycles]
  rfl

lemma checkedAdvance_eq (h : c.idle.Narrow) (ht : c.trace.maxEntries < 2 ^ 64)
    (hs : (c.advance budget).2.idle.stats.Fits) : c.checkedAdvance budget = some (c.advance budget) := by
  unfold advance at hs
  unfold checkedAdvance advance
  cases hp : c.pending.filter c.accepts with
  | some kind => exact checkedService_eq c kind
  | none =>
    cases hh : c.core.halted with
    | true => rfl
    | false =>
      cases hskip : c.skippable? budget with
      | some loop =>
        simp only [hp, hh, hskip] at hs
        exact checkedSkip_eq h (Option.filter_eq_some_iff.mp hskip).1 hs.iterations hs.cycles
      | none =>
        simp only [hp, hh, hskip] at hs
        exact checkedRunInstruction_eq h ht hs.loops

lemma checkedStep_eq (h : c.idle.Narrow) (ht : c.trace.maxEntries < 2 ^ 64)
    (hs : (c.step budget).2.idle.stats.Fits) : c.checkedStep budget = some (c.step budget) := by
  by_cases hl : c.lifecycle = .paused
  · simp only [checkedStep, step, hl]
  have hchecked : c.checkedStep budget = ({ c with lifecycle := c.lifecycle.awake }.checkedAdvance budget).bind
      fun s => some (s.1, { s.2 with total := s.2.total + UInt64.ofNat s.1 }) := by
    obtain ⟨_, _, lifecycle, _, _, _, _, _, _, _, _⟩ := c
    cases lifecycle with
    | paused => exact absurd rfl hl
    | uninitialized => rfl
    | initialized => rfl
    | running => rfl
  rw [step_eq hl] at hs ⊢
  have hadvance := checkedAdvance_eq (c := { c with lifecycle := c.lifecycle.awake }) h ht hs
  rw [hchecked, hadvance, Option.bind_some]

lemma Stepped.light {t : Nat} {k : StepKind} {m : Machine B} {i : Detector} (h : c.Stepped budget k t m i)
    (hi : Detector.Light c.idle.history) : Detector.Light i.history := by
  cases h with
  | paused => exact hi
  | response => exact nofun
  | halted => exact hi
  | skipped =>
    unfold Detector.skip
    dsimp only
    split
    · exact hi
    · exact nofun
  | instruction => exact hi.observe (c.core.outcome_time_le _ _) (c.core.outcome_fetches_le _ _) _ _

end Cpu

lemma HostOp.light_apply {B : Type} {c : Cpu B} (h : Detector.Light c.idle.history) (op : HostOp B) :
    Detector.Light (op.apply c).idle.history := by
  rcases op.kept_or_empty c with hkept | hempty
  · rwa [hkept.history]
  · rw [hempty.1]
    exact nofun

namespace Reachable

variable {B : Type} [Bus B] {writes : Prop} {c : Cpu B} (h : Reachable writes c)
include h

lemma light : Detector.Light c.idle.history := by
  induction h with
  | new => exact nofun
  | withConfig h =>
    rw [(Cpu.withConfig_empty h).1]
    exact nofun
  | log _ _ ih => exact ih
  | host op _ ih => exact HostOp.light_apply ih op
  | setInterruptEnabled _ _ ih => exact ih
  | setRegs _ _ _ ih => exact ih
  | @step c budget _ ih => exact (c.stepped budget).light ih

lemma narrow : c.idle.Narrow := by
  obtain ⟨ds, htracked⟩ := h.tracked
  exact ⟨htracked.config.threshold.2, h.light, fun loop ha => (htracked.active loop ha).2.1⟩

end Reachable

inductive Cpu.Shapes {B : Type} [Bus B] (c : Cpu B) : CycleShape → Prop where
  | instruction : Shapes c (c.core.upcoming c.bus).shape
  | response (kind : Interrupt) : Shapes c ((c.response kind).run c.bus {} {}).result.2

lemma Cpu.Shapes.fits {B : Type} [Bus B] {c : Cpu B} {s : CycleShape} (h : c.Shapes s) : s.Fits := by
  cases h with
  | instruction => exact c.core.upcoming_fits c.bus
  | response kind => exact c.response_fits kind

/-- No step of a processor that a host can bring about, with single steps or with runs (`Reachable.runChunked`), goes out
of range, whatever is in its memory, its ports and its registers: with every number in its width the step is the same.
In whatever order the shape of the step is put together, no counter of it goes out of range on the way. -/
theorem Cpu.step_in_range {B : Type} [Bus B] {c : Cpu B} (h : Reachable True c) (ht : c.trace.maxEntries < 2 ^ 64)
    {budget : Nat} (hs : (c.step budget).2.idle.stats.Fits) :
    c.checkedStep budget = some (c.step budget) ∧
      ∀ s, c.Shapes s → ∀ parts : List CycleShape.Part, parts.foldl CycleShape.add .empty = s →
        parts.foldlM (fun s x => (s.add x).checked) .empty = some s := by
  refine ⟨checkedStep_eq h.narrow ht hs, fun s hshape parts hparts => ?_⟩
  rw [CycleShape.checked_build _ (by decide), hparts, hshape.fits.checked]

def Cpu.circling : Cpu Board :=
  let c : Cpu Board := { bus := Board.mapMemory (fun m => (m.poke 1 0x18).poke 2 0xFD) {} }
  (((c.step unbounded).2.step unbounded).2.step unbounded).2

theorem Cpu.step_in_range_circling :
    (Reachable True circling ∧ circling.trace.maxEntries < 2 ^ 64 ∧ (circling.step unbounded).2.idle.stats.Fits) ∧
      circling.checkedStep unbounded = some (circling.step unbounded) ∧
      (circling.step unbounded).2.idle.active = some ⟨0, 2, 16, 2⟩ := by
  have hreach : Reachable True circling := (((Reachable.new _).step unbounded).step unbounded).step unbounded
  have htrace : circling.trace.maxEntries < 2 ^ 64 := by decide +kernel
  have hstats : (circling.step unbounded).2.idle.stats.Fits :=
    ⟨by decide +kernel, by decide +kernel, by decide +kernel⟩
  exact ⟨⟨hreach, htrace, hstats⟩, (step_in_range hreach htrace hstats).1, by decide +kernel⟩

end Z80Machine
