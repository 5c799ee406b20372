import Z80Machine.Proofs.Fetching
import Z80Machine.Proofs.Prefixes

/-! Instructions behind an index prefix. What stands behind the prefix runs as it would on its own, one byte further
on, in registers where HL and the index register have changed places, and they change places again when it is done. -/

namespace Z80Machine

namespace Encoding

variable (mode : IndexMode) {opcode : UInt8}

lemma fetch_bind {α β : Type} (e : Encoding α) (f : α → β) (addr : UInt16) (lead : UInt8) (seen : List UInt8) :
    (e.bind fun a => complete (f a)).fetch addr (lead :: seen) =
      (e.fetch addr seen).bind fun s => .done (f s.1, lead :: s.2) := by
  induction e generalizing addr seen with
  | complete a => rfl
  | more next ih =>
    simp only [bind, fetch, Dialogue.bind]
    exact congrArg _ (funext fun b => ih b (addr + 1) (seen ++ [b]))

lemma ofOpcode_selector {selector : UInt8} (h : mode.selector? = some selector) : ofOpcode selector = indexed mode := by
  cases mode with
  | hl => cases h
  | ix =>
    cases h
    rfl
  | iy =>
    cases h
    rfl

lemma ofOpcode_main (h : opcode ∉ [0xCB, 0xDD, 0xED, 0xFD]) : ofOpcode opcode = mainTable opcode .hl CycleShape.m1 := by
  simp only [List.mem_cons, List.not_mem_nil, or_false, not_or] at h
  obtain ⟨hcb, hdd, hed, hfd⟩ := h
  unfold ofOpcode
  split
  all_goals first
    | contradiction
    | rfl

lemma fetch_indexed (h : opcode ∉ [0xCB, 0xDD, 0xED, 0xFD]) (addr : UInt16) (selector : UInt8) {B : Type} [Bus B]
    {bus : B} (hread : (Bus.read bus addr).1 = opcode) (log : Log) (traffic : Traffic) :
    ((indexed mode).fetch addr [selector]).run bus log traffic =
      ((mainTable opcode mode CycleShape.m1.addFetch).fetch (addr + 1) [selector, opcode]).run (Bus.read bus addr).2 log
        (traffic.atAddress bus addr) := by
  -- The table has a default entry, so its first four are excluded before it is read.
  simp only [List.mem_cons, List.not_mem_nil, or_false, not_or] at h
  obtain ⟨hcb, hdd, hed, hfd⟩ := h
  simp only [indexed, byte, bind_eq, bind, fetch, Dialogue.run, hread, List.cons_append, List.nil_append]

end Encoding

namespace Core

variable {B : Type} [Bus B]

def passing (m : IndexMode) (c : Core) : Core :=
  { c with regs := { c.regs.swapped m with pc := c.regs.pc + 1 } }

variable {c : Core} {bus : B} {mode m : IndexMode} {selector : UInt8}

lemma fetched_ofOpcode (c : Core) {opcode : UInt8} (hread : (Bus.read bus c.regs.pc).1 = opcode) (traffic : Traffic) :
    let t := ((Encoding.ofOpcode opcode).fetch (c.regs.pc + 1) [opcode]).run (Bus.read bus c.regs.pc).2 {} traffic
    c.upcoming bus = t.result.1.toInstruction c.regs.pc t.result.2 ∧ (c.fetched bus).bus = t.bus := by
  obtain ⟨hresult, hbus⟩ := ((Encoding.ofOpcode opcode).fetch (c.regs.pc + 1) [opcode]).run_fresh
    (Bus.read bus c.regs.pc).2 {} {} (Traffic.atAddress {} bus c.regs.pc) traffic
  simp only [upcoming, fetched, Instruction.fetchAt, Instruction.decode, Dialogue.readByte, Dialogue.bind_eq,
    Dialogue.pure_eq, Dialogue.bind, Dialogue.run, Dialogue.run_bind, hread, hresult, hbus, and_self]

lemma fetched_prefixed (hread : (Bus.read bus c.regs.pc).1 = selector) (hmode : mode.selector? = some selector)
    (h : Encoding.Prefixed mode m (Bus.read (Bus.read bus c.regs.pc).2 (c.regs.pc + 1)).1) :
    ∃ (e : Encoded) (bytes : List UInt8), e.op.Renames m ∧ e.ahead = 0 ∧
      c.upcoming bus = (e.prefixed m).toInstruction c.regs.pc (selector :: bytes) ∧
      (c.passing m).upcoming (Bus.read bus c.regs.pc).2 = e.toInstruction (c.regs.pc + 1) bytes ∧
      (c.fetched bus).bus = ((c.passing m).fetched (Bus.read bus c.regs.pc).2).bus := by
  generalize hopcode : (Bus.read (Bus.read bus c.regs.pc).2 (c.regs.pc + 1)).1 = opcode at h
  let traffic := Traffic.atAddress {} (Bus.read bus c.regs.pc).2 (c.regs.pc + 1)
  obtain ⟨hfirst, hfirst'⟩ := c.fetched_ofOpcode hread {}
  obtain ⟨hsecond, hsecond'⟩ := (c.passing m).fetched_ofOpcode hopcode traffic
  rw [Encoding.ofOpcode_selector mode hmode, Encoding.fetch_indexed mode h.main _ selector hopcode, h.table,
    Encoding.fetch_bind, Dialogue.run_bind] at hfirst hfirst'
  rw [Encoding.ofOpcode_main h.main] at hsecond hsecond'
  have hrenames := (Encoding.always_fetch _ (c.regs.pc + 1 + 1) [opcode] [] h.renames).run
    (Bus.read (Bus.read bus c.regs.pc).2 (c.regs.pc + 1)).2 {} traffic
  have hmain : (Encoding.mainTable opcode .hl CycleShape.m1).Every (fun _ e => e.Plain) 1 :=
    Encoding.mainTable_plain rfl 1 opcode
  have hplain := (Encoding.always_fetch _ (c.regs.pc + 1 + 1) [opcode] [] hmain).run
    (Bus.read (Bus.read bus c.regs.pc).2 (c.regs.pc + 1)).2 {} traffic
  exact ⟨_, _, hrenames.1, hplain.1.2, hfirst, hsecond, hfirst'.trans hsecond'.symm⟩

lemma behind_prefixed (c : Core) (m : IndexMode) (selector : UInt8) {e : Encoded} (bytes : List UInt8)
    (hahead : e.ahead = 0) :
    c.behind ((e.prefixed m).toInstruction c.regs.pc (selector :: bytes)) =
      ((c.passing m).behind (e.toInstruction (c.regs.pc + 1) bytes)).prefixed m := by
  have hr : Registers.refreshed c.regs.r (e.shape.fetches + 1) =
      Registers.refreshed (Registers.refreshed c.regs.r e.shape.fetches) 1 :=
    (Registers.refreshed_refreshed _ _ _).symm
  have hpc : c.regs.pc + UInt16.ofNat (bytes.length + 1 - e.ahead) =
      c.regs.pc + 1 + UInt16.ofNat (bytes.length - e.ahead) := by
    have hone : UInt16.ofNat (bytes.length + 1) = UInt16.ofNat bytes.length + 1 := UInt16.ofNat_add _ 1
    rw [hahead, Nat.sub_zero, Nat.sub_zero, hone]
    grind
  have hback : ((c.regs.swapped m).swapped m) = c.regs := c.regs.swapped_swapped m
  calc c.behind ((e.prefixed m).toInstruction c.regs.pc (selector :: bytes))
      = { c.regs with
          pc := c.regs.pc + UInt16.ofNat (bytes.length + 1 - e.ahead)
          r := Registers.refreshed c.regs.r (e.shape.fetches + 1) } := rfl
    _ = { (c.regs.swapped m).swapped m with
          pc := c.regs.pc + 1 + UInt16.ofNat (bytes.length - e.ahead)
          r := Registers.refreshed (Registers.refreshed c.regs.r e.shape.fetches) 1 } := by rw [hr, hpc, hback]
    _ = ((c.passing m).behind (e.toInstruction (c.regs.pc + 1) bytes)).prefixed m := rfl

theorem outcome_prefixed (hread : (Bus.read bus c.regs.pc).1 = selector) (hmode : mode.selector? = some selector)
    (h : Encoding.Prefixed mode m (Bus.read (Bus.read bus c.regs.pc).2 (c.regs.pc + 1)).1) (clock : ClockMode) :
    let o := (c.passing m).outcome clock (Bus.read bus c.regs.pc).2
    (c.outcome clock bus).core = { o.core with regs := o.core.regs.prefixed m } ∧
      (c.outcome clock bus).bus = o.bus ∧
      (clock = .standard → (c.outcome clock bus).cycles = o.cycles + 4) := by
  intro o
  obtain ⟨e, bytes, hrenames, hahead, hupcoming, hupcoming', hbus⟩ := fetched_prefixed hread hmode h
  have hoperated : (c.operated bus).result =
      (((c.passing m).operated (Bus.read bus c.regs.pc).2).result.1.prefixed m,
        ((c.passing m).operated (Bus.read bus c.regs.pc).2).result.2) ∧
      (c.operated bus).bus = ((c.passing m).operated (Bus.read bus c.regs.pc).2).bus := by
    rw [operated, operated, hupcoming, hupcoming', behind_prefixed c m selector bytes hahead, hbus]
    have hop := hrenames ((c.passing m).behind (e.toInstruction (c.regs.pc + 1) bytes)) c.regs.pc (c.regs.pc + 1)
    change (((e.op.renamed m).onRegisters c.regs.pc _).run _ _ _).result = _ ∧
      (((e.op.renamed m).onRegisters c.regs.pc _).run _ _ _).bus = _
    rw [hop, Dialogue.run_bind]
    obtain ⟨hresult, hafter⟩ := (e.op.onRegisters (c.regs.pc + 1)
      ((c.passing m).behind (e.toInstruction (c.regs.pc + 1) bytes))).run_fresh
        ((c.passing m).fetched (Bus.read bus c.regs.pc).2).bus (c.fetched bus).log
        ((c.passing m).fetched (Bus.read bus c.regs.pc).2).log (c.fetched bus).traffic
        ((c.passing m).fetched (Bus.read bus c.regs.pc).2).traffic
    exact ⟨congrArg (fun s : Registers × Nat => (s.1.prefixed m, s.2)) hresult, hafter⟩
  obtain ⟨hresult, hafter⟩ := hoperated
  refine ⟨?_, (c.untraced_bus bus).trans (hafter.trans ((c.passing m).untraced_bus _).symm), fun hclock => ?_⟩
  · simp only [o, outcome_core, hresult, hupcoming, hupcoming']
    congr 1
    · exact congrArg (c.halted || ·) (Op.renamed_halt m e.op)
    · exact Op.renamed_ei m e.op
  · have htime : (e.prefixed m).shape.tStates = e.shape.tStates + 4 := by
      unfold Encoded.prefixed CycleShape.addFetch CycleShape.tStates
      dsimp only
      omega
    subst hclock
    simp only [o, outcome, ClockMode.contention_standard, untraced_result, hresult, hupcoming, hupcoming']
    change (e.prefixed m).shape.tStates + _ + 0 = e.shape.tStates + _ + 0 + 4
    rw [htime]
    omega

end Core

namespace Cpu

variable {B : Type} [Bus B]

def passing (m : IndexMode) (c : Cpu B) : Cpu B :=
  { c with core := c.core.passing m, bus := (Bus.read c.bus c.regs.pc).2 }

/-- The instruction with its prefix does what it would do on its own, with `m` for HL, one fetch and four T-states
apart. -/
structure Substitutes (c : Cpu B) (m : IndexMode) : Prop where
  machine : c.runInstruction.2.machine =
    let d := (c.passing m).runInstruction.2
    { d.machine with core := { d.core with regs := d.regs.prefixed m } }
  time : c.clock.mode = .standard → c.runInstruction.1 = (c.passing m).runInstruction.1 + 4

lemma substitutes {c : Cpu B} {mode m : IndexMode} (hmode : mode.selector? = some (Bus.read c.bus c.regs.pc).1)
    (h : Encoding.Prefixed mode m (Bus.read (Bus.read c.bus c.regs.pc).2 (c.regs.pc + 1)).1) : c.Substitutes m := by
  obtain ⟨hcore, hbus, hcycles⟩ := Core.outcome_prefixed rfl hmode h c.clock.mode
  obtain ⟨trace, log, hc⟩ := c.runInstruction_eq
  obtain ⟨trace', log', hd⟩ := (c.passing m).runInstruction_eq
  refine ⟨?_, fun hclock => ?_⟩
  · rw [hc, hd]
    exact congr (congrArg (fun core bus => { c.machine with core, bus }) hcore) hbus
  · rw [hc, hd]
    exact hcycles hclock

/-- Behind an index prefix the index register stands in the place of HL, unless the opcode takes a byte behind HL. What
does not name HL runs as it would have without the prefix, and so do `EX DE,HL` and `EXX`. -/
theorem prefix_substitutes (c : Cpu B) (mode : IndexMode)
    (hmode : mode.selector? = some (Bus.read c.bus c.regs.pc).1) :
    let opcode := (Bus.read (Bus.read c.bus c.regs.pc).2 (c.regs.pc + 1)).1
    Encoding.memoryHl opcode = false →
      (opcode ∉ [0xEB, 0xD9, 0xCB, 0xDD, 0xED, 0xFD] → c.Substitutes mode) ∧
      (Encoding.namesHl opcode = false ∨ opcode = 0xEB ∨ opcode = 0xD9 → opcode ∉ [0xCB, 0xDD, 0xED, 0xFD] →
        c.Substitutes .hl) :=
  fun hm => ⟨fun hf => substitutes hmode (Encoding.prefixed_renamed mode hm hf),
    fun hn hf => substitutes hmode (Encoding.prefixed_real mode hm hn hf)⟩

/-- `EX (SP),IX`, and `EX DE,HL` with a prefix that it ignores. -/
theorem prefix_substitutes_exchanges :
    let memory (opcode : UInt8) : FlatBus := { ram := Ram.empty.setAll 0 [0xDD, opcode] }
    let regs : Registers := { d := 1, e := 2, h := 3, l := 4, ix := 0x0506, sp := 8 }
    let c : Cpu FlatBus := { bus := memory 0xE3, core := { regs } }
    let d : Cpu FlatBus := { bus := memory 0xEB, core := { regs } }
    IndexMode.ix.selector? = some (Bus.read c.bus 0).1 ∧ IndexMode.ix.selector? = some (Bus.read d.bus 0).1 ∧
      c.Substitutes .ix ∧ d.Substitutes .hl := by
  intro memory regs c d
  have hc : IndexMode.ix.selector? = some (Bus.read c.bus 0).1 := by decide +kernel
  have hd : IndexMode.ix.selector? = some (Bus.read d.bus 0).1 := by decide +kernel
  refine ⟨hc, hd, (prefix_substitutes c .ix hc ?_).1 ?_, (prefix_substitutes d .ix hd ?_).2 (.inr (.inl ?_)) ?_⟩
  all_goals decide +kernel

end Cpu

end Z80Machine
