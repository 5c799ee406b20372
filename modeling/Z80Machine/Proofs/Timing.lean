import Z80Machine.Bus.Flat
import Z80Machine.Proofs.Fetching
import Z80Machine.Proofs.Machine

/-! The declared shape of an instruction against what one step does on the bus and how long it takes, count for count.
A shape is that of the untaken path, so a branch taken and a round repeated come on top of it. -/

namespace Z80Machine

def Encoded.Plain (e : Encoded) : Prop :=
  e.shape.acknowledge = false ∧ e.ahead = 0

namespace Encoding

/-- An index prefix before another prefix is an instruction of its own. -/
def DeadPrefix (first second : UInt8) : Prop :=
  (first = 0xDD ∨ first = 0xFD) ∧ (second = 0xDD ∨ second = 0xFD ∨ second = 0xED)

instance (first second : UInt8) : Decidable (DeadPrefix first second) :=
  inferInstanceAs (Decidable (_ ∧ _))

section

variable {mode : IndexMode} {start : CycleShape} (hs : start.acknowledge = false) (y z : UInt8) (n : Nat)

include hs

lemma quarter0_plain : (quarter0 y z mode start).Every (fun _ e => e.Plain) n := by
  unfold quarter0
  dsimp only
  repeat' split
  all_goals simp only [bind_eq, pure_eq, every_bind, every_byte, every_word, every_memory, every_complete]
  all_goals repeat' split
  all_goals simp [Encoded.Plain, hs]

lemma quarter1_plain : (quarter1 y z mode start).Every (fun _ e => e.Plain) n := by
  unfold quarter1
  repeat' split
  all_goals simp only [bind_eq, pure_eq, every_bind, every_memory, every_complete]
  all_goals repeat' split
  all_goals simp [Encoded.Plain, hs]

lemma quarter2_plain : (quarter2 y z mode start).Every (fun _ e => e.Plain) n := by
  unfold quarter2
  split
  all_goals simp only [bind_eq, pure_eq, every_bind, every_memory, every_complete]
  all_goals repeat' split
  all_goals simp [Encoded.Plain, hs]

lemma quarter3_plain (opcode : UInt8) : (quarter3 opcode y z mode start).Every (fun _ e => e.Plain) n := by
  unfold quarter3
  dsimp only
  repeat' split
  all_goals simp [Encoded.Plain, hs]

lemma mainTable_plain (opcode : UInt8) : (mainTable opcode mode start).Every (fun _ e => e.Plain) n := by
  unfold mainTable
  dsimp only
  split
  · exact quarter0_plain hs _ _ n
  · exact quarter1_plain hs _ _ n
  · exact quarter2_plain hs _ _ n
  · exact quarter3_plain hs _ _ n _

end

lemma bits_plain (opcode : UInt8) : (bits opcode).Plain := by
  unfold bits bitFamily
  dsimp only
  repeat' split
  all_goals exact ⟨rfl, rfl⟩

lemma indexedBits_plain (mode : IndexMode) (n : Nat) : (indexedBits mode).Every (fun _ e => e.Plain) n := by
  intro offset opcode
  change (bitFamily _ _ _ _ _).Plain
  unfold bitFamily
  dsimp only
  split <;> exact ⟨rfl, rfl⟩

lemma extended_plain (opcode : UInt8) (n : Nat) : (extended opcode).Every (fun _ e => e.Plain) n := by
  unfold extended
  dsimp only
  repeat' split
  all_goals simp [Encoded.Plain]

lemma indexed_plain {mode : IndexMode} {bytes : List UInt8} {e : Encoded}
    (hr : (indexed mode).read? bytes = some (e, [])) :
    e.Plain ∨ ∃ second, bytes = [second] ∧ (second = 0xDD ∨ second = 0xFD ∨ second = 0xED) := by
  cases bytes with
  | nil => simp [indexed, byte, bind, read?] at hr
  | cons b bs =>
    simp only [indexed, byte, bind_eq, bind, read?] at hr
    split at hr
    case h_4 => exact .inl ((indexedBits_plain mode 0).of_read hr)
    case h_5 => exact .inl ((mainTable_plain rfl 0 b).of_read hr)
    all_goals
      have hbs : bs = [] := (Prod.ext_iff.mp (Option.some.inj hr)).2
      subst hbs
      exact .inr ⟨_, rfl, by decide⟩

lemma plain_of_read {first : UInt8} {bytes : List UInt8} {e : Encoded}
    (hr : (ofOpcode first).read? bytes = some (e, [])) :
    e.Plain ∨ ∃ second, bytes = [second] ∧ DeadPrefix first second := by
  unfold ofOpcode at hr
  split at hr
  case h_1 =>
    have hbits : (byte.bind fun b => complete (bits b)).Every (fun _ e => e.Plain) 0 := fun b => bits_plain b
    exact .inl (hbits.of_read hr)
  case h_2 =>
    have hextended : (byte.bind extended).Every (fun _ e => e.Plain) 0 := fun b => extended_plain b 1
    exact .inl (hextended.of_read hr)
  case h_3 =>
    refine (indexed_plain hr).imp_right ?_
    rintro ⟨second, hbytes, hsecond⟩
    exact ⟨second, hbytes, .inl rfl, hsecond⟩
  case h_4 =>
    refine (indexed_plain hr).imp_right ?_
    rintro ⟨second, hbytes, hsecond⟩
    exact ⟨second, hbytes, .inr rfl, hsecond⟩
  case h_5 => exact .inl ((mainTable_plain rfl 0 first).of_read hr)

end Encoding

def BlockOp.unfinished (before after : Registers) : BlockOp → Bool
  | load => before.bc != 1
  | compare => before.bc != 1 && !after.flags.z
  | input => before.b != 1
  | output => before.b != 1

namespace Op

def loops (before after : Registers) : Op → Bool
  | jr (some cc) _ => cc.holds before.flags
  | djnz _ => before.b != 1
  | block op _ true => op.unfinished before after
  | _ => false

def callTaken (before : Registers) : Op → Bool
  | call (some cc) _ => cc.holds before.flags
  | _ => false

def returnTaken (before : Registers) : Op → Bool
  | ret (some cc) => cc.holds before.flags
  | _ => false

def extra (before after : Registers) (op : Op) : Nat :=
  if op.loops before after then 5
  else if op.callTaken before then 7
  else if op.returnTaken before then 6
  else 0

lemma extra_eq (op : Op) (before after : Registers) : op.extra before after =
    (if op.loops before after then 5 else if op.callTaken before then 1 else 0) +
      3 * (if op.callTaken before then 2 else 0) + 3 * (if op.returnTaken before then 2 else 0) := by
  unfold extra
  cases op
  case call cond addr => cases h : (call cond addr).callTaken before <;> simp [loops, returnTaken]
  case ret cond => cases h : (ret cond).returnTaken before <;> simp [loops, callTaken]
  all_goals simp [callTaken, returnTaken]

lemma tally_taken (op : Op) (r : Registers) : op.tally (op.taken r) = op.tally false +
    { reads := if op.returnTaken r then 2 else 0, writes := if op.callTaken r then 2 else 0 } := by
  cases op
  case call cond addr =>
    cases cond with
    | none => rfl
    | some cc => cases h : cc.holds r.flags <;> simp [tally, taken, callTaken, returnTaken, Registers.meets, h]
  case ret cond =>
    cases cond with
    | none => rfl
    | some cc => cases h : cc.holds r.flags <;> simp [tally, taken, callTaken, returnTaken, Registers.meets, h]
  case block op dir repeating => cases op <;> rfl
  all_goals rfl

lemma always_round_unfinished (op : BlockOp) (dir : Direction) (r : Registers) (seen : List Access) :
    (Block.round op dir r).Always (fun s _ => s.2 = op.unfinished r s.1) seen := by
  have hword : (r.bc - 1 != 0) = (r.bc != 1) := by grind
  have hbyte : (r.b - 1 != 0) = (r.b != 1) := by grind
  have hfound (b : UInt8) : (r.a - b != 0) = !(r.a - b == 0) := rfl
  cases op with
  | load => simp [Block.round, Block.load, BlockOp.unfinished, hword]
  | compare => simp [Block.round, Block.compare, BlockOp.unfinished, hword, hfound]
  | input => simp [Block.round, Block.input, BlockOp.unfinished, hbyte]
  | output => simp [Block.round, Block.output, BlockOp.unfinished, hbyte]

lemma unfinished_pc (op : BlockOp) (before after : Registers) (pc : UInt16) :
    op.unfinished before { after with pc } = op.unfinished before after := by
  cases op <;> rfl

theorem always_extra (op : Op) (address : UInt16) (r : Registers) (seen : List Access) :
    (op.onRegisters address r).Always (fun s _ => s.2 = op.extra r s.1) seen := by
  cases op
  case jr cond offset =>
    cases cond with
    | none => rfl
    | some cc =>
      cases h : cc.holds r.flags <;>
        simp [onRegisters, extra, loops, callTaken, returnTaken, Registers.meets, Registers.takenTime, h]
  case djnz offset =>
    have hb : (r.b - 1 == 0) = !(r.b != 1) := by grind
    cases h : r.b != 1 <;> simp [onRegisters, extra, loops, callTaken, returnTaken, hb, h]
  case call cond addr =>
    cases cond with
    | none => exact (always_onRegisters _ _ _ _).mono fun s l h => Nat.le_zero.mp h.2
    | some cc =>
      cases h : cc.holds r.flags with
      | false => simp [onRegisters, extra, loops, callTaken, returnTaken, Registers.meets, h]
      | true =>
        simp only [onRegisters, Registers.meets, h, if_true]
        refine (Dialogue.always_bind _ _ _).mpr (always_push _ _ _ fun s l hl => ?_)
        simp [extra, loops, callTaken, h, Registers.takenTime]
  case ret cond =>
    cases cond with
    | none => exact (always_onRegisters _ _ _ _).mono fun s l h => Nat.le_zero.mp h.2
    | some cc =>
      cases h : cc.holds r.flags with
      | false => simp [onRegisters, extra, loops, callTaken, returnTaken, Registers.meets, h]
      | true =>
        simp only [onRegisters, Registers.meets, h, if_true]
        refine (Dialogue.always_bind _ _ _).mpr (always_pop _ _ fun s l hl => ?_)
        simp [extra, loops, callTaken, returnTaken, h, Registers.takenTime]
  case block op dir repeating =>
    refine (Dialogue.always_bind _ _ _).mpr ((always_round_unfinished op dir r seen).mono fun s l hs => ?_)
    cases repeating with
    | false => simp [extra, loops, callTaken, returnTaken]
    | true =>
      cases h : s.2 <;> simp [extra, loops, callTaken, returnTaken, unfinished_pc, ← hs, h]
  all_goals
    exact (always_onRegisters _ _ _ _).mono fun s l h => Nat.le_zero.mp h.2

end Op

/-- What an instruction did on the bus and the time it took are what its shape declares, but for what a branch taken or
a round repeated adds. -/
structure Instruction.AsDeclared (i : Instruction) (before after : Registers) (made : Tally) (time : Nat) : Prop where
  inputs : made.inputs = i.shape.inputs
  outputs : made.outputs = i.shape.outputs
  reads : made.reads = i.shape.fetches + i.shape.reads + if i.op.returnTaken before then 2 else 0
  writes : made.writes = i.shape.writes + if i.op.callTaken before then 2 else 0
  time : time = 4 * i.shape.fetches + 3 * (made.reads - i.shape.fetches) + 3 * made.writes + 4 * made.ports +
    i.shape.internal + if i.op.loops before after then 5 else if i.op.callTaken before then 1 else 0

lemma Encoded.Faithful.asDeclared {e : Encoded} {n : Nat} (he : e.Faithful n) (hplain : e.Plain) {i : Instruction}
    (hop : i.op = e.op) (hshape : i.shape = e.shape) {before after : Registers} {made : Tally}
    (hmade : made = { reads := n } + i.op.tally (i.op.taken before)) :
    i.AsDeclared before after made (i.tStates + i.op.extra before after) := by
  obtain ⟨hack, hahead⟩ := hplain
  obtain ⟨hreads, hwrites, hinputs, houtputs, -, -⟩ := he
  rw [Op.tally_taken] at hmade
  rw [← hop, ← hshape] at hreads hwrites hinputs houtputs
  rw [← hshape] at hack
  have hextra := i.op.extra_eq before after
  have htime : i.tStates = 4 * i.shape.fetches + 3 * (i.shape.reads + i.shape.writes) +
      4 * (i.shape.inputs + i.shape.outputs) + i.shape.internal := by
    simp [Instruction.tStates, hack]
  generalize i.op.tally false = t at hreads hwrites hinputs houtputs hmade
  obtain ⟨r, w, p, q⟩ := t
  dsimp only at hreads hwrites hinputs houtputs
  subst hmade
  constructor
  · simp only [Tally.mk_add_mk]
    omega
  · simp only [Tally.mk_add_mk]
    omega
  · simp only [Tally.mk_add_mk]
    omega
  · simp only [Tally.mk_add_mk]
    omega
  · simp only [Tally.mk_add_mk, Tally.ports]
    omega

namespace Core

variable {B : Type} [Bus B]

lemma taken_behind (c : Core) (i : Instruction) (op : Op) : op.taken (c.behind i) = op.taken c.regs := by
  cases op <;> rfl

lemma extra_behind (c : Core) (i : Instruction) (after : Registers) (op : Op) :
    op.extra (c.behind i) after = op.extra c.regs after := by
  cases op
  case jr cond offset => cases cond <;> rfl
  case call cond offset => cases cond <;> rfl
  case ret cond => cases cond <;> rfl
  case block op dir repeating => cases repeating <;> cases op <;> rfl
  all_goals rfl

lemma tally_untraced (c : Core) (bus : B) : ∃ e bytes,
    Instruction.Fetched c.regs.pc (c.fetched bus).result.1 (c.upcoming bus) e bytes
      ((Instruction.fetchAt c.regs.pc).accesses bus) ∧
    Tally.of (c.untraced.accesses bus) =
      { reads := bytes.length + 1 } + (c.upcoming bus).op.tally ((c.upcoming bus).op.taken c.regs) := by
  obtain ⟨e, bytes, hf⟩ := (Instruction.always_fetched c.regs.pc).run bus {} {}
  have hfetch : Tally.of ((Instruction.fetchAt c.regs.pc).accesses bus) = { reads := bytes.length + 1 } := by
    rw [show (Instruction.fetchAt c.regs.pc).accesses bus = _ from hf.made, Access.tally_readsFrom, List.length_cons]
  have hmade : Tally.of (((c.upcoming bus).op.onRegisters (c.upcoming bus).address
      (c.behind (c.upcoming bus))).accesses (c.fetched bus).bus) =
      (c.upcoming bus).op.tally ((c.upcoming bus).op.taken c.regs) := by
    have h := ((c.upcoming bus).op.always_onRegisters (c.upcoming bus).address (c.behind (c.upcoming bus)) []).run
      (c.fetched bus).bus (c.fetched bus).log (c.fetched bus).traffic
    simpa [Tally.of, taken_behind] using h.1
  refine ⟨e, bytes, hf, ?_⟩
  rw [c.untraced_accesses, Tally.of_append, hfetch, hmade]

theorem asDeclared (c : Core) (bus : B)
    (hp : ¬ Encoding.DeadPrefix (Bus.read bus c.regs.pc).1 (Bus.read (Bus.read bus c.regs.pc).2 (c.regs.pc + 1)).1) :
    (c.upcoming bus).AsDeclared c.regs (c.untraced.run bus {} {}).result.2.1.regs
      (Tally.of (c.untraced.accesses bus)) (c.untraced.run bus {} {}).result.2.2 := by
  obtain ⟨e, bytes, hf, hmade⟩ := c.tally_untraced bus
  have hplain : e.Plain := by
    rcases Encoding.plain_of_read hf.read with h | ⟨second, rfl, hdead⟩
    · exact h
    · obtain ⟨hfirst, d, hd⟩ := Dialogue.read_of_accesses hf.made
      obtain ⟨hsecond, -⟩ := Dialogue.read_of_accesses hd
      rw [hfirst, hsecond] at hp
      exact absurd hdead hp
  have hi : c.upcoming bus = e.toInstruction c.regs.pc ((c.fetched bus).result.1 :: bytes) := hf.instruction
  have hextra : (c.operated bus).result.2 = (c.upcoming bus).op.extra c.regs (c.operated bus).result.1 := by
    have h := ((c.upcoming bus).op.always_extra (c.upcoming bus).address (c.behind (c.upcoming bus)) []).run
      (c.fetched bus).bus (c.fetched bus).log (c.fetched bus).traffic
    rw [extra_behind] at h
    exact h
  rw [c.untraced_result, hextra]
  exact hf.faithful.asDeclared hplain (congrArg Instruction.op hi) (congrArg Instruction.shape hi) hmade

lemma inputs_untraced (c : Core) (bus : B) :
    (Tally.of (c.untraced.accesses bus)).inputs = (c.upcoming bus).shape.inputs := by
  obtain ⟨e, bytes, hf, hmade⟩ := c.tally_untraced bus
  have hinputs := hf.faithful.inputs
  rw [← show (c.upcoming bus).op = e.op from congrArg Instruction.op hf.instruction,
    ← show (c.upcoming bus).shape = e.shape from congrArg Instruction.shape hf.instruction] at hinputs
  rw [hmade, Op.tally_taken]
  generalize (c.upcoming bus).op.tally false = t at hinputs
  obtain ⟨r, w, p, q⟩ := t
  simp only [Tally.mk_add_mk, hinputs, Nat.zero_add, Nat.add_zero]

end Core

lemma ClockMode.contention_standard (video ports : Nat) : standard.contention video ports = 0 := by
  simp [contention, waitStates, accessQuarters]

namespace Cpu

variable {B : Type} [Bus B]

/-- One executed instruction on the standard clock, on any bus: what it does there and how long it takes are what its
shape declares. -/
theorem step_asDeclared (c : Cpu (Recorded B)) (budget : Nat) (hk : c.stepKind budget = .instruction)
    (hm : c.clock.mode = .standard)
    (hp : ¬ Encoding.DeadPrefix (Bus.read c.bus.bus c.regs.pc).1
      (Bus.read (Bus.read c.bus.bus c.regs.pc).2 (c.regs.pc + 1)).1) :
    ∃ made, (c.step budget).2.bus.accesses.toList = c.bus.accesses.toList ++ made ∧
      (c.core.upcoming c.bus).AsDeclared c.regs (c.step budget).2.regs (Tally.of made) (c.step budget).1 := by
  have hstep := c.stepped budget
  rw [hk] at hstep
  obtain ⟨htime, hmachine, -⟩ := hstep.of_instruction
  have hbus : (c.step budget).2.bus = (c.core.untraced.run c.bus {} {}).bus := congrArg Machine.bus hmachine
  have hregs : (c.step budget).2.regs = (c.core.untraced.run c.bus {} {}).result.2.1.regs :=
    congrArg (·.core.regs) hmachine
  have hcycles : (c.step budget).1 = (c.core.untraced.run c.bus {} {}).result.2.2 := by
    rw [htime, outcome, Core.outcome, hm, ClockMode.contention_standard]
    rfl
  refine ⟨c.core.untraced.accesses c.bus.bus, ?_, ?_⟩
  · rw [hbus, Dialogue.accesses_run_recorded]
  · rw [hregs, hcycles, ← Dialogue.accesses_recorded]
    exact c.core.asDeclared c.bus hp

theorem step_asDeclared_round :
    let ram := (Ram.empty.set 0xFFFF 0xED).set 0 0xB0
    let c : Cpu (Recorded FlatBus) :=
      { bus := { bus := { ram } }, core := { regs := { Registers.powerOn with pc := 0xFFFF, c := 2 } } }
    c.stepKind unbounded = .instruction ∧ c.clock.mode = .standard ∧
      ¬ Encoding.DeadPrefix (Bus.read c.bus.bus c.regs.pc).1
        (Bus.read (Bus.read c.bus.bus c.regs.pc).2 (c.regs.pc + 1)).1 ∧
      ∃ made, (c.step unbounded).2.bus.accesses.toList = c.bus.accesses.toList ++ made ∧
        (c.core.upcoming c.bus).AsDeclared c.regs (c.step unbounded).2.regs (Tally.of made) (c.step unbounded).1 := by
  intro ram c
  have hk : c.stepKind unbounded = .instruction := rfl
  have hp : ¬ Encoding.DeadPrefix (Bus.read c.bus.bus c.regs.pc).1
      (Bus.read (Bus.read c.bus.bus c.regs.pc).2 (c.regs.pc + 1)).1 := by
    simp [Encoding.DeadPrefix, Bus.read, Cpu.regs, c, ram, Ram.get_set]
  exact ⟨hk, rfl, hp, step_asDeclared c unbounded hk rfl hp⟩

end Cpu

end Z80Machine
