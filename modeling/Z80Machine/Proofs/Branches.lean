import Z80Machine.Proofs.Decoding

/-! Jumps, calls and returns. A conditional branch passes on, or does what the branch without a condition does; `DJNZ`
counts first and then is a relative jump. -/

namespace Z80Machine

namespace Condition

def opposite : Condition → Condition
  | nz => z
  | z => nz
  | nc => c
  | c => nc
  | po => pe
  | pe => po
  | p => m
  | m => p

lemma holds_opposite (f : Flags) (cc : Condition) : cc.opposite.holds f = !cc.holds f := by
  cases cc <;> simp [opposite, holds]

def field : Condition → UInt8
  | nz => 0
  | z => 1
  | nc => 2
  | c => 3
  | po => 4
  | pe => 5
  | p => 6
  | m => 7

end Condition

def Bus.wordAt {B : Type} [Bus B] (b : B) (addr : UInt16) : UInt16 :=
  let low := Bus.read b addr
  Word.ofBytes (Bus.read low.2 (addr + 1)).1 low.1

inductive Branch where
  | jump (addr : UInt16)
  | relative (offset : UInt8)
  | call (addr : UInt16)
  | ret
  deriving DecidableEq, Repr

namespace Branch

def op : Branch → Option Condition → Op
  | jump addr, cond => .jp cond addr
  | relative offset, cond => .jr cond offset
  | call addr, cond => .call cond addr
  | ret, cond => .ret cond

def Admits : Branch → Condition → Prop
  | relative _, cc => cc = .nz ∨ cc = .z ∨ cc = .nc ∨ cc = .c
  | _, _ => True

def opcode : Branch → Option Condition → UInt8
  | jump _, none => 0xC3
  | jump _, some cc => 0xC2 + 8 * cc.field
  | relative _, none => 0x18
  | relative _, some cc => 0x20 + 8 * cc.field
  | call _, none => 0xCD
  | call _, some cc => 0xC4 + 8 * cc.field
  | ret, none => 0xC9
  | ret, some cc => 0xC0 + 8 * cc.field

def operand : Branch → List UInt8
  | jump addr | call addr => [Word.low addr, Word.high addr]
  | relative offset => [offset]
  | ret => []

def bytes (b : Branch) (cond : Option Condition) : List UInt8 :=
  b.opcode cond :: b.operand

def passTime : Branch → Nat
  | jump _ => 10
  | relative _ => 7
  | call _ => 10
  | ret => 5

def fullTime : Branch → Nat
  | jump _ => 10
  | relative _ => 12
  | call _ => 17
  | ret => 10

def askTime : Branch → Nat
  | ret => 1
  | _ => 0

def lands (b : Branch) (word : UInt16) (r : Registers) : Registers :=
  match b with
  | jump addr => { r with pc := addr }
  | relative offset => { r with pc := .ofInt (r.pc.toNat + Byte.toSigned offset) }
  | call addr => { r with sp := r.sp - 2, pc := addr }
  | ret => { r with sp := r.sp + 2, pc := word }

def exchanges (b : Branch) (word : UInt16) (r : Registers) : List Access :=
  match b with
  | jump _ | relative _ => []
  | call _ => [.write (r.sp - 1) (Word.high r.pc), .write (r.sp - 2) (Word.low r.pc)]
  | ret => [.read r.sp (Word.low word), .read (r.sp + 1) (Word.high word)]

variable {B : Type} [Bus B]

def leaves (b : Branch) (r : Registers) (bus : B) : B :=
  match b with
  | jump _ | relative _ => bus
  | call _ => Bus.pushed bus r.sp r.pc
  | ret => (Bus.read (Bus.read bus r.sp).2 (r.sp + 1)).2

lemma read_operand (b : Branch) {cond : Option Condition} (h : ∀ cc ∈ cond, b.Admits cc) :
    ∃ shape : CycleShape, (Encoding.ofOpcode (b.opcode cond)).read? b.operand = some (⟨b.op cond, shape, 0⟩, []) ∧
      shape.fetches = 1 ∧ shape.tStates = if cond.isSome then b.passTime else b.fullTime := by
  have hword (addr : UInt16) : ∃ high low, addr = Word.ofBytes high low := ⟨_, _, (Word.ofBytes_high_low addr).symm⟩
  -- Conditions are told apart before the row is computed: a row belongs to an opcode that is known.
  cases b with
  | jump addr =>
    obtain ⟨high, low, rfl⟩ := hword addr
    rw [operand, Word.high_ofBytes, Word.low_ofBytes]
    cases cond with
    | none =>
      rw [opcode]
      exact ⟨_, rfl, rfl, rfl⟩
    | some cc =>
      rw [opcode]
      cases cc <;> exact ⟨_, rfl, rfl, rfl⟩
  | relative offset =>
    cases cond with
    | none =>
      rw [opcode]
      exact ⟨_, rfl, rfl, rfl⟩
    | some cc =>
      rw [opcode]
      obtain rfl | rfl | rfl | rfl := h cc rfl
      all_goals exact ⟨_, rfl, rfl, rfl⟩
  | call addr =>
    obtain ⟨high, low, rfl⟩ := hword addr
    rw [operand, Word.high_ofBytes, Word.low_ofBytes]
    cases cond with
    | none =>
      rw [opcode]
      exact ⟨_, rfl, rfl, rfl⟩
    | some cc =>
      rw [opcode]
      cases cc <;> exact ⟨_, rfl, rfl, rfl⟩
  | ret =>
    cases cond with
    | none => exact ⟨_, rfl, rfl, rfl⟩
    | some cc => cases cc <;> exact ⟨_, rfl, rfl, rfl⟩

lemma word_congr (b : Branch) {word word' : UInt16} (h : b = ret → word = word') (r : Registers) :
    b.lands word r = b.lands word' r ∧ b.exchanges word r = b.exchanges word' r := by
  cases b with
  | ret => rw [h rfl]; exact ⟨rfl, rfl⟩
  | _ => exact ⟨rfl, rfl⟩

lemma jumpBy_eq (r : Registers) (offset : UInt8) (word : UInt16) : r.jumpBy offset = (relative offset).lands word r := by
  have hpc : r.pc + Byte.signExtend offset = .ofInt (r.pc.toNat + Byte.toSigned offset) := by
    have hpc := r.pc.toNat_lt
    have hoffset := offset.toNat_lt
    apply UInt16.toNat_inj.mp
    rw [UInt16.toNat_add, UInt16.ofInt, UInt16.toNat_ofNat', Byte.signExtend, Byte.toSigned]
    split
    · rw [UInt8.toNat_toUInt16]
      omega
    · simp only [UInt16.toNat_add, UInt8.toNat_toUInt16, UInt16.reduceToNat]
      omega
  rw [Registers.jumpBy, hpc]
  rfl

variable (b : Branch) (cond : Option Condition) (address : UInt16) (r : Registers)

lemma onRegisters_passed (h : r.meets cond = false) : (b.op cond).onRegisters address r = .done (r, 0) := by
  cases b <;> simp [op, Op.onRegisters, h]

lemma accesses_push (word : UInt16) (bus : B) : (Stack.push word r).accesses bus =
    [.write (r.sp - 1) (Word.high word), .write (r.sp - 2) (Word.low word)] := by
  simp only [Stack.push]
  split <;> rfl

lemma pop_taken (bus : B) (log : Log) (traffic : Traffic) :
    let t := (Stack.pop r).run bus log traffic
    let word := Bus.wordAt bus r.sp
    t.result = (word, { r with sp := r.sp + 2 }) ∧ t.bus = ret.leaves r bus ∧
      (Stack.pop r).accesses bus = ret.exchanges word r := by
  have hlow := Word.low_ofBytes (Bus.read (Bus.read bus r.sp).2 (r.sp + 1)).1 (Bus.read bus r.sp).1
  have hhigh := Word.high_ofBytes (Bus.read (Bus.read bus r.sp).2 (r.sp + 1)).1 (Bus.read bus r.sp).1
  simp only [Stack.pop, exchanges, Bus.wordAt, hlow, hhigh]
  split <;> exact ⟨rfl, rfl, rfl⟩

lemma op_ne_halt : b.op cond ≠ .halt := by
  cases b <;> exact Op.noConfusion

lemma op_ne_ei : b.op cond ≠ .ei := by
  cases b <;> exact Op.noConfusion

def extraTime (b : Branch) (cond : Option Condition) : Nat :=
  match b with
  | jump _ => 0
  | relative _ => Registers.takenTime cond 5
  | call _ => Registers.takenTime cond 7
  | ret => Registers.takenTime cond 6

lemma declared_add_extraTime : (if cond.isSome then b.passTime else b.fullTime) + b.extraTime cond =
    b.fullTime + if cond.isSome then b.askTime else 0 := by
  cases b <;> cases cond <;> rfl

lemma onRegisters_taken (h : r.meets cond = true) (bus : B) (log : Log) (traffic : Traffic) :
    let d := (b.op cond).onRegisters address r
    let t := d.run bus log traffic
    let word := Bus.wordAt bus r.sp
    t.result = (b.lands word r, b.extraTime cond) ∧ t.bus = b.leaves r bus ∧ d.accesses bus = b.exchanges word r := by
  cases b with
  | jump addr =>
    simp only [op, Op.onRegisters, h, if_true]
    exact ⟨rfl, rfl, rfl⟩
  | relative offset =>
    simp only [op, Op.onRegisters, h, if_true, jumpBy_eq r offset (Bus.wordAt bus r.sp)]
    exact ⟨rfl, rfl, rfl⟩
  | call addr =>
    obtain ⟨hresult, hbus⟩ := Op.run_push bus log traffic r.pc r
    simp only [op, Op.onRegisters, h, if_true, Dialogue.bind_eq, Dialogue.pure_eq, Dialogue.run_bind, Dialogue.run,
      Dialogue.accesses_bind _ _ bus log traffic, Dialogue.accesses, List.append_nil, hresult, hbus, accesses_push]
    exact ⟨rfl, rfl, rfl⟩
  | ret =>
    obtain ⟨hresult, hbus, hmade⟩ := pop_taken r bus log traffic
    simp only [op, Op.onRegisters, h, if_true, Dialogue.bind_eq, Dialogue.pure_eq, Dialogue.run_bind, Dialogue.run,
      Dialogue.accesses_bind _ _ bus log traffic, Dialogue.accesses, List.append_nil, hresult, hbus, hmade, and_self,
      and_true]
    rfl

end Branch

namespace Core

variable {B : Type} [Bus B] (c : Core) (bus : B) {opcode : UInt8} {rest : List UInt8} {e : Encoded}

lemma fetchAt_of_answers (hb : Bus.Answers bus c.regs.pc (opcode :: rest))
    (hr : (Encoding.ofOpcode opcode).read? rest = some (e, [])) :
    c.upcoming bus = e.toInstruction c.regs.pc (opcode :: rest) ∧
      (Instruction.fetchAt c.regs.pc).accesses bus = Access.readsFrom c.regs.pc (opcode :: rest) := by
  obtain ⟨hopcode, hrest⟩ := hb
  obtain ⟨hresult, hmade⟩ := Instruction.decode_of_answers hrest hr {} (({} : Traffic).atAddress bus c.regs.pc)
  simp only [upcoming, fetched, Instruction.fetchAt, Dialogue.readByte, Dialogue.bind, Dialogue.run, Dialogue.run_bind,
    Dialogue.accesses, Dialogue.accesses_bind _ _ _ {} {}, List.append_nil, hopcode]
  rw [hmade]
  exact ⟨hresult, rfl⟩

end Core

namespace Cpu

variable {B : Type} [Bus B]

def waits (c : Cpu B) : Nat :=
  let t := (c.core.cycle c.trace).run c.bus c.log {}
  c.clock.mode.contention t.traffic.video t.traffic.ports

def behind (c : Cpu B) (size : Nat) : Registers :=
  { c.regs with pc := c.regs.pc + UInt16.ofNat size }.refresh 1

structure Ends (c : Cpu B) (bytes : List UInt8) (regs : Registers) (bus : B) (moved : List Access) (time : Nat) :
    Prop where
  machine : c.runInstruction.2.machine = { c.machine with core := { c.core with regs, eiDelay := false }, bus }
  accesses : (c.core.cycle c.trace).accesses c.bus = Access.readsFrom c.regs.pc bytes ++ moved
  time : c.runInstruction.1 = time + c.waits

lemma waits_standard (c : Cpu B) (h : c.clock.mode = .standard) : c.waits = 0 := by
  rw [waits, h]
  exact ClockMode.contention_standard _ _

lemma machine_runInstruction (c : Cpu B) :
    c.runInstruction.2.machine = { c.machine with core := c.outcome.core, bus := c.outcome.bus } := by
  obtain ⟨trace, log, hrun⟩ := c.runInstruction_eq
  rw [hrun]
  rfl

lemma time_runInstruction (c : Cpu B) :
    c.runInstruction.1 = (c.core.upcoming c.bus).tStates + (c.core.operated c.bus).result.2 + c.waits := by
  obtain ⟨hresult, -, htraffic⟩ := c.core.cycle_run c.trace c.bus c.log
  have htime := congrArg (·.2.2) hresult
  have hown := congrArg Prod.snd (c.core.untraced_result c.bus)
  dsimp only at htime hown
  rw [← hown, ← htime]
  rfl

lemma ends_of_read (c : Cpu B) {opcode : UInt8} {rest : List UInt8} {op : Op} {shape : CycleShape} {regs : Registers}
    (extra : Nat) {bus : B} {moved : List Access} (hb : Bus.Answers c.bus c.regs.pc (opcode :: rest))
    (hr : (Encoding.ofOpcode opcode).read? rest = some (⟨op, shape, 0⟩, [])) (hfetches : shape.fetches = 1)
    (hhalt : op ≠ .halt) (hei : op ≠ .ei)
    (hrun : ∀ log traffic,
      let d := op.onRegisters c.regs.pc (c.behind (opcode :: rest).length)
      let t := d.run (c.core.fetched c.bus).bus log traffic
      t.result = (regs, extra) ∧ t.bus = bus ∧ d.accesses (c.core.fetched c.bus).bus = moved) :
    c.Ends (opcode :: rest) regs bus moved (shape.tStates + extra) := by
  obtain ⟨hupcoming, hfetched⟩ := c.core.fetchAt_of_answers c.bus hb hr
  have hbehind : c.core.behind (c.core.upcoming c.bus) = c.behind (opcode :: rest).length := by
    rw [hupcoming, Core.behind, Core.ready, Encoded.toInstruction, hfetches]
    rfl
  have hop : (c.core.upcoming c.bus).op = op := congrArg Instruction.op hupcoming
  have haddress : (c.core.upcoming c.bus).address = c.regs.pc := congrArg Instruction.address hupcoming
  obtain ⟨hresult, hbus, hmoved⟩ := hrun (c.core.fetched c.bus).log (c.core.fetched c.bus).traffic
  have hoperated : (c.core.operated c.bus).result = (regs, extra) := by
    rw [Core.operated, hbehind, hop, haddress]
    exact hresult
  have hcore : c.outcome.core = { c.core with regs, eiDelay := false } := by
    rw [outcome, c.core.outcome_core, hoperated, hop]
    cases op
    case halt => exact absurd rfl hhalt
    case ei => exact absurd rfl hei
    all_goals exact congrArg (Core.mk regs · false) (Bool.or_false _)
  refine ⟨?_, ?_, ?_⟩
  · rw [machine_runInstruction, hcore, show c.outcome.bus = _ from c.core.untraced_bus c.bus, Core.operated, hbehind, hop,
      haddress, hbus]
  · rw [c.core.cycle_accesses, c.core.untraced_accesses, hfetched, hbehind, hop, haddress, hmoved]
    rfl
  · rw [c.time_runInstruction, hoperated, hupcoming]
    rfl

section

variable {c d : Cpu B} {bytes bytes' : List UInt8} {regs : Registers} {bus bus' : B} {moved : List Access}
  {time later : Nat}

structure Follows (c d : Cpu B) (bytes bytes' : List UInt8) (later : Nat) : Prop where
  core : d.runInstruction.2.core = c.runInstruction.2.core
  moved : ∃ moved, (c.core.cycle c.trace).accesses c.bus = Access.readsFrom c.regs.pc bytes ++ moved ∧
    (d.core.cycle d.trace).accesses d.bus = Access.readsFrom d.regs.pc bytes' ++ moved
  time : c.clock.mode = .standard → d.clock.mode = .standard → c.runInstruction.1 = d.runInstruction.1 + later

lemma Ends.core (h : c.Ends bytes regs bus moved time) :
    c.runInstruction.2.core = { c.core with regs, eiDelay := false } :=
  congrArg Machine.core h.machine

lemma Ends.follows (h : c.Ends bytes regs bus moved (time + later)) (h' : d.Ends bytes' regs bus' moved time)
    (hhalted : d.core.halted = c.core.halted) : c.Follows d bytes bytes' later := by
  refine ⟨?_, ⟨moved, h.accesses, h'.accesses⟩, fun hc hd => ?_⟩
  · rw [h.core, h'.core]
    exact congrArg (Core.mk regs · false) hhalted
  · rw [h.time, h'.time, c.waits_standard hc, d.waits_standard hd]
    rfl

end

variable (c : Cpu B)

def topWord : UInt16 :=
  Bus.wordAt (c.core.fetched c.bus).bus c.regs.sp

section

variable {b : Branch} {cond : Option Condition}

lemma ends_passed (hadmits : ∀ cc ∈ cond, b.Admits cc) (hb : Bus.Answers c.bus c.regs.pc (b.bytes cond))
    (h : c.regs.meets cond = false) :
    c.Ends (b.bytes cond) (c.behind (b.bytes cond).length) (c.core.fetched c.bus).bus [] b.passTime := by
  obtain ⟨shape, hr, hfetches, htime⟩ := b.read_operand hadmits
  have hcond : cond.isSome = true := by
    cases cond with
    | none => exact absurd h Bool.noConfusion
    | some cc => rfl
  rw [if_pos hcond] at htime
  have hdone := b.onRegisters_passed cond c.regs.pc (c.behind (b.bytes cond).length) h
  rw [← htime]
  refine c.ends_of_read 0 hb hr hfetches (b.op_ne_halt cond) (b.op_ne_ei cond) fun log traffic => ?_
  rw [Branch.bytes] at hdone
  simp only [hdone]
  exact ⟨rfl, rfl, rfl⟩

lemma ends_taken (hadmits : ∀ cc ∈ cond, b.Admits cc) (hb : Bus.Answers c.bus c.regs.pc (b.bytes cond))
    (h : c.regs.meets cond = true) :
    let r := c.behind (b.bytes cond).length
    c.Ends (b.bytes cond) (b.lands c.topWord r) (b.leaves r (c.core.fetched c.bus).bus) (b.exchanges c.topWord r)
      (b.fullTime + if cond.isSome then b.askTime else 0) := by
  obtain ⟨shape, hr, hfetches, htime⟩ := b.read_operand hadmits
  rw [← b.declared_add_extraTime cond, ← htime]
  exact c.ends_of_read (b.extraTime cond) hb hr hfetches (b.op_ne_halt cond) (b.op_ne_ei cond) fun log traffic =>
    b.onRegisters_taken cond c.regs.pc (c.behind (b.bytes cond).length) h _ log traffic

lemma ends_bare (hb : Bus.Answers c.bus c.regs.pc (b.bytes none)) :
    let r := c.behind (b.bytes none).length
    c.Ends (b.bytes none) (b.lands c.topWord r) (b.leaves r (c.core.fetched c.bus).bus) (b.exchanges c.topWord r)
      b.fullTime :=
  c.ends_taken (fun _ h => absurd h (Option.not_mem_none _)) hb rfl

end

def countedDown : Registers :=
  { c.behind 2 with b := c.regs.b - 1 }

section

variable {offset : UInt8}

lemma read_djnz : (Encoding.ofOpcode 0x10).read? [offset] =
    some (⟨.djnz offset, (CycleShape.m1.addInternal 1).addReads 1, 0⟩, []) := rfl

lemma ends_djnz_passed (hb : Bus.Answers c.bus c.regs.pc [0x10, offset]) (h : c.regs.b - 1 = 0) :
    c.Ends [0x10, offset] c.countedDown (c.core.fetched c.bus).bus [] 8 := by
  have hdone : (Op.djnz offset).onRegisters c.regs.pc (c.behind 2) = .done (c.countedDown, 0) := by
    simp only [Op.onRegisters]
    exact if_pos (beq_iff_eq.mpr h)
  refine c.ends_of_read 0 hb read_djnz rfl Op.noConfusion Op.noConfusion fun log traffic => ?_
  simp only [List.length, hdone]
  exact ⟨rfl, rfl, rfl⟩

lemma ends_djnz_taken (hb : Bus.Answers c.bus c.regs.pc [0x10, offset]) (h : c.regs.b - 1 ≠ 0) :
    c.Ends [0x10, offset] ((Branch.relative offset).lands c.topWord c.countedDown) (c.core.fetched c.bus).bus [] 13 := by
  have hdone : (Op.djnz offset).onRegisters c.regs.pc (c.behind 2) =
      .done ((Branch.relative offset).lands c.topWord c.countedDown, 5) := by
    rw [← Branch.jumpBy_eq]
    simp only [Op.onRegisters]
    exact if_neg (mt beq_iff_eq.mp h)
  refine c.ends_of_read 5 hb read_djnz rfl Op.noConfusion Op.noConfusion fun log traffic => ?_
  simp only [List.length, hdone]
  exact ⟨rfl, rfl, rfl⟩

end

/-- The processor `d` stands before the branch without a condition, in the same state. A return needs the same word on
its stack. -/
structure Bare (b : Branch) (c d : Cpu B) : Prop where
  core : d.core = c.core
  answers : Bus.Answers d.bus d.regs.pc (b.bytes none)
  word : b = .ret → d.topWord = c.topWord

structure Branches (c : Cpu B) (b : Branch) (cc : Condition) : Prop where
  passed : cc.holds c.regs.flags = false →
    c.Ends (b.bytes (some cc)) (c.behind (b.bytes (some cc)).length) (c.core.fetched c.bus).bus [] b.passTime
  taken : cc.holds c.regs.flags = true →
    let r := c.behind (b.bytes (some cc)).length
    c.Ends (b.bytes (some cc)) (b.lands c.topWord r) (b.leaves r (c.core.fetched c.bus).bus) (b.exchanges c.topWord r)
      (b.fullTime + b.askTime)
  bare : cc.holds c.regs.flags = true → ∀ d : Cpu B, Bare b c d →
    c.Follows d (b.bytes (some cc)) (b.bytes none) b.askTime

structure CountsDown (c : Cpu B) (offset : UInt8) : Prop where
  passed : c.regs.b - 1 = 0 → c.Ends [0x10, offset] c.countedDown (c.core.fetched c.bus).bus [] 8
  taken : c.regs.b - 1 ≠ 0 →
    c.Ends [0x10, offset] ((Branch.relative offset).lands c.topWord c.countedDown) (c.core.fetched c.bus).bus [] 13
  relative : c.regs.b - 1 ≠ 0 → ∀ d : Cpu B,
    d.core = { c.core with regs := { c.regs with b := c.regs.b - 1 } } →
    Bus.Answers d.bus d.regs.pc ((Branch.relative offset).bytes none) →
    c.Follows d [0x10, offset] ((Branch.relative offset).bytes none) 1
  flags : c.runInstruction.2.regs.f = c.regs.f

section

variable {c}

lemma branches_of_answers {b : Branch} {cc : Condition} (hadmits : b.Admits cc)
    (hb : Bus.Answers c.bus c.regs.pc (b.bytes (some cc))) : c.Branches b cc := by
  have hsome : ∀ x ∈ some cc, b.Admits x := by
    rintro _ ⟨⟩
    exact hadmits
  refine ⟨c.ends_passed hsome hb, c.ends_taken hsome hb, fun h d hd => ?_⟩
  have hbehind : d.behind (b.bytes none).length = c.behind (b.bytes (some cc)).length := by
    rw [behind, regs, hd.core]
    rfl
  have hbare := d.ends_bare hd.answers
  obtain ⟨hlands, hexchanges⟩ := b.word_congr hd.word (c.behind (b.bytes (some cc)).length)
  rw [hbehind] at hbare
  dsimp only at hbare
  rw [hlands, hexchanges] at hbare
  exact (c.ends_taken hsome hb h).follows hbare (congrArg Core.halted hd.core)

lemma countsDown_of_answers {offset : UInt8} (hb : Bus.Answers c.bus c.regs.pc [0x10, offset]) :
    c.CountsDown offset := by
  refine ⟨c.ends_djnz_passed hb, c.ends_djnz_taken hb, fun h d hd hbytes => ?_, ?_⟩
  · have hbehind : d.behind 2 = c.countedDown := by
      rw [behind, regs, hd]
      rfl
    have hjump : d.Ends _ ((Branch.relative offset).lands d.topWord (d.behind 2)) _ [] 12 := d.ends_bare hbytes
    rw [hbehind, ((Branch.relative offset).word_congr (fun h => Branch.noConfusion h) c.countedDown).1] at hjump
    exact (c.ends_djnz_taken hb h).follows hjump (by rw [hd])
  · by_cases h : c.regs.b - 1 = 0
    · exact congrArg (·.regs.f) (c.ends_djnz_passed hb h).core
    · exact congrArg (·.regs.f) (c.ends_djnz_taken hb h).core

end

/-- Of two opposite conditions one holds. A branch whose condition does not hold leaves all but PC and R; one whose
condition holds, and `DJNZ` unless B has come to zero, ends as the branch without a condition does. -/
theorem branches_agree (c : Cpu B) :
    (c.clock.mode = .standard → c.waits = 0) ∧
    (∀ cc : Condition, cc.opposite.holds c.regs.flags = !cc.holds c.regs.flags) ∧
    (∀ b : Branch, Bus.Answers c.bus c.regs.pc (b.bytes none) →
      let r := c.behind (b.bytes none).length
      c.Ends (b.bytes none) (b.lands c.topWord r) (b.leaves r (c.core.fetched c.bus).bus) (b.exchanges c.topWord r)
        b.fullTime) ∧
    (∀ (b : Branch) (cc : Condition), b.Admits cc → Bus.Answers c.bus c.regs.pc (b.bytes (some cc)) → c.Branches b cc) ∧
    ∀ offset, Bus.Answers c.bus c.regs.pc [0x10, offset] → c.CountsDown offset :=
  ⟨c.waits_standard, Condition.holds_opposite c.regs.flags, fun _ => c.ends_bare, fun _ _ => branches_of_answers,
    fun _ => countsDown_of_answers⟩

/-- `RET NZ` beside `RET`, `JR NC` with the carry set, and `DJNZ` with B at zero. -/
theorem branches_agree_returning :
    let memory (code : List UInt8) : FlatBus := { ram := (Ram.empty.setAll 0 code).setAll 0x10 [0x34, 0x12] }
    let cpu (code : List UInt8) : Cpu FlatBus := { bus := memory code, core := { regs := { f := 0x01, sp := 0x10 } } }
    let c := cpu [0xC0]
    let d := cpu [0xC9]
    let p := cpu [0x30, 0x05]
    let q := cpu [0x10, 0xFE]
    (Bus.Answers c.bus 0 [0xC0] ∧ Bus.Answers d.bus 0 [0xC9] ∧ Bus.Answers p.bus 0 [0x30, 0x05] ∧
      Bus.Answers q.bus 0 [0x10, 0xFE]) ∧
      (c.runInstruction.2.core = { c.core with regs := { c.regs with pc := 0x1234, sp := 0x12, r := 1 } } ∧
        c.runInstruction.1 = 11) ∧
      (d.runInstruction.2.core = c.runInstruction.2.core ∧ d.runInstruction.1 = 10) ∧
      (p.runInstruction.2.core = { p.core with regs := { p.regs with pc := 2, r := 1 } } ∧ p.runInstruction.1 = 7) ∧
      q.runInstruction.2.core = { q.core with regs := { q.regs with pc := 0, b := 0xFF, r := 1 } } ∧
        q.runInstruction.1 = 13 := by
  intro memory cpu c d p q
  have hc : Bus.Answers c.bus 0 [0xC0] := ⟨by decide +kernel, trivial⟩
  have hd : Bus.Answers d.bus 0 [0xC9] := ⟨by decide +kernel, trivial⟩
  have hp : Bus.Answers p.bus 0 [0x30, 0x05] := ⟨by decide +kernel, by decide +kernel, trivial⟩
  have hq : Bus.Answers q.bus 0 [0x10, 0xFE] := ⟨by decide +kernel, by decide +kernel, trivial⟩
  obtain ⟨hcwaits, -, -, hcruns, -⟩ := branches_agree c
  obtain ⟨hdwaits, -, hdruns, -⟩ := branches_agree d
  obtain ⟨hpwaits, -, -, hpruns, -⟩ := branches_agree p
  obtain ⟨hqwaits, -, -, -, hqruns⟩ := branches_agree q
  have hret := hcruns .ret .nz trivial hc
  have hjump := (hpruns (.relative 0x05) .nc (.inr (.inr (.inl rfl))) hp).passed (by decide +kernel)
  have hcount := (hqruns 0xFE hq).taken (by decide +kernel)
  have htaken := hret.taken (by decide +kernel)
  have hbare := hret.bare (by decide +kernel) d ⟨rfl, hd, fun _ => by decide +kernel⟩
  refine ⟨⟨hc, hd, hp, hq⟩, ⟨htaken.core.trans (by decide +kernel), ?_⟩, ⟨hbare.core, ?_⟩,
    ⟨hjump.core.trans (by decide +kernel), ?_⟩, hcount.core.trans (by decide +kernel), ?_⟩
  · exact htaken.time.trans (by rw [hcwaits rfl]; rfl)
  · exact (hdruns .ret hd).time.trans (by rw [hdwaits rfl]; rfl)
  · exact hjump.time.trans (by rw [hpwaits rfl]; rfl)
  · exact hcount.time.trans (by rw [hqwaits rfl])

end Cpu

end Z80Machine
