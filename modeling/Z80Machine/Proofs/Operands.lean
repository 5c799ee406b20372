import Z80Machine.Proofs.Branches
import Z80Machine.Proofs.Displacement

/-! Instructions with one byte operand, be it in a register, in the instruction or in memory. Of the operands that there
could be the tables have only some; for these, the operand is the one byte beside the instruction that is asked for, and
a result goes where the operand was. -/

namespace Z80Machine

open Bus

/-! The operands of the tables -/

namespace Operand

def Usual : Operand → Prop
  | reg _ | imm _ => True
  | indirect pair => pair = .hl
  | indexed mode _ => mode ≠ .hl
  | absolute _ => False

def Target : Operand → Prop
  | imm _ => False
  | o => o.Usual

lemma Target.usual {o : Operand} (h : o.Target) : o.Usual := by
  cases o with
  | imm => exact h.elim
  | _ => exact h

end Operand

def Op.Usual : Op → Prop
  | alu _ src => src.Usual
  | inc o | dec o => o.Target
  | shift _ o copy => o.Target ∧ ∀ x, copy = some x → ∃ mode offset, o = .indexed mode offset
  | _ => True

namespace Encoding

variable (y z : UInt8) (mode : IndexMode) (start : CycleShape) (n : Nat)

lemma quarter0_usual : (quarter0 y z mode start).Every (fun _ e => e.op.Usual) n := by
  unfold quarter0
  dsimp only
  repeat' split
  all_goals simp only [bind_eq, pure_eq, every_bind, every_byte, every_word, every_memory, every_complete]
  all_goals repeat' split
  all_goals simp_all [Op.Usual, Operand.Target, Operand.Usual, register]

lemma quarter1_usual : (quarter1 y z mode start).Every (fun _ e => e.op.Usual) n := by
  unfold quarter1
  repeat' split
  all_goals simp only [bind_eq, pure_eq, every_bind, every_memory, every_complete]
  all_goals repeat' split
  all_goals simp [Op.Usual]

lemma quarter2_usual : (quarter2 y z mode start).Every (fun _ e => e.op.Usual) n := by
  unfold quarter2
  split
  all_goals simp only [bind_eq, pure_eq, every_bind, every_memory, every_complete]
  all_goals repeat' split
  all_goals simp_all [Op.Usual, Operand.Usual, register]

lemma quarter3_usual (opcode : UInt8) : (quarter3 opcode y z mode start).Every (fun _ e => e.op.Usual) n := by
  unfold quarter3
  dsimp only
  repeat' split
  all_goals simp [Op.Usual, Operand.Usual]

lemma mainTable_usual (opcode : UInt8) : (mainTable opcode mode start).Every (fun _ e => e.op.Usual) n := by
  unfold mainTable
  dsimp only
  split
  · exact quarter0_usual _ _ _ _ n
  · exact quarter1_usual _ _ _ _ n
  · exact quarter2_usual _ _ _ _ n
  · exact quarter3_usual _ _ _ _ n _

lemma bitFamily_usual (opcode : UInt8) {target : Operand} {copy : Option Register} (tested changed : CycleShape)
    (ht : target.Target) (hcopy : ∀ x, copy = some x → ∃ mode offset, target = .indexed mode offset) :
    (bitFamily opcode target copy tested changed).op.Usual := by
  unfold bitFamily
  dsimp only
  split
  · exact ⟨ht, hcopy⟩
  all_goals trivial

lemma bits_usual (opcode : UInt8) : (bits opcode).op.Usual := by
  unfold bits
  dsimp only
  split
  · exact bitFamily_usual opcode _ _ rfl nofun
  · exact bitFamily_usual opcode _ _ trivial nofun

lemma indexedBits_usual (hm : mode ≠ .hl) : (indexedBits mode).Every (fun _ e => e.op.Usual) n :=
  fun offset opcode => bitFamily_usual opcode _ _ hm fun _ _ => ⟨mode, offset, rfl⟩

lemma extended_usual (opcode : UInt8) : (extended opcode).Every (fun _ e => e.op.Usual) n := by
  unfold extended
  dsimp only
  repeat' split
  all_goals simp [Op.Usual]

lemma indexed_usual (hm : mode ≠ .hl) : (indexed mode).Every (fun _ e => e.op.Usual) n := by
  simp only [indexed, bind_eq, pure_eq, every_bind, every_byte]
  intro next
  split
  case h_4 => exact indexedBits_usual mode _ hm
  case h_5 => exact mainTable_usual mode _ _ next
  all_goals trivial

theorem ofOpcode_usual (opcode : UInt8) : (ofOpcode opcode).Every (fun _ e => e.op.Usual) n := by
  unfold ofOpcode
  split
  · exact fun b => bits_usual b
  · exact fun b => extended_usual _ b
  · exact indexed_usual .ix n (by decide)
  · exact indexed_usual .iy n (by decide)
  · exact mainTable_usual .hl _ n opcode

end Encoding

lemma Core.exists_upcoming {B : Type} [Bus B] (c : Core) (bus : B) :
    ∃ (opcode : UInt8) (rest : List UInt8) (e : Encoded), (Encoding.ofOpcode opcode).read? rest = some (e, []) ∧
      c.upcoming bus = e.toInstruction c.regs.pc (opcode :: rest) ∧
      (Instruction.fetchAt c.regs.pc).accesses bus = Access.readsFrom c.regs.pc (opcode :: rest) := by
  obtain ⟨rest, e, hb, hr⟩ := (Encoding.ofOpcode (Bus.read bus c.regs.pc).1).exists_answers
    (Bus.read bus c.regs.pc).2 (c.regs.pc + 1)
  exact ⟨_, rest, e, hr, c.fetchAt_of_answers bus ⟨rfl, hb⟩ hr⟩

lemma Core.upcoming_usual {B : Type} [Bus B] (c : Core) (bus : B) : (c.upcoming bus).op.Usual := by
  obtain ⟨opcode, rest, e, hr, hupcoming, -⟩ := c.exists_upcoming bus
  rw [hupcoming]
  exact (Encoding.ofOpcode_usual 0 opcode).of_read hr

lemma Core.upcoming_paired {B : Type} [Bus B] (c : Core) (bus : B) : (c.upcoming bus).op.Paired := by
  obtain ⟨opcode, rest, e, hr, hupcoming, -⟩ := c.exists_upcoming bus
  obtain ⟨x, y, z, hplaced⟩ := Encoding.placed_of_read hr
  rw [hupcoming]
  exact hplaced.regular.paired

/-! What accesses do to a bus -/

section

variable {B : Type} [Bus B]

def Bus.afterAccess (b : B) : Access → B
  | .read addr _ => (Bus.read b addr).2
  | .write addr byte => Bus.write b addr byte
  | .input port _ => (Bus.input b port).2
  | .output port byte => Bus.output b port byte

def Bus.afterAll (b : B) (l : List Access) : B :=
  l.foldl Bus.afterAccess b

theorem Dialogue.run_bus {α : Type} (d : Dialogue α) (b : B) (log : Log) (traffic : Traffic) :
    (d.run b log traffic).bus = Bus.afterAll b (d.accesses b) := by
  induction d generalizing b log traffic with
  | done => rfl
  | read addr next ih => exact ih _ _ _ _
  | write addr byte next ih => exact ih _ _ _
  | input port next ih => exact ih _ _ _ _
  | output port byte next ih => exact ih _ _ _
  | note event next ih => exact ih _ _ _

namespace Bus

lemma afterAll_append (b : B) (l l' : List Access) : afterAll b (l ++ l') = afterAll (afterAll b l) l' :=
  List.foldl_append

variable [SteadyBus B]

lemma afterAll_readsFrom (b : B) (addr : UInt16) (bytes : List UInt8) :
    afterAll b (Access.readsFrom addr bytes) = b := by
  induction bytes generalizing addr with
  | nil => rfl
  | cons x bytes ih =>
    have hread : afterAccess b (.read addr x) = b := SteadyBus.bus_read b addr
    rw [Access.readsFrom, afterAll, List.foldl_cons, hread]
    exact ih (addr + 1)

end Bus

lemma Core.fetched_bus [SteadyBus B] (c : Core) (b : B) : (c.fetched b).bus = b := by
  obtain ⟨opcode, rest, -, -, -, hmade⟩ := c.exists_upcoming b
  rw [fetched, Dialogue.run_bus, hmade, Bus.afterAll_readsFrom]

end

/-! One operation -/

namespace Operand

variable (o : Operand) (r : Registers)

def value {B : Type} [Bus B] (b : B) : UInt8 :=
  match o, o.address? r with
  | reg x, _ => r.get x
  | imm v, _ => v
  | _, some ea => (Bus.read b ea).1
  | _, none => 0

def given (v : UInt8) : Registers :=
  match o with
  | reg x => r.set x v
  | _ => r

def exchanged (x : UInt8) (stored : Option UInt8) : List Access :=
  (o.address? r).elim [] fun ea => .read ea x :: stored.toList.map (Access.write ea)

end Operand

namespace CellOp

def computes (k : CellOp) : Bool :=
  k.looks && !k.moves

def settled (k : CellOp) (o : Operand) (copy : Option Register) (r : Registers) (x : UInt8) : Registers :=
  (k.effect r x).stored.elim (k.after copy r x) (o.given (k.after copy r x))

variable {B : Type} [Bus B] {k : CellOp} {o : Operand} {copy : Option Register}

lemma run_visit_looking (h : k.looks = true) (copy : Option Register) (ea : UInt16) (r : Registers) (b : B)
    (log : Log) (traffic : Traffic) :
    let x := (Bus.read b ea).1
    ((k.visit ea copy r).run b log traffic).result = (k.after copy r x, 0) ∧
      (k.visit ea copy r).accesses b = .read ea x :: (k.effect r x).stored.toList.map (Access.write ea) := by
  simp only [visit, h, if_true, Dialogue.run, Dialogue.accesses]
  obtain ⟨hresult, -, hmade⟩ := k.run_finish ea copy r (Bus.read b ea).1 (Bus.read b ea).2 log (traffic.atAddress b ea)
  exact ⟨hresult, congrArg _ hmade⟩

lemma onRegisters_reg (h : k.computes = true) (address : UInt16) (r : Registers) (x : Register) :
    (k.op (.reg x) none).onRegisters address r = .done (k.settled (.reg x) none r (r.get x), 0) := by
  cases k
  case take | put | give => contradiction
  all_goals rfl

lemma onRegisters_imm (h : k.computes = true) (hstored : ∀ r x, (k.effect r x).stored = none) (address : UInt16)
    (r : Registers) (v : UInt8) :
    (k.op (.imm v) none).onRegisters address r = .done (k.settled (.imm v) none r v, 0) := by
  cases k
  case alu | bit => rfl
  case take | put | give => contradiction
  all_goals exact absurd (hstored r v) (Option.some_ne_none _)

theorem run_settled (h : k.computes = true) (ho : o.Usual) (htarget : o.Target ∨ ∀ r x, (k.effect r x).stored = none)
    (hcopy : ∀ x, copy = some x → ∃ mode offset, o = .indexed mode offset) (address : UInt16) (r : Registers) (b : B)
    (log : Log) (traffic : Traffic) :
    let d := (k.op o copy).onRegisters address r
    let x := o.value r b
    (d.run b log traffic).result = (k.settled o copy r x, 0) ∧
      d.accesses b = o.exchanged r x (k.effect r x).stored := by
  have hlooks : k.looks = true := (Bool.and_eq_true _ _ ▸ h).1
  have hnone (hne : ∀ mode offset, o ≠ .indexed mode offset) : copy = none := by
    cases copy with
    | none => rfl
    | some x =>
      obtain ⟨mode, offset, rfl⟩ := hcopy x rfl
      exact absurd rfl (hne mode offset)
  have hsettled (x : UInt8) (hne : ∀ y, o ≠ .reg y) : k.settled o copy r x = k.after copy r x := by
    unfold settled
    cases (k.effect r x).stored with
    | none => rfl
    | some v =>
      cases o with
      | reg y => exact absurd rfl (hne y)
      | _ => rfl
  cases o with
  | reg x =>
    obtain rfl := hnone nofun
    rw [onRegisters_reg h]
    exact ⟨rfl, rfl⟩
  | imm v =>
    obtain rfl := hnone nofun
    rw [onRegisters_imm h (htarget.resolve_left id)]
    exact ⟨rfl, rfl⟩
  | indirect pair =>
    obtain rfl : pair = .hl := ho
    obtain ⟨hresult, hmade⟩ := run_visit_looking hlooks copy r.hl r b log traffic
    rw [onRegisters_indirect]
    refine ⟨?_, hmade⟩
    rw [hsettled _ nofun]
    exact hresult
  | indexed mode offset =>
    obtain ⟨hresult, hmade⟩ := run_visit_looking hlooks copy (r.getPair mode.pair + Byte.signExtend offset) r b
      log traffic
    rw [onRegisters_indexed]
    refine ⟨?_, hmade⟩
    rw [hsettled _ nofun]
    exact hresult
  | absolute => exact ho.elim

end CellOp

/-! One instruction -/

lemma Operand.behind_congr {B : Type} [Bus B] (o : Operand) (r : Registers) (pc : UInt16) (x : UInt8) (b : B) :
    o.address? (r.behind pc x) = o.address? r ∧ o.value (r.behind pc x) b = o.value r b := by
  cases o with
  | reg y => cases y <;> exact ⟨rfl, rfl⟩
  | indirect pair => cases pair <;> exact ⟨rfl, rfl⟩
  | indexed mode offset => cases mode <;> exact ⟨rfl, rfl⟩
  | _ => exact ⟨rfl, rfl⟩

lemma CellOp.settled_behind (k : CellOp) (o : Operand) (copy : Option Register) (r : Registers) (pc : UInt16) (y : UInt8)
    (x : UInt8) : k.settled o copy (r.behind pc y) x = (k.settled o copy r x).behind pc y := by
  have hset (s : Registers) (z : Register) (v : UInt8) : (s.behind pc y).set z v = (s.set z v).behind pc y := by
    cases z <;> rfl
  have hafter : k.after copy (r.behind pc y) x = (k.after copy r x).behind pc y := by
    simp only [after, moved, effect_behind]
    cases k.dest copy with
    | none => rfl
    | some z => exact hset { r with a := (k.effect r x).a, f := (k.effect r x).f } z _
  simp only [settled, effect_behind, hafter]
  cases (k.effect r x).stored with
  | none => rfl
  | some v =>
    cases o with
    | reg z => exact hset _ z v
    | _ => rfl

namespace Cpu

variable {B : Type} [Bus B] (c : Cpu B)

def operand (o : Operand) : UInt8 :=
  o.value c.regs (c.core.fetched c.bus).bus

structure Settles (o : Operand) (stored : Option UInt8) (left : Registers) : Prop where
  accesses : (c.core.cycle c.trace).accesses c.bus =
    Access.readsFrom c.regs.pc (c.core.upcoming c.bus).bytes ++ o.exchanged c.regs (c.operand o) stored
  machine : let i := c.core.upcoming c.bus
    c.runInstruction.2.machine = { c.machine with
      core := { c.core with
        regs := left.behind (c.regs.pc + i.size) (c.regs.refresh i.shape.fetches).r, eiDelay := false }
      bus := Bus.afterAll c.bus ((c.core.cycle c.trace).accesses c.bus) }

variable {o : Operand}

theorem settles (k : CellOp) (copy : Option Register) (hop : (c.core.upcoming c.bus).op = k.op o copy)
    (h : k.computes = true) (ho : o.Usual) (htarget : o.Target ∨ ∀ r x, (k.effect r x).stored = none)
    (hcopy : ∀ x, copy = some x → ∃ mode offset, o = .indexed mode offset) :
    c.Settles o (k.effect c.regs (c.operand o)).stored (k.settled o copy c.regs (c.operand o)) := by
  obtain ⟨opcode, rest, e, -, hupcoming, hfetched⟩ := c.core.exists_upcoming c.bus
  have hbytes : (c.core.upcoming c.bus).bytes = opcode :: rest := congrArg Instruction.bytes hupcoming
  have hbehind : c.core.behind (c.core.upcoming c.bus) = c.regs.behind (c.regs.pc + (c.core.upcoming c.bus).size)
      (c.regs.refresh (c.core.upcoming c.bus).shape.fetches).r := by
    rw [hupcoming]
    rfl
  obtain ⟨haddress, hvalue⟩ := o.behind_congr c.regs (c.regs.pc + (c.core.upcoming c.bus).size)
    (c.regs.refresh (c.core.upcoming c.bus).shape.fetches).r (c.core.fetched c.bus).bus
  obtain ⟨hresult, hmade⟩ := CellOp.run_settled h ho htarget hcopy (c.core.upcoming c.bus).address
    (c.core.behind (c.core.upcoming c.bus)) (c.core.fetched c.bus).bus (c.core.fetched c.bus).log
    (c.core.fetched c.bus).traffic
  rw [hbehind, hvalue, k.settled_behind] at hresult
  rw [hbehind, hvalue, k.effect_behind, Operand.exchanged, haddress] at hmade
  have hmoved : (c.core.cycle c.trace).accesses c.bus =
      Access.readsFrom c.regs.pc (c.core.upcoming c.bus).bytes ++ o.exchanged c.regs (c.operand o)
        (k.effect c.regs (c.operand o)).stored := by
    rw [c.core.cycle_accesses, c.core.untraced_accesses, hfetched, hop, hbehind, hbytes]
    exact congrArg _ hmade
  have hoperated : (c.core.operated c.bus).result = ((k.settled o copy c.regs (c.operand o)).behind
      (c.regs.pc + (c.core.upcoming c.bus).size) (c.regs.refresh (c.core.upcoming c.bus).shape.fetches).r, 0) := by
    rw [Core.operated, hop, hbehind]
    exact hresult
  refine ⟨hmoved, ?_⟩
  have hbus : c.outcome.bus = Bus.afterAll c.bus ((c.core.cycle c.trace).accesses c.bus) := by
    rw [c.core.cycle_accesses]
    exact c.core.untraced.run_bus c.bus {} {}
  have hcore : c.outcome.core = { c.core with
      regs := (k.settled o copy c.regs (c.operand o)).behind (c.regs.pc + (c.core.upcoming c.bus).size)
        (c.regs.refresh (c.core.upcoming c.bus).shape.fetches).r
      eiDelay := false } := by
    rw [outcome, c.core.outcome_core, hoperated, hop]
    cases k <;> exact congrArg (Core.mk _ · false) (Bool.or_false _)
  rw [machine_runInstruction, hcore, hbus]

variable {c} {stored : Option UInt8} {left : Registers}

lemma Settles.regs (h : c.Settles o stored left) :
    c.runInstruction.2.regs = left.behind (c.regs.pc + (c.core.upcoming c.bus).size)
      (c.regs.refresh (c.core.upcoming c.bus).shape.fetches).r :=
  congrArg (·.core.regs) h.machine

lemma Settles.get (h : c.Settles o stored left) (x : Register) : c.runInstruction.2.regs.get x = left.get x := by
  rw [h.regs]
  cases x <;> rfl

lemma Settles.flags (h : c.Settles o stored left) : c.runInstruction.2.regs.flags = left.flags := by
  rw [h.regs]
  rfl

variable [SteadyBus B]

variable (c o) in
lemma operand_eq : c.operand o = o.value c.regs c.bus := by
  rw [operand, Core.fetched_bus]

lemma Settles.bus (h : c.Settles o stored left) : c.runInstruction.2.bus =
    (o.address? c.regs).elim c.bus fun ea => stored.elim c.bus (Bus.write c.bus ea) := by
  have hbus : c.runInstruction.2.bus = Bus.afterAll c.bus ((c.core.cycle c.trace).accesses c.bus) :=
    congrArg Machine.bus h.machine
  rw [hbus, h.accesses, Bus.afterAll_append, Bus.afterAll_readsFrom, Operand.exchanged]
  cases o.address? c.regs with
  | none => rfl
  | some ea =>
    have hread : Bus.afterAccess c.bus (.read ea (c.operand o)) = c.bus := SteadyBus.bus_read c.bus ea
    cases stored with
    | none => exact hread
    | some v => exact congrArg (Bus.write · ea v) hread

lemma Settles.peek {v : UInt8} {ea : UInt16} (h : c.Settles o (some v) left) (ho : o.address? c.regs = some ea)
    (hw : Writable c.bus ea) (addr : UInt16) :
    Bus.peek c.runInstruction.2.bus addr = if addr = ea then v else Bus.peek c.bus addr := by
  rw [h.bus, ho]
  exact hw v addr

end Cpu

end Z80Machine
