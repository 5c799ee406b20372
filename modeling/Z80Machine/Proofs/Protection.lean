import Z80Machine.Board
import Z80Machine.Proofs.Reachable
import Z80Machine.Proofs.Replay

/-! Read-only memory. What a processor writes goes to the writable cells it aims at and nowhere else, and no write that
aims at the others is lost count of. -/

namespace Z80Machine

namespace Access

def puts? (addr : UInt16) : Access → Option UInt8
  | write a byte => if a = addr then some byte else none
  | _ => none

def trespasses (size : Nat) : Access → Bool
  | write addr _ => addr.toNat < size
  | _ => false

def lastPut? (addr : UInt16) : List Access → Option UInt8
  | [] => none
  | a :: later => (lastPut? addr later).or (a.puts? addr)

end Access

namespace Memory

section

variable (m : Memory) (addr a : UInt16) (byte : UInt8)

@[simp] lemma write_romSize : (m.write addr byte).romSize = m.romSize := by
  unfold write
  split <;> rfl

@[simp] lemma write_windowFirst : (m.write addr byte).windowFirst = m.windowFirst := by
  unfold write
  split <;> rfl

@[simp] lemma write_windowPast : (m.write addr byte).windowPast = m.windowPast := by
  unfold write
  split <;> rfl

lemma write_romWrites : (m.write addr byte).romWrites = m.romWrites + if m.isRom addr then 1 else 0 := by
  unfold write
  split <;> rfl

lemma write_peek :
    (m.write addr byte).peek a = if m.isRom a then m.peek a else if addr = a then byte else m.peek a := by
  by_cases h : addr = a
  · subst h
    cases hr : m.isRom addr with
    | true => simp [write, hr, peek]
    | false => simp [write, hr, peek, poke]
  · cases hr : m.isRom addr with
    | true => simp [write, hr, peek, h]
    | false => simp [write, hr, peek, poke, Ram.get_set, h]

end

def afterAll (m : Memory) : List Access → Memory
  | [] => m
  | .write addr byte :: later => (m.write addr byte).afterAll later
  | _ :: later => m.afterAll later

def Answers (m : Memory) : List Access → Prop
  | [] => True
  | .read addr byte :: later => m.peek addr = byte ∧ m.Answers later
  | .write addr byte :: later => (m.write addr byte).Answers later
  | _ :: later => m.Answers later

lemma afterAll_append (m : Memory) (l l' : List Access) : m.afterAll (l ++ l') = (m.afterAll l).afterAll l' := by
  induction l generalizing m with
  | nil => rfl
  | cons a l ih => cases a <;> exact ih _

lemma answers_append (m : Memory) (l l' : List Access) :
    m.Answers (l ++ l') ↔ m.Answers l ∧ (m.afterAll l).Answers l' := by
  induction l generalizing m with
  | nil => exact (and_iff_right trivial).symm
  | cons a l ih =>
    cases a with
    | read addr byte => simp only [List.cons_append, Answers, afterAll, ih, and_assoc]
    | write addr byte => exact ih _
    | input port byte => exact ih _
    | output port byte => exact ih _

lemma Answers.peek {m : Memory} {before after : List Access} {addr : UInt16} {byte : UInt8}
    (h : m.Answers (before ++ .read addr byte :: after)) : (m.afterAll before).peek addr = byte :=
  ((m.answers_append _ _).mp h).2.1

lemma afterAll_layout (m : Memory) (l : List Access) : (m.afterAll l).romSize = m.romSize ∧
    (m.afterAll l).windowFirst = m.windowFirst ∧ (m.afterAll l).windowPast = m.windowPast := by
  induction l generalizing m with
  | nil => exact ⟨rfl, rfl, rfl⟩
  | cons a l ih =>
    cases a with
    | read addr byte => exact ih m
    | write addr byte =>
      have hrest := ih (m.write addr byte)
      simpa only [afterAll, write_romSize, write_windowFirst, write_windowPast] using hrest
    | input port byte => exact ih m
    | output port byte => exact ih m

lemma afterAll_romWrites (m : Memory) (l : List Access) :
    (m.afterAll l).romWrites = m.romWrites + l.countP (Access.trespasses m.romSize) := by
  induction l generalizing m with
  | nil => rfl
  | cons a l ih =>
    cases a with
    | read addr byte => exact ih m
    | write addr byte =>
      rw [afterAll, ih, write_romSize, write_romWrites, List.countP_cons, Nat.add_assoc, Nat.add_comm (List.countP _ _)]
      rfl
    | input port byte => exact ih m
    | output port byte => exact ih m

lemma afterAll_peek (m : Memory) (l : List Access) (addr : UInt16) : (m.afterAll l).peek addr =
    if m.isRom addr then m.peek addr else (Access.lastPut? addr l).getD (m.peek addr) := by
  induction l generalizing m with
  | nil => exact (ite_self _).symm
  | cons a l ih =>
    cases a with
    | read a byte => simpa only [afterAll, Access.lastPut?, Access.puts?, Option.or_none] using ih m
    | write a byte =>
      have hrom : (m.write a byte).isRom addr = m.isRom addr := by simp only [isRom, write_romSize]
      rw [afterAll, ih, hrom, write_peek]
      cases m.isRom addr with
      | true => rfl
      | false =>
        cases hl : Access.lastPut? addr l with
        | some b => simp [Access.lastPut?, hl]
        | none => by_cases ha : a = addr <;> simp [Access.lastPut?, Access.puts?, hl, ha]
    | input port byte => simpa only [afterAll, Access.lastPut?, Access.puts?, Option.or_none] using ih m
    | output port byte => simpa only [afterAll, Access.lastPut?, Access.puts?, Option.or_none] using ih m

end Memory

namespace Dialogue

variable {α : Type}

theorem run_memory (d : Dialogue α) (r : Recorded Board) (log : Log) (traffic : Traffic) :
    (d.run r log traffic).bus.bus.memory = r.bus.memory.afterAll (d.accesses r.bus) ∧
      r.bus.memory.Answers (d.accesses r.bus) := by
  induction d generalizing r log traffic with
  | done => exact ⟨rfl, trivial⟩
  | read addr next ih =>
    obtain ⟨hm, ha⟩ := ih (r.bus.memory.peek addr) (Bus.read r addr).2 log (traffic.atAddress r addr)
    exact ⟨hm, rfl, ha⟩
  | write addr byte next ih => exact ih (Bus.write r addr byte) _ _
  | input port next ih => exact ih (r.bus.ports.read port) (Bus.input r port).2 _ _
  | output port byte next ih => exact ih (Bus.output r port byte) _ _
  | note event next ih => exact ih r _ _

end Dialogue

def HostOp.SparesMemory (op : HostOp (Recorded Board)) : Prop :=
  ∀ r, (op.onBus r).bus.memory = r.bus.memory ∧ (op.onBus r).accesses = r.accesses

namespace Cpu

/-- From `c` the processor came to `d`, by steps and by whatever a host does with its hands off memory. -/
inductive HandsOff (c : Cpu (Recorded Board)) : Cpu (Recorded Board) → Prop where
  | rest : HandsOff c c
  | log {d : Cpu (Recorded Board)} (log : Log) : HandsOff c d → HandsOff c { d with log }
  | host {d : Cpu (Recorded Board)} (op : HostOp (Recorded Board)) (h : op.SparesMemory) :
      HandsOff c d → HandsOff c (op.apply d)
  | setInterruptEnabled {d : Cpu (Recorded Board)} (on : Bool) : HandsOff c d → HandsOff c (d.setInterruptEnabled on)
  | setRegs {d : Cpu (Recorded Board)} (regs : Registers) : HandsOff c d → HandsOff c (d.setRegs regs)
  | step {d : Cpu (Recorded Board)} (budget : Nat) : HandsOff c d → HandsOff c (d.step budget).2

lemma Stepped.memory {c : Cpu (Recorded Board)} {budget t : Nat} {k : StepKind} {m : Machine (Recorded Board)}
    {d : Idle.Detector} (h : c.Stepped budget k t m d) :
    m.bus.bus.memory = c.bus.bus.memory.afterAll (c.made k) ∧ c.bus.bus.memory.Answers (c.made k) := by
  cases h with
  | paused => exact ⟨rfl, trivial⟩
  | response _ _ ht =>
    rw [ht, made, Dialogue.accesses_recorded]
    exact Dialogue.run_memory _ _ _ _
  | halted => exact ⟨rfl, trivial⟩
  | skipped => exact ⟨rfl, trivial⟩
  | instruction =>
    rw [made, Dialogue.accesses_recorded]
    exact Dialogue.run_memory _ _ _ _

namespace HandsOff

variable {c d : Cpu (Recorded Board)}

theorem memory (h : HandsOff c d) : ∃ made, d.bus.accesses.toList = c.bus.accesses.toList ++ made ∧
    d.bus.bus.memory = c.bus.bus.memory.afterAll made ∧ c.bus.bus.memory.Answers made := by
  induction h with
  | rest => exact ⟨[], (List.append_nil _).symm, rfl, trivial⟩
  | log _ _ ih => exact ih
  | @host d op hop _ ih =>
    obtain ⟨hmemory, haccesses⟩ := hop d.bus
    rw [op.apply_bus, hmemory, haccesses]
    exact ih
  | setInterruptEnabled _ _ ih => exact ih
  | setRegs _ _ ih => exact ih
  | @step d budget _ ih =>
    obtain ⟨made, haccesses, hmemory, hanswers⟩ := ih
    have hstepped := d.stepped budget
    obtain ⟨hmemory', hanswers'⟩ := hstepped.memory
    rw [hmemory] at hmemory' hanswers'
    refine ⟨made ++ d.made (d.stepKind budget), ?_, ?_, ?_⟩
    · rw [← List.append_assoc, ← haccesses]
      exact hstepped.accesses
    · rw [Memory.afterAll_append]
      exact hmemory'
    · exact (Memory.answers_append _ _ _).mpr ⟨hanswers, hanswers'⟩

theorem runChunked {S : Type} (h : HandsOff c d) (cycles chunk : Nat) (act : Nat → Cpu (Recorded Board) × S →
    Cpu (Recorded Board) × S) (hact : ∀ ran e s, HandsOff c e → HandsOff c (act ran (e, s)).1) (s : S) :
    HandsOff c (d.runChunked cycles chunk act s).2.1 :=
  runChunks_closed (fun _ budget => .step budget) (fun _ log => .log log) act hact h _ _ _ _

end HandsOff

/-- Whatever runs and whatever interrupts it, the processor changes no read-only byte, and its writes to the others go
where they aim. -/
theorem rom_kept {c d : Cpu (Recorded Board)} (h : HandsOff c d) :
    let m := c.bus.bus.memory
    let m' := d.bus.bus.memory
    ∃ made : List Access, d.bus.accesses.toList = c.bus.accesses.toList ++ made ∧
      (∀ addr, addr.toNat < min m.romSize 65536 → m'.peek addr = m.peek addr) ∧
      m'.romWrites = m.romWrites + made.countP (Access.trespasses m.romSize) ∧
      (∀ addr, m.romSize ≤ addr.toNat → m'.peek addr = (Access.lastPut? addr made).getD (m.peek addr)) ∧
      (∀ before addr byte after, made = before ++ .read addr byte :: after → byte =
        if addr.toNat < m.romSize then m.peek addr else (Access.lastPut? addr before).getD (m.peek addr)) ∧
      m'.romSize = m.romSize ∧ m'.windowFirst = m.windowFirst ∧ m'.windowPast = m.windowPast := by
  intro m m'
  obtain ⟨made, haccesses, hmemory, hanswers⟩ := h.memory
  have hpeek (l : List Access) (addr : UInt16) : (m.afterAll l).peek addr =
      if addr.toNat < m.romSize then m.peek addr else (Access.lastPut? addr l).getD (m.peek addr) := by
    simpa only [Memory.isRom, decide_eq_true_eq] using m.afterAll_peek l addr
  refine ⟨made, haccesses, fun addr haddr => ?_, ?_, fun addr haddr => ?_, ?_, ?_⟩
  · rw [show m' = m.afterAll made from hmemory, hpeek, if_pos (Nat.lt_min.mp haddr).1]
  · rw [show m' = m.afterAll made from hmemory, Memory.afterAll_romWrites]
  · rw [show m' = m.afterAll made from hmemory, hpeek, if_neg (Nat.not_lt.mpr haddr)]
  · rintro before addr byte after rfl
    rw [← hanswers.peek, hpeek]
  · rw [show m' = m.afterAll made from hmemory]
    exact m.afterAll_layout made

theorem rom_kept_straddling :
    let memory := (Memory.ofLayout 1 0 0).value.poke 0 0x3E
    let c : Cpu (Recorded Board) := Cpu.setRegs { bus := { bus := { memory } } } { pc := 0x0102, sp := 1 }
    let d := ((((c.requestInterrupt .nonMaskable).step unbounded).2.reset).run 100).2
    HandsOff c d ∧ d.bus.bus.memory.peek 0 = 0x3E := by
  intro memory c d
  have hrequested : HandsOff c (c.requestInterrupt .nonMaskable) :=
    HandsOff.rest.host (.requestInterrupt .nonMaskable) fun _ => ⟨rfl, rfl⟩
  have hreset : HandsOff c ((c.requestInterrupt .nonMaskable).step unbounded).2.reset :=
    (hrequested.step unbounded).host .reset fun _ => ⟨rfl, rfl⟩
  have h : HandsOff c d := hreset.runChunked _ _ _ (fun _ _ _ h => h) _
  obtain ⟨-, -, hrom, -⟩ := rom_kept h
  refine ⟨h, (hrom 0 (by decide)).trans ?_⟩
  decide +kernel

end Cpu

end Z80Machine
