import Z80Machine.Proofs.Machine
import Z80Machine.TestVector.State

/-! A test vector holds enough memory to be replayed. What a processor does depends on no byte of memory that it did
not put on the bus, so all others may as well be zero. -/

namespace Z80Machine

namespace TestVector

namespace State

@[simp] lemma toRegisters_ofRegisters (r : Registers) (ram : List (UInt16 × UInt8)) :
    ({ ofRegisters r with ram } : State).toRegisters = r := by
  have hflip (on : Bool) : (flipFlop on != 0) = on := by cases on <;> rfl
  simp [toRegisters, ofRegisters, hflip]

lemma get_foldl_set (m n : Ram) (cells : List UInt16) (addr : UInt16) :
    ((cells.map fun a => (a, m.get a)).foldl (fun n (a, byte) => n.set a byte) n).get addr =
      if addr ∈ cells then m.get addr else n.get addr := by
  induction cells generalizing n with
  | nil => rfl
  | cons a cells ih =>
    rw [List.map_cons, List.foldl_cons, ih, Ram.get_set]
    by_cases ha : a = addr
    · simp [ha]
    · simp [ha, Ne.symm ha]

lemma get_memory (s : State) (m : Ram) (cells : List UInt16) (addr : UInt16) :
    ({ s with ram := cells.map fun a => (a, m.get a) } : State).memory.get addr =
      if addr ∈ cells then m.get addr else 0 := by
  rw [memory, get_foldl_set, Ram.empty, Ram.get_filled]

end State

lemma mem_eraseReps {α : Type} [BEq α] [LawfulBEq α] {x : α} {l : List α} : x ∈ l.eraseReps ↔ x ∈ l := by
  have hloop (a : α) (l seen : List α) : x ∈ List.eraseRepsBy.loop (· == ·) a l seen ↔ x = a ∨ x ∈ l ∨ x ∈ seen := by
    induction l generalizing a seen with
    | nil => simp [List.eraseRepsBy.loop, or_comm]
    | cons b l ih =>
      rw [List.eraseRepsBy.loop]
      cases h : a == b with
      | true =>
        rw [beq_iff_eq] at h
        grind
      | false => grind
  cases l with
  | nil => rfl
  | cons a l => simpa [List.eraseReps, List.eraseRepsBy] using hloop a l []

lemma mem_touched {accesses : List Access} {addr : UInt16} :
    addr ∈ touched accesses ↔ ∃ a ∈ accesses, address? a = some addr := by
  rw [touched, mem_eraseReps, List.mem_mergeSort, List.mem_filterMap]

end TestVector

open TestVector

namespace Tally

variable (addr : UInt16) (port byte : UInt8) (accesses more : List Access)

@[simp] lemma inputs_of_nil : (of []).inputs = 0 := rfl
@[simp] lemma inputs_of_read : (of (.read addr byte :: accesses)).inputs = (of accesses).inputs := Nat.zero_add _
@[simp] lemma inputs_of_write : (of (.write addr byte :: accesses)).inputs = (of accesses).inputs := Nat.zero_add _
@[simp] lemma inputs_of_input : (of (.input port byte :: accesses)).inputs = (of accesses).inputs + 1 :=
  Nat.add_comm _ _
@[simp] lemma inputs_of_output : (of (.output port byte :: accesses)).inputs = (of accesses).inputs := Nat.zero_add _

lemma inputs_of_append : (of (accesses ++ more)).inputs = (of accesses).inputs + (of more).inputs := by
  rw [of_append]
  rfl

end Tally

/-- The bus `r'` answers as `r` does, as long as no addresses but those of `T` are asked for and no more than `n` bytes
are taken from the queue. -/
inductive Stands (T : List UInt16) (n : Nat) (r : Recorded FlatBus) : Recorded FlatBus → Prop where
  | mk (ram : Ram) (queue : List UInt8) (cells : ∀ a ∈ T, ram.get a = r.bus.ram.get a)
      (answers : queue.take n = r.bus.queue.take n) :
      Stands T n r { r with bus := { r.bus with ram, queue } }

namespace Stands

variable {α : Type} {T : List UInt16} {n : Nat} {r r' : Recorded FlatBus}

lemma accesses (h : Stands T n r r') : r'.accesses = r.accesses := by
  cases h
  rfl

lemma cells (h : Stands T n r r') {addr : UInt16} (ha : addr ∈ T) : r'.bus.ram.get addr = r.bus.ram.get addr := by
  obtain ⟨ram, queue, cells, answers⟩ := h
  exact cells addr ha

lemma atAddress (h : Stands T n r r') (t : Traffic) (addr : UInt16) : t.atAddress r' addr = t.atAddress r addr := by
  cases h
  rfl

lemma read (h : Stands T n r r') {addr : UInt16} (ha : addr ∈ T) :
    (Bus.read r' addr).1 = (Bus.read r addr).1 ∧ Stands T n (Bus.read r addr).2 (Bus.read r' addr).2 := by
  obtain ⟨ram, queue, cells, answers⟩ := h
  have hbyte : ram.get addr = r.bus.ram.get addr := cells addr ha
  simp only [Bus.read, hbyte]
  exact ⟨trivial, .mk ram queue cells answers⟩

lemma write (h : Stands T n r r') (addr : UInt16) (byte : UInt8) :
    Stands T n (Bus.write r addr byte) (Bus.write r' addr byte) := by
  obtain ⟨ram, queue, cells, answers⟩ := h
  refine .mk _ queue (fun a ha => ?_) answers
  simp only [Bus.write, Ram.get_set, cells a ha]

lemma input (h : Stands T (n + 1) r r') (port : UInt8) :
    (Bus.input r' port).1 = (Bus.input r port).1 ∧ Stands T n (Bus.input r port).2 (Bus.input r' port).2 := by
  obtain ⟨ram, queue, cells, answers⟩ := h
  have hn : queue.take n = r.bus.queue.take n := by
    simpa only [List.take_take, Nat.min_eq_left (Nat.le_succ n)] using congrArg (List.take n) answers
  simp only [Bus.input]
  split
  case isTrue => exact ⟨rfl, .mk ram queue cells hn⟩
  case isFalse =>
    cases queue with
    | nil =>
      cases hq : r.bus.queue with
      | nil => exact ⟨rfl, .mk ram [] cells (by rw [hq])⟩
      | cons b queue' => simp [hq] at answers
    | cons a queue =>
      cases hq : r.bus.queue with
      | nil => simp [hq] at answers
      | cons b queue' =>
        simp only [hq, List.take_succ_cons, List.cons.injEq] at answers
        obtain ⟨rfl, answers⟩ := answers
        exact ⟨rfl, .mk ram queue cells answers⟩

lemma output (h : Stands T n r r') (port byte : UInt8) :
    Stands T n (Bus.output r port byte) (Bus.output r' port byte) := by
  obtain ⟨ram, queue, cells, answers⟩ := h
  exact .mk ram queue cells answers

theorem run {d : Dialogue α} (h : Stands T ((Tally.of (d.accesses r)).inputs + n) r r')
    (hT : ∀ x ∈ d.accesses r, ∀ a ∈ address? x, a ∈ T) (log log' : Log) (traffic : Traffic) :
    (d.run r' log' traffic).result = (d.run r log traffic).result ∧
      (d.run r' log' traffic).traffic = (d.run r log traffic).traffic ∧
      Stands T n (d.run r log traffic).bus (d.run r' log' traffic).bus := by
  induction d generalizing r r' log log' traffic with
  | done => exact ⟨rfl, rfl, by simpa [Dialogue.accesses, Dialogue.run] using h⟩
  | read addr next ih =>
    simp only [Dialogue.accesses, List.forall_mem_cons, Tally.inputs_of_read] at h hT
    obtain ⟨hbyte, hstands⟩ := h.read (hT.1 addr rfl)
    simp only [Dialogue.run, h.atAddress, hbyte]
    exact ih _ hstands hT.2 _ _ _
  | write addr byte next ih =>
    simp only [Dialogue.accesses, List.forall_mem_cons, Tally.inputs_of_write] at h hT
    simp only [Dialogue.run, h.atAddress]
    exact ih (h.write addr byte) hT.2 _ _ _
  | input port next ih =>
    simp only [Dialogue.accesses, List.forall_mem_cons, Tally.inputs_of_input, Nat.add_right_comm] at h hT
    obtain ⟨hbyte, hstands⟩ := h.input port
    simp only [Dialogue.run, hbyte]
    exact ih _ hstands hT.2 _ _ _
  | output port byte next ih =>
    simp only [Dialogue.accesses, List.forall_mem_cons, Tally.inputs_of_output] at h hT
    exact ih (h.output port byte) hT.2 _ _ _
  | note event next ih => exact ih h hT _ _ _

end Stands

namespace Cpu

lemma stepTimes_succ {B : Type} [Bus B] (c : Cpu B) (k : Nat) : c.stepTimes (k + 1) =
    ((c.stepTimes k).1.push ((c.stepTimes k).2.step unbounded).1, ((c.stepTimes k).2.step unbounded).2) := by
  simp only [stepTimes, Nat.fold_succ]

def made {B : Type} [Bus B] (c : Cpu B) : StepKind → List Access
  | .response kind => (c.response kind).accesses c.bus
  | .instruction => c.core.untraced.accesses c.bus
  | _ => []

lemma Stepped.accesses {B : Type} [Bus B] {c : Cpu (Recorded B)} {budget t : Nat} {k : StepKind}
    {m : Machine (Recorded B)} {d : Idle.Detector} (h : c.Stepped budget k t m d) :
    m.bus.accesses.toList = c.bus.accesses.toList ++ c.made k := by
  cases h with
  | paused => exact (List.append_nil _).symm
  | response _ _ ht =>
    rw [ht, made, Dialogue.accesses_recorded]
    exact Dialogue.accesses_run_recorded _ _ _ _
  | halted => exact (List.append_nil _).symm
  | skipped => exact (List.append_nil _).symm
  | instruction =>
    rw [made, Dialogue.accesses_recorded]
    exact Dialogue.accesses_run_recorded _ _ _ _

structure Replays (T : List UInt16) (n : Nat) (c c' : Cpu (Recorded FlatBus)) : Prop where
  machine : c'.machine = { c.machine with bus := c'.bus }
  idle : c'.idle = c.idle
  bus : Stands T n c.bus c'.bus

namespace Replays

variable {T : List UInt16} {n budget : Nat} {c c' : Cpu (Recorded FlatBus)}

lemma core (h : Replays T n c c') : c'.core = c.core :=
  congrArg Machine.core h.machine

lemma stepKind (h : Replays T n c c') (budget : Nat) : c'.stepKind budget = c.stepKind budget := by
  have hl : c'.lifecycle = c.lifecycle := congrArg Machine.lifecycle h.machine
  have hp : c'.pending = c.pending := congrArg Machine.pending h.machine
  refine stepKind_congr h.core hl hp ?_
  simp only [skippable?, h.idle, regs, h.core]

lemma response (h : Replays T n c c') (kind : Interrupt) : c'.response kind = c.response kind :=
  response_congr h.core (congrArg Machine.vectorByte h.machine) kind

lemma after (h : Replays T n c c') (core : Core) (bus bus' : Recorded FlatBus) (cycles : Nat) :
    c'.after core bus' cycles = { c.after core bus cycles with bus := bus' } := by
  have hl : c'.lifecycle = c.lifecycle := congrArg Machine.lifecycle h.machine
  have ht : c'.total = c.total := congrArg Machine.total h.machine
  simp only [Cpu.after, h.machine, hl, ht]

lemma outcome (h : Replays T ((Tally.of (c.made .instruction)).inputs + n) c c')
    (hT : ∀ x ∈ c.made .instruction, ∀ a ∈ address? x, a ∈ T) :
    ∃ bus, c'.outcome = { c.outcome with bus } ∧ Stands T n c.outcome.bus bus := by
  obtain ⟨hresult, htraffic, hb⟩ := h.bus.run (d := c.core.untraced) hT {} {} {}
  have hmode : c'.clock.mode = c.clock.mode := congrArg (·.clock.mode) h.machine
  simp only [Cpu.outcome, Core.outcome, h.core, hmode, hresult, htraffic]
  exact ⟨_, rfl, hb⟩

variable {k : StepKind} {t t' : Nat} {m m' : Machine (Recorded FlatBus)} {d d' : Idle.Detector}

lemma stepped (h : Replays T ((Tally.of (c.made k)).inputs + n) c c')
    (hT : ∀ x ∈ c.made k, ∀ a ∈ address? x, a ∈ T) (hc : c.Stepped budget k t m d)
    (hc' : c'.Stepped budget k t' m' d') :
    t' = t ∧ m' = { m with bus := m'.bus } ∧ d' = d ∧ Stands T n m.bus m'.bus := by
  cases hc with
  | paused =>
    cases hc'
    have hb : Stands T n c.bus c'.bus := by simpa [made] using h.bus
    exact ⟨rfl, h.machine, h.idle, hb⟩
  | @response kind _ _ _ ht =>
    obtain ⟨-, rfl, rfl, rfl⟩ := hc'.of_response
    obtain ⟨hresult, -, hb⟩ := h.bus.run (d := c.response kind) hT {} {} {}
    subst ht
    simp only [h.response, hresult, h.core, h.idle]
    refine ⟨trivial, ?_, trivial, hb⟩
    exact congrArg (fun m : Machine _ => { m with pending := none })
      (h.after _ ((c.response kind).run c.bus {} {}).bus _ _)
  | halted =>
    cases hc'
    have hb : Stands T n c.bus c'.bus := by simpa [made] using h.bus
    have hregs : c'.regs = c.regs := congrArg Core.regs h.core
    simp only [h.core, hregs]
    exact ⟨trivial, h.after _ _ _ _, h.idle, hb⟩
  | skipped =>
    cases hc'
    have hb : Stands T n c.bus c'.bus := by simpa [made] using h.bus
    have hregs : c'.regs = c.regs := congrArg Core.regs h.core
    simp only [h.core, hregs, h.idle]
    exact ⟨trivial, h.after _ _ _ _, trivial, hb⟩
  | instruction =>
    have hinstruction := hc'.of_instruction
    obtain ⟨bus, ho, hb⟩ := h.outcome hT
    rw [ho] at hinstruction
    generalize c.outcome = o at hinstruction hb ⊢
    obtain ⟨rfl, rfl, rfl⟩ := hinstruction
    rw [h.idle]
    exact ⟨rfl, h.after _ _ _ _, rfl, hb⟩

theorem step (h : Replays T ((Tally.of (c.made (c.stepKind budget))).inputs + n) c c')
    (hT : ∀ x ∈ c.made (c.stepKind budget), ∀ a ∈ address? x, a ∈ T) :
    (c'.step budget).1 = (c.step budget).1 ∧ Replays T n (c.step budget).2 (c'.step budget).2 := by
  have hc' := c'.stepped budget
  rw [h.stepKind] at hc'
  obtain ⟨ht, hm, hd, hb⟩ := h.stepped hT (c.stepped budget) hc'
  exact ⟨ht, hm, hd, hb⟩

theorem stepTimes {k : Nat} (h : Replays T ((Tally.of ((c.stepTimes k).2.bus.accesses.toList)).inputs + n) c c')
    (hstart : c.bus.accesses = #[]) (hT : ∀ x ∈ (c.stepTimes k).2.bus.accesses.toList, ∀ a ∈ address? x, a ∈ T) :
    (c'.stepTimes k).1 = (c.stepTimes k).1 ∧ Replays T n (c.stepTimes k).2 (c'.stepTimes k).2 := by
  induction k generalizing n with
  | zero =>
    have hn : (Tally.of ((c.stepTimes 0).2.bus.accesses.toList)).inputs = 0 := by simp [Cpu.stepTimes, hstart]
    rw [hn, Nat.zero_add] at h
    exact ⟨rfl, h⟩
  | succ k ih =>
    have hmade := ((c.stepTimes k).2.stepped unbounded).accesses
    rw [show ((c.stepTimes k).2.step unbounded).2.machine.bus = (c.stepTimes (k + 1)).2.bus by
      rw [stepTimes_succ]; rfl] at hmade
    -- the answers that the last step takes are left over by the `k` before it
    rw [hmade, Tally.inputs_of_append, Nat.add_assoc] at h
    simp only [hmade, List.mem_append, or_imp, forall_and] at hT
    obtain ⟨htimes, hk⟩ := ih h hT.1
    obtain ⟨htime, hstep⟩ := hk.step hT.2
    rw [stepTimes_succ, stepTimes_succ]
    exact ⟨by rw [htimes, htime], hstep⟩

end Replays

/-- What a test vector keeps of the memory and of the port answers is enough. A new processor that holds the same
registers, but only the bytes that `k` steps put on the bus with zeros around them, and only the answers that they took,
takes the same steps again. -/
theorem stepTimes_replayed (memory : Ram) (regs : Registers) (queue : List UInt8) (k : Nat) :
    let x := (Cpu.setRegs { bus := TestVector.bus memory queue } regs).stepTimes k
    let accesses := x.2.bus.accesses.toList
    let state : State :=
      { State.ofRegisters regs with ram := (touched accesses).map fun addr => (addr, memory.get addr) }
    let answers := queue.take (Tally.of accesses).inputs
    let y := (Cpu.setRegs { bus := TestVector.bus state.memory answers } state.toRegisters).stepTimes k
    (∀ addr, addr ∈ touched accesses ↔ ∃ a ∈ accesses, address? a = some addr) ∧
    (∀ addr, state.memory.get addr = if addr ∈ touched accesses then memory.get addr else 0) ∧
    y.1 = x.1 ∧ y.2.bus.accesses = x.2.bus.accesses ∧ y.2.core = x.2.core ∧
    ∀ addr ∈ touched accesses, y.2.bus.bus.ram.get addr = x.2.bus.bus.ram.get addr := by
  intro x accesses state answers y
  have hmemory (addr : UInt16) := (State.ofRegisters regs).get_memory memory (touched accesses) addr
  have hbus : Stands (touched accesses) (Tally.of accesses).inputs (TestVector.bus memory queue)
      (TestVector.bus state.memory answers) := by
    refine .mk _ _ (fun a ha => (hmemory a).trans (if_pos ha)) ?_
    simp only [answers, TestVector.bus, List.take_take, Nat.min_self]
  have hstart : Replays (touched accesses) (Tally.of accesses).inputs
      (Cpu.setRegs { bus := TestVector.bus memory queue } regs)
      (Cpu.setRegs { bus := TestVector.bus state.memory answers } state.toRegisters) := by
    refine ⟨?_, rfl, hbus⟩
    rw [State.toRegisters_ofRegisters]
    rfl
  obtain ⟨htimes, h⟩ := hstart.stepTimes (n := 0) rfl fun a ha addr haddr => mem_touched.mpr ⟨a, ha, haddr⟩
  exact ⟨fun addr => mem_touched, hmemory, htimes, h.bus.accesses, h.core, fun addr => h.bus.cells⟩

end Cpu

end Z80Machine
