import Z80Machine.Proofs.Outcome

/-! What fetching asks for. The bytes of an instruction are read from the program counter on, each once and in order,
and the instruction is the one that they encode. -/

namespace Z80Machine

namespace Access

def readsFrom : UInt16 → List UInt8 → List Access
  | _, [] => []
  | addr, b :: bs => .read addr b :: readsFrom (addr + 1) bs

lemma tally_readsFrom (addr : UInt16) (bytes : List UInt8) :
    Tally.of (readsFrom addr bytes) = { reads := bytes.length } := by
  induction bytes generalizing addr with
  | nil => rfl
  | cons b bs ih =>
    rw [readsFrom, Tally.of, ih, List.length_cons, Nat.add_comm]
    rfl

end Access

namespace Encoding

variable {α : Type}

lemma Every.of_read {p : Nat → α → Prop} {e : Encoding α} {n : Nat} {bytes : List UInt8} {a : α} (h : e.Every p n)
    (hr : e.read? bytes = some (a, [])) : p (n + bytes.length) a := by
  induction e generalizing n bytes with
  | complete v =>
    obtain ⟨rfl, rfl⟩ : v = a ∧ bytes = [] := by simpa [read?] using hr
    exact h
  | more next ih =>
    cases bytes with
    | nil => simp [read?] at hr
    | cons b bs =>
      have hn := ih b (h b) hr
      rwa [Nat.add_assoc, Nat.add_comm 1] at hn

theorem always_fetch_read (e : Encoding α) (addr : UInt16) (bytes : List UInt8) (seen : List Access) :
    (e.fetch addr bytes).Always
      (fun s l => ∃ new, e.read? new = some (s.1, []) ∧ s.2 = bytes ++ new ∧
        l = seen ++ Access.readsFrom addr new) seen := by
  induction e generalizing addr bytes seen with
  | complete v => exact ⟨[], rfl, (List.append_nil _).symm, (List.append_nil _).symm⟩
  | more next ih =>
    intro b
    have hnext := ih b (addr + 1) (bytes ++ [b]) (seen ++ [.read addr b])
    refine hnext.mono ?_
    rintro s l ⟨new, hread, hbytes, hl⟩
    exact ⟨b :: new, hread, by simpa using hbytes, by simpa [Access.readsFrom] using hl⟩

end Encoding

namespace Instruction

structure Fetched (pc : UInt16) (opcode : UInt8) (i : Instruction) (e : Encoded) (bytes : List UInt8)
    (made : List Access) : Prop where
  read : (Encoding.ofOpcode opcode).read? bytes = some (e, [])
  instruction : i = e.toInstruction pc (opcode :: bytes)
  made : made = Access.readsFrom pc (opcode :: bytes)

lemma Fetched.faithful {pc : UInt16} {opcode : UInt8} {i : Instruction} {e : Encoded} {bytes : List UInt8}
    {made : List Access} (h : Fetched pc opcode i e bytes made) : e.Faithful (bytes.length + 1) := by
  rw [Nat.add_comm]
  exact (Encoding.ofOpcode_faithful opcode).of_read h.read

theorem always_fetched (pc : UInt16) :
    (fetchAt pc).Always (fun f l => ∃ e bytes, Fetched pc f.1 f.2 e bytes l) [] := by
  simp only [fetchAt, decode, Dialogue.bind_eq, Dialogue.pure_eq, Dialogue.always_bind, Dialogue.always_readByte,
    Dialogue.always_done]
  intro opcode
  have hfetch := (Encoding.ofOpcode opcode).always_fetch_read (pc + 1) [opcode] [.read pc opcode]
  refine hfetch.mono ?_
  rintro ⟨e, bytes⟩ l ⟨new, hread, hbytes, hl⟩
  refine ⟨e, new, hread, ?_, hl⟩
  rw [show bytes = opcode :: new from hbytes]

end Instruction

/-! An instruction in two parts: it is fetched, and then its operation is carried out. -/

namespace Core

variable {B : Type} [Bus B] (c : Core) (bus : B)

def fetched : Talk (UInt8 × Instruction) B :=
  (Instruction.fetchAt c.regs.pc).run bus {} {}

def upcoming : Instruction :=
  (c.fetched bus).result.2

def behind (i : Instruction) : Registers :=
  { (c.ready i).regs with pc := i.address + i.size }

def operated : Talk (Registers × Nat) B :=
  ((c.upcoming bus).op.onRegisters (c.upcoming bus).address (c.behind (c.upcoming bus))).run
    (c.fetched bus).bus (c.fetched bus).log (c.fetched bus).traffic

lemma untraced_result : (c.untraced.run bus {} {}).result.2 =
    ({ regs := (c.operated bus).result.1
       halted := c.halted || (c.upcoming bus).op matches .halt
       eiDelay := (c.upcoming bus).op matches .ei },
      (c.upcoming bus).tStates + (c.operated bus).result.2) := by
  simp only [untraced, Instruction.execute, Dialogue.bind_eq, Dialogue.pure_eq, Dialogue.run_bind, Dialogue.run]
  rfl

lemma untraced_bus : (c.untraced.run bus {} {}).bus = (c.operated bus).bus := by
  simp only [untraced, Instruction.execute, Dialogue.bind_eq, Dialogue.pure_eq, Dialogue.run_bind, Dialogue.run]
  rfl

lemma untraced_accesses : c.untraced.accesses bus = (Instruction.fetchAt c.regs.pc).accesses bus ++
    ((c.upcoming bus).op.onRegisters (c.upcoming bus).address (c.behind (c.upcoming bus))).accesses
      (c.fetched bus).bus := by
  simp only [untraced, Instruction.execute, Dialogue.bind_eq, Dialogue.pure_eq, Dialogue.accesses_bind _ _ _ {} {},
    Dialogue.accesses, List.append_nil]
  rfl

lemma outcome_instruction (mode : ClockMode) : (c.outcome mode bus).instruction = c.upcoming bus := by
  simp only [outcome, untraced, Dialogue.run_bind, Dialogue.run]
  rfl

lemma outcome_core (mode : ClockMode) : (c.outcome mode bus).core =
    { regs := (c.operated bus).result.1
      halted := c.halted || (c.upcoming bus).op matches .halt
      eiDelay := (c.upcoming bus).op matches .ei } :=
  congrArg Prod.fst (c.untraced_result bus)

end Core

end Z80Machine
