import Z80Machine.Proofs.Cells
import Z80Machine.Proofs.Decoding
import Z80Machine.Proofs.Handler

/-! Operands behind an index register. The indexed forms do to their byte what the plain ones do to the byte behind HL,
touch no other, and leave H and L alone. -/

namespace Z80Machine

namespace CellOp

open Bus

variable {B : Type} [Bus B] (k : CellOp) (addr : UInt16) (copy : Option Register) (r : Registers)

def accesses (x : UInt8) : List Access :=
  (if k.looks then [.read addr x] else []) ++ (k.effect r x).stored.toList.map (Access.write addr)

lemma finish_blind (h : k.looks = false) (x y : UInt8) : k.finish addr copy r x = k.finish addr copy r y := by
  cases k <;> first | rfl | contradiction

lemma run_finish (x : UInt8) (b : B) (log : Log) (traffic : Traffic) :
    ((k.finish addr copy r x).run b log traffic).result = (k.after copy r x, 0) ∧
      ((k.finish addr copy r x).run b log traffic).bus = (k.effect r x).stored.elim b (write b addr) ∧
      (k.finish addr copy r x).accesses b = (k.effect r x).stored.toList.map (Access.write addr) := by
  unfold finish
  cases (k.effect r x).stored <;> exact ⟨rfl, rfl, rfl⟩

lemma run_visit [SteadyBus B] (b : B) (log : Log) (traffic : Traffic) :
    ((k.visit addr copy r).run b log traffic).result = (k.after copy r (peek b addr), 0) ∧
      ((k.visit addr copy r).run b log traffic).bus = (k.effect r (peek b addr)).stored.elim b (write b addr) ∧
      (k.visit addr copy r).accesses b = k.accesses addr r (peek b addr) := by
  cases h : k.looks with
  | true =>
    simp only [visit, accesses, h, if_true, Dialogue.run, Dialogue.accesses, SteadyBus.bus_read]
    obtain ⟨hresult, hbus, hmade⟩ := k.run_finish addr copy r (peek b addr) b log (traffic.atAddress b addr)
    exact ⟨hresult, hbus, congrArg _ hmade⟩
  | false =>
    simp only [visit, accesses, h, k.finish_blind addr copy r h 0 (peek b addr)]
    exact k.run_finish addr copy r (peek b addr) b log traffic

end CellOp

def Registers.behind (r : Registers) (pc : UInt16) (x : UInt8) : Registers :=
  { r with pc, r := x }

namespace CellOp

variable (k : CellOp) (copy : Option Register) (r : Registers)

lemma effect_behind (pc : UInt16) (x v : UInt8) : k.effect (r.behind pc x) v = k.effect r v := by
  cases k
  case give y => cases y <;> rfl
  all_goals rfl

lemma effect_setHl (h : k.moves = false) (w pc : UInt16) (x v : UInt8) :
    k.effect ((r.setHl w).behind pc x) v = k.effect r v := by
  cases k <;> first | rfl | contradiction

lemma dest_none (h : k.moves = false) : k.dest none = none := by
  cases k <;> first | rfl | contradiction

lemma f_after (v : UInt8) : (k.after copy r v).f = (k.effect r v).f := by
  unfold after
  cases k.dest copy with
  | none => rfl
  | some x => cases x <;> rfl

lemma a_after (h : k.dest copy ≠ some .a) (v : UInt8) : (k.after copy r v).a = (k.effect r v).a := by
  unfold after
  cases hd : k.dest copy with
  | none => rfl
  | some x => cases x <;> first | rfl | exact absurd hd h

lemma get_after {x : Register} (h : k.dest copy = some x) (v : UInt8) :
    (k.after copy r v).get x = k.moved r v := by
  unfold after
  rw [h]
  exact Registers.get_set _ _ _

lemma after_eq (v : UInt8) : k.after copy r v =
    { (k.dest copy).elim r (r.set · (k.moved r v)) with
      a := (k.after copy r v).a, f := (k.after copy r v).f } := by
  unfold after
  cases k.dest copy with
  | none => rfl
  | some x => cases x <;> rfl

end CellOp

namespace Cpu

open Bus

variable {B : Type} [Bus B] {c p : Cpu B} {k : CellOp} {ea : UInt16} {copy : Option Register}
  {bytes plain : List UInt8}

structure Works (c : Cpu B) (k : CellOp) (ea : UInt16) (copy : Option Register) (bytes : List UInt8) : Prop where
  regs : ∃ pc x, c.runInstruction.2.regs = k.after copy (c.regs.behind pc x) (peek c.bus ea)
  bus : c.runInstruction.2.bus = (k.effect c.regs (peek c.bus ea)).stored.elim c.bus (write c.bus ea)
  accesses : (c.core.cycle c.trace).accesses c.bus =
    Access.readsFrom c.regs.pc bytes ++ k.accesses ea c.regs (peek c.bus ea)

/-- Data memory is accessed at `ea` only, and of the registers only A, the flags, the program counter, the refresh
counter and the destination change. -/
structure Displaced (c : Cpu B) (ea : UInt16) (bytes : List UInt8) (dest : Option Register) : Prop where
  accesses : ∃ data, (c.core.cycle c.trace).accesses c.bus = Access.readsFrom c.regs.pc bytes ++ data ∧
    ∀ a ∈ data, ∃ x, a = .read ea x ∨ a = .write ea x
  others : let after := c.runInstruction.2.regs
    ∃ v, after = { dest.elim c.regs (c.regs.set · v) with
      a := after.a, f := after.f, pc := after.pc, r := after.r }

lemma Works.displaced (h : c.Works k ea copy bytes) : c.Displaced ea bytes (k.dest copy) := by
  refine ⟨⟨_, h.accesses, ?_⟩, ?_⟩
  · intro a ha
    obtain ha | ha := List.mem_append.mp ha
    · cases hl : k.looks <;> simp_all
    · obtain ⟨y, -, rfl⟩ := List.mem_map.mp ha
      exact ⟨y, .inr rfl⟩
  · obtain ⟨pc, x, hregs⟩ := h.regs
    intro after
    refine ⟨k.moved (c.regs.behind pc x) (peek c.bus ea), ?_⟩
    have hafter : after = k.after copy (c.regs.behind pc x) (peek c.bus ea) := hregs
    rw [hafter, k.after_eq]
    cases k.dest copy with
    | none => rfl
    | some y => cases y <;> rfl

lemma Works.stored (h : c.Works k ea copy bytes) {v : UInt8}
    (hv : (k.effect c.regs (peek c.bus ea)).stored = some v) :
    c.runInstruction.2.bus = write c.bus ea v ∧
      Access.write ea v ∈ (c.core.cycle c.trace).accesses c.bus ∧
      ∀ x ∈ k.dest copy, c.runInstruction.2.regs.get x = v := by
  refine ⟨?_, ?_, fun x hx => ?_⟩
  · rw [h.bus, hv]
    rfl
  · rw [h.accesses, CellOp.accesses, hv]
    simp
  · obtain ⟨pc, y, hregs⟩ := h.regs
    rw [hregs, k.get_after copy _ hx, CellOp.moved, k.effect_behind, hv]
    rfl

/-- `p` has an instruction with the operand (HL) before it and the registers of `c`, but HL holds `ea`, where it finds
the same byte and can do the same to it. -/
structure Beside (c : Cpu B) (ea : UInt16) (p : Cpu B) : Prop where
  regs : ∃ pc x, p.regs = (c.regs.setHl ea).behind pc x
  cell : peek p.bus ea = peek c.bus ea
  written : ∀ v, peek (write p.bus ea v) ea = peek (write c.bus ea v) ea

structure Agrees (c : Cpu B) (ea : UInt16) (copy : Option Register) (p : Cpu B) : Prop where
  f : c.runInstruction.2.regs.f = p.runInstruction.2.regs.f
  cell : peek c.runInstruction.2.bus ea = peek p.runInstruction.2.bus ea
  a : copy ≠ some .a → c.runInstruction.2.regs.a = p.runInstruction.2.regs.a

lemma Works.agrees (hc : c.Works k ea copy bytes) (hp : p.Works k ea none plain) (h : c.Beside ea p)
    (hk : k.moves = false) : c.Agrees ea (k.dest copy) p := by
  obtain ⟨pc, x, hregs⟩ := h.regs
  have heffect : k.effect p.regs (peek p.bus ea) = k.effect c.regs (peek c.bus ea) := by
    rw [hregs, k.effect_setHl c.regs hk, h.cell]
  obtain ⟨pc, x, hc'⟩ := hc.regs
  obtain ⟨pc', x', hp'⟩ := hp.regs
  refine ⟨?_, ?_, fun hcopy => ?_⟩
  · rw [hc', hp', k.f_after, k.f_after, k.effect_behind, k.effect_behind, heffect]
  · rw [hc.bus, hp.bus, heffect]
    cases (k.effect c.regs (peek c.bus ea)).stored with
    | none => exact h.cell.symm
    | some y => exact (h.written y).symm
  · have hnone : k.dest none ≠ some .a := by
      rw [k.dest_none hk]
      exact (Option.some_ne_none _).symm
    rw [hc', hp', k.a_after _ _ hcopy, k.a_after _ _ hnone, k.effect_behind, k.effect_behind, heffect]

variable [SteadyBus B]

theorem works_of_held {opcode : UInt8} {rest : List UInt8} {o : Operand} {shape : CycleShape}
    (hb : Holds c.bus c.regs.pc (opcode :: rest))
    (hr : (Encoding.ofOpcode opcode).read? rest = some (⟨k.op o copy, shape, 0⟩, []))
    (ho : ∀ pc x address, (k.op o copy).onRegisters address (c.regs.behind pc x) =
      k.visit ea copy (c.regs.behind pc x)) : c.Works k ea copy (opcode :: rest) := by
  let i := (⟨k.op o copy, shape, 0⟩ : Encoded).toInstruction c.regs.pc (opcode :: rest)
  obtain ⟨pc, x, hbehind⟩ : ∃ pc x, c.core.behind i = c.regs.behind pc x := ⟨_, _, rfl⟩
  have hop : i.op.onRegisters i.address (c.core.behind i) = k.visit ea copy (c.regs.behind pc x) := by
    rw [hbehind]
    exact ho pc x c.regs.pc
  have hvisit (log : Log) (traffic : Traffic) :
      let t := (i.op.onRegisters i.address (c.core.behind i)).run c.bus log traffic
      t.result = (k.after copy (c.regs.behind pc x) (peek c.bus ea), 0) ∧
        t.bus = (k.effect c.regs (peek c.bus ea)).stored.elim c.bus (write c.bus ea) := by
    obtain ⟨hresult, hbus, -⟩ := k.run_visit ea copy (c.regs.behind pc x) c.bus log traffic
    rw [k.effect_behind] at hbus
    rw [hop]
    exact ⟨hresult, hbus⟩
  obtain ⟨-, hcore, hbus, -⟩ := c.core.outcome_held c.clock.mode hb hr hvisit
  obtain ⟨trace, log, hrun⟩ := c.runInstruction_eq
  refine ⟨⟨pc, x, ?_⟩, ?_, ?_⟩
  · rw [hrun]
    exact congrArg Core.regs hcore
  · rw [hrun]
    exact hbus
  · obtain ⟨hupcoming, hfetched⟩ := c.core.fetched_of_holds c.bus hb hr
    obtain ⟨-, -, hmade⟩ := k.run_visit ea copy (c.regs.behind pc x) c.bus {} {}
    rw [CellOp.accesses, k.effect_behind] at hmade
    rw [c.core.cycle_accesses, c.core.untraced_accesses, hupcoming, hfetched]
    refine congrArg₂ _ (Instruction.fetchAt_accesses hb hr) ?_
    exact (congrArg (·.accesses c.bus) hop).trans hmade

lemma works_indirect {opcode : UInt8} {rest : List UInt8} {shape : CycleShape}
    (hb : Holds p.bus p.regs.pc (opcode :: rest))
    (hr : (Encoding.ofOpcode opcode).read? rest = some (⟨k.op (.indirect .hl) none, shape, 0⟩, []))
    (h : c.Beside ea p) : p.Works k ea none (opcode :: rest) := by
  refine works_of_held hb hr fun pc x address => ?_
  obtain ⟨pc', x', hregs⟩ := h.regs
  have hhl : (p.regs.behind pc x).hl = ea := by
    rw [hregs]
    exact Registers.getPair_setPair c.regs .hl ea
  rw [k.onRegisters_indirect, hhl]

lemma works_indexed {mode : IndexMode} {offset selector : UInt8} {rest : List UInt8} {shape : CycleShape}
    (hb : Holds c.bus c.regs.pc (selector :: rest))
    (hr : (Encoding.ofOpcode selector).read? rest = some (⟨k.op (.indexed mode offset) copy, shape, 0⟩, [])) :
    c.Works k (c.regs.getPair mode.pair + Byte.signExtend offset) copy (selector :: rest) := by
  refine works_of_held hb hr fun pc x address => ?_
  have hpair : (c.regs.behind pc x).getPair mode.pair = c.regs.getPair mode.pair := by
    cases mode <;> rfl
  rw [k.onRegisters_indexed, hpair]

open Encoding

section

variable {mode : IndexMode} {selector offset opcode : UInt8} {rest : List UInt8}

lemma works_main (hm : mode.selector? = some selector) (hcell : memoryHl opcode = true)
    (hlen : rest.length = if opcode = 0x36 then 1 else 0)
    (hb : Holds c.bus c.regs.pc (selector :: opcode :: offset :: rest)) :
    c.Works (cellOp opcode rest) (c.regs.getPair mode.pair + Byte.signExtend offset) none
      (selector :: opcode :: offset :: rest) := by
  obtain ⟨shape, hr⟩ := read_displaced hm offset hcell hlen
  exact works_indexed hb hr

lemma works_bit (hm : mode.selector? = some selector) (hb : Holds c.bus c.regs.pc [selector, 0xCB, offset, opcode]) :
    c.Works (bitOp opcode) (c.regs.getPair mode.pair + Byte.signExtend offset)
      (Register.ofField? (fieldZ opcode) .hl) [selector, 0xCB, offset, opcode] := by
  obtain ⟨shape, hr⟩ := read_displacedBit hm offset opcode
  exact works_indexed hb hr

end

/-- Operands behind an index register, in the main table and behind CB. -/
theorem indexed_operands (c : Cpu B) {mode : IndexMode} {selector : UInt8} (hm : mode.selector? = some selector)
    (offset : UInt8) :
    let ea := c.regs.getPair mode.pair + Byte.signExtend offset
    let after := c.runInstruction.2
    (∀ opcode rest, memoryHl opcode = true → rest.length = (if opcode = 0x36 then 1 else 0) →
      Holds c.bus c.regs.pc (selector :: opcode :: offset :: rest) →
      (fieldX opcode ≠ 1 → c.Displaced ea (selector :: opcode :: offset :: rest) none ∧
        ∀ p, c.Beside ea p → Holds p.bus p.regs.pc (opcode :: rest) → c.Agrees ea none p) ∧
      (fieldX opcode = 1 → fieldZ opcode = 6 → ∃ x, Register.ofField? (fieldY opcode) .hl = some x ∧
        c.Displaced ea (selector :: opcode :: offset :: rest) (some x) ∧
        after.regs.get x = peek c.bus ea ∧ after.bus = c.bus) ∧
      (fieldX opcode = 1 → fieldZ opcode ≠ 6 → ∃ x, Register.ofField? (fieldZ opcode) .hl = some x ∧
        c.Displaced ea (selector :: opcode :: offset :: rest) none ∧
        after.bus = write c.bus ea (c.regs.get x))) ∧
    ∀ opcode, Holds c.bus c.regs.pc [selector, 0xCB, offset, opcode] →
      let copy := if fieldX opcode = 1 then none else Register.ofField? (fieldZ opcode) .hl
      c.Displaced ea [selector, 0xCB, offset, opcode] copy ∧
      (∀ p, c.Beside ea p → Holds p.bus p.regs.pc [0xCB, opcode / 8 * 8 + 6] → c.Agrees ea copy p) ∧
      (fieldX opcode ≠ 1 → ∃ v, after.bus = write c.bus ea v ∧
        Access.write ea v ∈ (c.core.cycle c.trace).accesses c.bus ∧ ∀ x ∈ copy, after.regs.get x = v) := by
  intro ea after
  refine ⟨fun opcode rest hcell hlen hb => ?_, fun opcode hb => ?_⟩
  · have hworks := works_main hm hcell hlen hb
    refine ⟨fun hx => ?_, fun hx hz => ?_, fun hx hz => ?_⟩
    · have hmoves := cellOp_moves hx rest
      have hdest := CellOp.dest_none _ hmoves
      refine ⟨hdest ▸ hworks.displaced, fun p hp hplain => ?_⟩
      obtain ⟨shape, hr⟩ := read_plain hcell hlen
      exact hdest ▸ hworks.agrees (works_indirect hplain hr hp) hp hmoves
    · obtain ⟨x, hfield, hop⟩ := cellOp_take hcell hx hz rest
      rw [hop] at hworks
      obtain ⟨pc, y, hregs⟩ := hworks.regs
      refine ⟨x, hfield, hworks.displaced, ?_, hworks.bus⟩
      exact (congrArg (·.get x) hregs).trans (CellOp.get_after (.take x) none _ rfl _)
    · obtain ⟨x, hfield, hop⟩ := cellOp_give hx hz rest
      rw [hop] at hworks
      exact ⟨x, hfield, hworks.displaced, hworks.bus⟩
  · have hworks := works_bit hm hb
    intro copy
    have hdest : (bitOp opcode).dest (Register.ofField? (fieldZ opcode) .hl) = copy := bitOp_dest opcode _
    refine ⟨hdest ▸ hworks.displaced, fun p hp hplain => ?_, fun hx => ?_⟩
    · obtain ⟨shape, hr⟩ := read_plainBit opcode
      exact hdest ▸ hworks.agrees (works_indirect hplain hr hp) hp (bitOp_moves opcode)
    · obtain ⟨v, hv⟩ := bitOp_stored hx c.regs (peek c.bus ea)
      exact ⟨v, hdest ▸ hworks.stored hv⟩

/-- `RLC (IX-1)` with a copy in B, beside `RLC (HL)`. -/
theorem indexed_operands_rotated :
    let memory (code : List UInt8) : FlatBus := { ram := (Ram.empty.setAll 0 code).set 0x10 0x81 }
    let c : Cpu FlatBus :=
      { bus := memory [0xDD, 0xCB, 0xFF, 0x00], core := { regs := { h := 1, l := 2, ix := 0x11 } } }
    let p : Cpu FlatBus := { bus := memory [0xCB, 0x06], core := { regs := { l := 0x10, ix := 0x11 } } }
    IndexMode.ix.selector? = some 0xDD ∧ Holds c.bus 0 [0xDD, 0xCB, 0xFF, 0x00] ∧ Holds p.bus 0 [0xCB, 0x06] ∧
      c.Beside 0x10 p ∧ c.Displaced 0x10 [0xDD, 0xCB, 0xFF, 0x00] (some .b) ∧ c.Agrees 0x10 (some .b) p := by
  intro memory c p
  have hc : Holds c.bus 0 [0xDD, 0xCB, 0xFF, 0x00] := by decide +kernel
  have hp : Holds p.bus 0 [0xCB, 0x06] := by decide +kernel
  have hbeside : c.Beside 0x10 p := by
    refine ⟨⟨0, 0, rfl⟩, ?_, fun v => ?_⟩
    · simp [peek, Bus.read, c, p, memory]
    · simp [peek, Bus.read, Bus.write]
  have hea : c.regs.getPair IndexMode.ix.pair + Byte.signExtend 0xFF = 0x10 := by decide +kernel
  have hcopy : (if fieldX 0x00 = 1 then none else Register.ofField? (fieldZ 0x00) .hl) = some .b := by decide +kernel
  have h := (indexed_operands c (show IndexMode.ix.selector? = some 0xDD from rfl) 0xFF).2 0x00 hc
  simp only [hea, hcopy] at h
  obtain ⟨hdisplaced, hagrees, -⟩ := h
  exact ⟨rfl, hc, hp, hbeside, hdisplaced, hagrees p hbeside hp⟩

end Cpu

end Z80Machine
