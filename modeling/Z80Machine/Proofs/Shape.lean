import Z80Machine.Instruction.Fetch
import Z80Machine.Proofs.Tally

/-! The declared shape of an instruction against the accesses it makes. Every encoding of the tables declares what its
operation does, fetches at least once, and takes at most 29 T-states with all wait states counted. -/

namespace Z80Machine

/-- The shape of an instruction of `n` bytes, those looked at beyond its end included, is true to its operation. -/
structure Encoded.Faithful (e : Encoded) (n : Nat) : Prop where
  reads : e.shape.fetches + e.shape.reads + e.ahead = n + (e.op.tally false).reads
  writes : e.shape.writes = (e.op.tally false).writes
  inputs : e.shape.inputs = (e.op.tally false).inputs
  outputs : e.shape.outputs = (e.op.tally false).outputs
  fetched : 1 ≤ e.shape.fetches
  time_le : ∀ taken, e.shape.tStates + e.op.overtime taken + n + (e.op.tally taken).memory +
    2 * (e.op.tally taken).ports ≤ 29

lemma Encoded.faithful_iff (e : Encoded) (n : Nat) : e.Faithful n ↔
    e.shape.fetches + e.shape.reads + e.ahead = n + (e.op.tally false).reads ∧
    e.shape.writes = (e.op.tally false).writes ∧ e.shape.inputs = (e.op.tally false).inputs ∧
    e.shape.outputs = (e.op.tally false).outputs ∧ 1 ≤ e.shape.fetches ∧
    ∀ taken, e.shape.tStates + e.op.overtime taken + n + (e.op.tally taken).memory +
      2 * (e.op.tally taken).ports ≤ 29 :=
  ⟨fun ⟨a, b, c, d, f, g⟩ => ⟨a, b, c, d, f, g⟩, fun ⟨a, b, c, d, f, g⟩ => ⟨a, b, c, d, f, g⟩⟩

namespace Encoding

open Encoded

variable {α β : Type}

def Every (p : Nat → α → Prop) : Nat → Encoding α → Prop
  | n, complete a => p n a
  | n, more next => ∀ b, (next b).Every p (n + 1)

@[simp] lemma bind_eq (e : Encoding α) (f : α → Encoding β) : e >>= f = e.bind f := rfl

@[simp] lemma pure_eq (a : α) : (pure a : Encoding α) = .complete a := rfl

@[simp] lemma every_complete {p : Nat → α → Prop} {n : Nat} (a : α) : (complete a).Every p n ↔ p n a := Iff.rfl

@[simp] lemma every_byte {p : Nat → UInt8 → Prop} {n : Nat} : byte.Every p n ↔ ∀ b, p (n + 1) b := Iff.rfl

@[simp] lemma every_bind {p : Nat → β → Prop} {n : Nat} (e : Encoding α) (f : α → Encoding β) :
    (e.bind f).Every p n ↔ e.Every (fun n a => (f a).Every p n) n := by
  induction e generalizing n with
  | complete a => rfl
  | more next ih => simp only [bind, Every, ih]

lemma always_fetch {p : Nat → α → Prop} (e : Encoding α) (addr : UInt16) (bytes : List UInt8) (seen : List Access)
    (h : e.Every p bytes.length) :
    (e.fetch addr bytes).Always
      (fun s l => p s.2.length s.1 ∧ bytes.length ≤ s.2.length ∧
        Tally.of l = Tally.of seen + { reads := s.2.length - bytes.length }) seen := by
  induction e generalizing addr bytes seen with
  | complete a => exact ⟨h, Nat.le_refl _, by simp⟩
  | more next ih =>
    intro b
    refine (ih b (addr + 1) (bytes ++ [b]) (seen ++ [.read addr b]) (by simpa using h b)).mono ?_
    rintro s l ⟨hp, hle, hl⟩
    have hle' : bytes.length + 1 ≤ s.2.length := by simpa using hle
    refine ⟨hp, by omega, ?_⟩
    rw [hl, Tally.of_append, Tally.of_read, Tally.add_assoc, Tally.reads_add_reads, List.length_append,
      List.length_singleton]
    congr 2
    omega

/-! The tables. `n` bytes have been fetched when a table is entered. -/

section

attribute [simp] CycleShape.addFetch CycleShape.addReads CycleShape.addWrites CycleShape.addInput
  CycleShape.addOutput CycleShape.addInternal CycleShape.tStates CycleShape.m1 Operand.cells Tally.memory Tally.ports
  Encoding.register

variable (y z : UInt8) (mode : IndexMode) {n : Nat}

@[simp] lemma every_word {p : Nat → UInt16 → Prop} :
    word.Every p n ↔ ∀ low high, p (n + 2) (Word.ofBytes high low) := Iff.rfl

@[simp] lemma every_memory {p : Nat → Operand × CycleShape → Prop} (shape : CycleShape) :
    (memory mode shape).Every p n ↔
      match mode with
      | .hl => p n (.indirect .hl, shape)
      | mode => ∀ offset, p (n + 1) (.indexed mode offset, (shape.addReads 1).addInternal 5) := by
  cases mode <;> rfl

-- After the splits there is one goal for each row of the table. The value of a row has to be laid open before its
-- tally is computed, since the tally of an operation not yet known matches every row.
lemma quarter0_faithful (hn : 1 ≤ n) (hn2 : n ≤ 2) :
    (quarter0 y z mode { fetches := n }).Every (fun n e => e.Faithful n) n := by
  unfold quarter0
  dsimp only
  repeat' split
  all_goals simp only [bind_eq, pure_eq, every_bind, every_byte, every_word, every_memory, every_complete]
  all_goals repeat' split
  all_goals
    simp [faithful_iff, Op.tally, Op.overtime]
    omega

lemma quarter1_faithful (hn : 1 ≤ n) (hn2 : n ≤ 2) :
    (quarter1 y z mode { fetches := n }).Every (fun n e => e.Faithful n) n := by
  unfold quarter1
  repeat' split
  all_goals simp only [bind_eq, pure_eq, every_bind, every_memory, every_complete]
  all_goals repeat' split
  all_goals
    simp [faithful_iff, Op.tally, Op.overtime]
    omega

lemma quarter2_faithful (hn : 1 ≤ n) (hn2 : n ≤ 2) :
    (quarter2 y z mode { fetches := n }).Every (fun n e => e.Faithful n) n := by
  unfold quarter2
  split
  all_goals simp only [bind_eq, pure_eq, every_bind, every_memory, every_complete]
  all_goals repeat' split
  all_goals
    simp [faithful_iff, Op.tally, Op.overtime]
    omega

lemma quarter3_faithful (opcode : UInt8) (hn : 1 ≤ n) (hn2 : n ≤ 2) :
    (quarter3 opcode y z mode { fetches := n }).Every (fun n e => e.Faithful n) n := by
  unfold quarter3
  dsimp only
  repeat' split
  all_goals simp only [bind_eq, pure_eq, every_bind, every_byte, every_word, every_complete]
  all_goals
    simp [faithful_iff, Op.tally, Op.overtime]
    omega

lemma mainTable_faithful (opcode : UInt8) (hn : 1 ≤ n) (hn2 : n ≤ 2) :
    (mainTable opcode mode { fetches := n }).Every (fun n e => e.Faithful n) n := by
  unfold mainTable
  dsimp only
  split
  · exact quarter0_faithful _ _ _ hn hn2
  · exact quarter1_faithful _ _ _ hn hn2
  · exact quarter2_faithful _ _ _ hn hn2
  · exact quarter3_faithful _ _ _ _ hn hn2

lemma bits_faithful (opcode : UInt8) : (bits opcode).Faithful 2 := by
  unfold bits bitFamily
  dsimp only
  repeat' split
  all_goals simp [faithful_iff, Op.tally, Op.overtime]

lemma indexedBits_faithful : (indexedBits mode).Every (fun n e => e.Faithful n) 2 := by
  simp only [indexedBits, bind_eq, pure_eq, every_bind, every_byte, every_complete]
  intro offset opcode
  unfold bitFamily
  dsimp only
  split <;> simp [faithful_iff, Op.tally, Op.overtime]

lemma extended_faithful (opcode : UInt8) : (extended opcode).Every (fun n e => e.Faithful n) 2 := by
  unfold extended
  dsimp only
  repeat' split
  all_goals simp only [bind_eq, pure_eq, every_bind, every_word, every_complete]
  all_goals simp [faithful_iff, Op.tally, Op.overtime]
  all_goals split <;> omega

lemma indexed_faithful : (indexed mode).Every (fun n e => e.Faithful n) 1 := by
  simp only [indexed, bind_eq, pure_eq, every_bind, every_byte]
  intro next
  split
  case h_4 => exact indexedBits_faithful mode
  case h_5 => exact mainTable_faithful mode next (by omega) (by omega)
  all_goals simp [faithful_iff, Op.tally, Op.overtime]

end

theorem ofOpcode_faithful (opcode : UInt8) : (ofOpcode opcode).Every (fun n e => e.Faithful n) 1 := by
  unfold ofOpcode
  split
  · exact fun b => bits_faithful b
  · exact fun b => extended_faithful b
  · exact indexed_faithful .ix
  · exact indexed_faithful .iy
  · exact mainTable_faithful .hl opcode (by omega) (by omega)

end Encoding

end Z80Machine
