import Z80Machine.Proofs.Assembly
import Z80Machine.Proofs.Decoding
import Z80Machine.Proofs.Prefixes

/-! Instructions and their texts. Two that are written alike have the same operation, and if they end at the same place
they do the same, but for the time that they declare. -/

namespace Z80Machine

def Op.Anchored : Op → Prop
  | block _ _ _ | unknown (some _) _ => True
  | _ => False

lemma Op.onRegisters_address {op : Op} (hknown : ∀ opcode, op ≠ unknown none opcode) (h : ¬ op.Anchored)
    (address address' : UInt16) (r : Registers) : op.onRegisters address r = op.onRegisters address' r := by
  cases op with
  | block => exact absurd trivial h
  | unknown lead opcode =>
    cases lead with
    | none => exact absurd rfl (hknown opcode)
    | some lead => exact absurd trivial h
  | _ => rfl

lemma Op.unanchored_of_unwired {op : Op} (h : op.wired = false) : ¬ op.Anchored := by
  cases op with
  | block | unknown => cases h
  | _ => exact id

/-! Anchored operations in the tables -/

namespace Encoding

variable (opcode y z : UInt8) (mode : IndexMode) (start : CycleShape) (n : Nat)

lemma quarter3_unanchored : (quarter3 opcode y z mode start).Every (fun _ e => ¬ e.op.Anchored) n := by
  unfold quarter3
  dsimp only
  repeat' split
  all_goals simp [Op.Anchored]

lemma mainTable_unanchored : (mainTable opcode mode start).Every (fun _ e => ¬ e.op.Anchored) n := by
  have hunwired {g : Encoding Encoded} (h : g.Every (fun _ e => e.op.wired = false) n) :
      g.Every (fun _ e => ¬ e.op.Anchored) n := h.mono fun _ _ => Op.unanchored_of_unwired
  unfold mainTable
  dsimp only
  split
  · exact hunwired (quarter0_unwired ..)
  · exact hunwired (quarter1_unwired ..)
  · exact hunwired (quarter2_unwired ..)
  · exact quarter3_unanchored _ _ _ _ _ n

lemma bitFamily_unanchored (target : Operand) (copy : Option Register) (tested changed : CycleShape) :
    ¬ (bitFamily opcode target copy tested changed).op.Anchored := by
  unfold bitFamily
  dsimp only
  split
  all_goals exact id

lemma bits_unanchored : ¬ (bits opcode).op.Anchored := by
  unfold bits
  dsimp only
  split
  all_goals exact bitFamily_unanchored _ _ _ _ _

lemma extended_anchored : (extended opcode).Every (fun n e => e.op.Anchored → n = 2) 2 := by
  unfold extended
  dsimp only
  repeat' split
  all_goals simp [Op.Anchored]

lemma indexed_unanchored : (indexed mode).Every (fun _ e => ¬ e.op.Anchored) n := by
  simp only [indexed, bind_eq, pure_eq, every_bind, every_byte]
  intro next
  split
  case h_4 => exact fun _ _ => bitFamily_unanchored _ _ _ _ _
  case h_5 => exact mainTable_unanchored next mode _ _
  all_goals exact id

lemma size_of_anchored {first : UInt8} {rest : List UInt8} {e : Encoded}
    (hr : (ofOpcode first).read? rest = some (e, [])) (h : e.op.Anchored) : rest.length + 1 = 2 := by
  unfold ofOpcode at hr
  split at hr
  case h_1 =>
    obtain ⟨b, bs, rfl, hread⟩ := byte_of_read hr
    obtain ⟨rfl, rfl⟩ := Prod.mk.inj (Option.some.inj hread)
    exact absurd h (bits_unanchored b)
  case h_2 =>
    obtain ⟨b, bs, rfl, hread⟩ := byte_of_read hr
    have hsize := (extended_anchored b).of_read hread h
    rw [List.length_cons]
    omega
  case h_3 => exact absurd h ((indexed_unanchored .ix 0).of_read hr)
  case h_4 => exact absurd h ((indexed_unanchored .iy 0).of_read hr)
  case h_5 => exact absurd h ((mainTable_unanchored first .hl _ 0).of_read hr)

end Encoding

namespace Instruction

open Encoding

/-- The instruction at an address that is decoded from bytes, if they are all looked at for it and no more are needed. -/
def ofBytes? (address : UInt16) : List UInt8 → Option Instruction
  | [] => none
  | opcode :: rest =>
    match (ofOpcode opcode).read? rest with
    | some (e, []) => some (e.toInstruction address (opcode :: rest))
    | _ => none

/-- Run from the same registers, the two hold one dialogue with the bus. They leave the same behind, and the times that
they take differ as those that they declare. -/
def ActsAs (i j : Instruction) : Prop :=
  ∀ c : Core, ∃ d : Dialogue (Core × Nat),
    i.execute c = d.bind (fun s => .done (s.1, i.tStates + s.2)) ∧
      j.execute c = d.bind (fun s => .done (s.1, j.tStates + s.2))

variable {i j : Instruction} {address : UInt16} {bytes : List UInt8}

lemma exists_read (h : ofBytes? address bytes = some i) : ∃ opcode rest e, bytes = opcode :: rest ∧
    (ofOpcode opcode).read? rest = some (e, []) ∧ i = e.toInstruction address (opcode :: rest) := by
  fun_cases ofBytes? address bytes with
  | case1 => cases h
  | case2 opcode rest e hr =>
    refine ⟨opcode, rest, e, rfl, hr, ?_⟩
    rw [ofBytes?, hr] at h
    exact (Option.some.inj h).symm
  | case3 opcode rest hr =>
    rw [ofBytes?] at h
    split at h
    · next e hr' => exact absurd hr' (hr e)
    · cases h

lemma ofBytes_eq_some {opcode : UInt8} {rest : List UInt8} {e : Encoded}
    (hr : (ofOpcode opcode).read? rest = some (e, [])) :
    ofBytes? address (opcode :: rest) = some (e.toInstruction address (opcode :: rest)) := by
  rw [ofBytes?, hr]

lemma exists_ofBytes {B : Type} [Bus B] (opcode : UInt8) (pc : UInt16) (bus : B) (log : Log) (traffic : Traffic) :
    ∃ rest, Bus.Answers bus (pc + 1) rest ∧
      ofBytes? pc (opcode :: rest) = some ((decode opcode pc).run bus log traffic).result := by
  obtain ⟨rest, e, hb, hr⟩ := (ofOpcode opcode).exists_answers bus (pc + 1)
  exact ⟨rest, hb, (decode_of_answers hb hr log traffic).1 ▸ ofBytes_eq_some hr⟩

lemma decoded_of_ofBytes {opcode : UInt8} {rest : List UInt8} {e : Encoded}
    (hr : (ofOpcode opcode).read? rest = some (e, [])) :
    Decoded opcode (rest.headD 0) rest (e.toInstruction address (opcode :: rest)) :=
  decoded_of_read hr fun x hx => by rw [List.headD_eq_head?_getD, Option.mem_def.mp hx, Option.getD_some]

lemma size_eq_two (h : ofBytes? address bytes = some i) (ha : i.op.Anchored) : i.size = 2 := by
  obtain ⟨opcode, rest, e, rfl, hr, rfl⟩ := exists_read h
  have hlength := size_of_anchored hr ha
  have hdecoded : Decoded opcode (rest.headD 0) rest (e.toInstruction address (opcode :: rest)) :=
    decoded_of_ofBytes hr
  have hdead : ¬ DeadPrefix opcode (rest.headD 0) := by
    intro hdead
    obtain ⟨-, hop, -, -⟩ := hdecoded.alone hdead
    rw [hop] at ha
    exact ha
  apply UInt16.toNat_inj.mp
  rw [(hdecoded.whole hdead).1, hlength]
  rfl

lemma actsAs (hop : i.op = j.op) (hend : i.address + i.size = j.address + j.size)
    (haddress : i.address = j.address ∨ ¬ i.op.Anchored ∧ ∀ opcode, i.op ≠ .unknown none opcode) : i.ActsAs j := by
  intro c
  have hregisters (r : Registers) : j.op.onRegisters j.address r = i.op.onRegisters i.address r := by
    rw [← hop]
    rcases haddress with haddress | ⟨hanchored, hknown⟩
    · rw [haddress]
    · exact Op.onRegisters_address hknown hanchored _ _ r
  refine ⟨(i.execute c).bind fun s => .done (s.1, s.2 - i.tStates), ?_, ?_⟩
  · simp only [execute, Dialogue.bind_eq, Dialogue.pure_eq, Dialogue.bind_assoc, Dialogue.done_bind,
      Nat.add_sub_cancel_left]
  · simp only [execute, Dialogue.bind_eq, Dialogue.pure_eq, Dialogue.bind_assoc, Dialogue.done_bind,
      Nat.add_sub_cancel_left, hregisters, ← hend, hop]

/-- From its text an instruction is known but for its place, its bytes and the time that it declares. -/
theorem text_tells_op :
    (∀ (s : String) (op : Op), Op.ofText? s = some op ↔ op.text = s) ∧
      (∀ (B : Type) [Bus B] (opcode : UInt8) (pc : UInt16) (bus : B) (log : Log) (traffic : Traffic),
        ∃ rest, Bus.Answers bus (pc + 1) rest ∧
          ofBytes? pc (opcode :: rest) = some ((decode opcode pc).run bus log traffic).result) ∧
      (∀ (address address' : UInt16) (bytes bytes' : List UInt8) (i j : Instruction),
        ofBytes? address bytes = some i → ofBytes? address' bytes' = some j → i.op.text = j.op.text →
        i.op = j.op ∧ ActsAs { i with address := j.address, size := j.size } j ∧
          (i.address + i.size = j.address + j.size → i.ActsAs j)) ∧
      (∀ address, ∀ second ∈ [0x44, 0x4C, 0x54, 0x5C, 0x64, 0x6C, 0x74, 0x7C],
        (ofBytes? address [0xED, second]).map op = some .neg) ∧
      ∀ address low high,
        (ofBytes? address [0x2A, low, high]).map op = some (.fetchPair .hl (Word.ofBytes high low)) ∧
          (ofBytes? address [0xED, 0x6B, low, high]).map op = some (.fetchPair .hl (Word.ofBytes high low)) ∧
          (ofBytes? address [0x22, low, high]).map op = some (.storePair (Word.ofBytes high low) .hl) ∧
          (ofBytes? address [0xED, 0x63, low, high]).map op = some (.storePair (Word.ofBytes high low) .hl) := by
  refine ⟨fun _ _ => Op.ofText_iff_text, fun _ _ => exists_ofBytes, ?_, ?_, fun _ _ _ => ⟨rfl, rfl, rfl, rfl⟩⟩
  · intro address address' bytes bytes' i j hi hj htext
    have hop : i.op = j.op := Op.text_injective htext
    refine ⟨hop, actsAs hop rfl (.inl rfl), fun hend => actsAs hop hend ?_⟩
    by_cases hanchored : i.op.Anchored
    · have hsize : i.size = j.size := (size_eq_two hi hanchored).trans (size_eq_two hj (hop ▸ hanchored)).symm
      rw [hsize] at hend
      exact .inl ((UInt16.add_left_inj j.size).mp hend)
    · obtain ⟨opcode, rest, e, -, hr, rfl⟩ := exists_read hi
      exact .inr ⟨hanchored, (decoded_of_ofBytes hr).known⟩
  · intro address
    simp only [List.forall_mem_cons]
    exact ⟨rfl, rfl, rfl, rfl, rfl, rfl, rfl, rfl, List.forall_mem_nil _⟩

end Instruction

end Z80Machine
