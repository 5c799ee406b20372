import Z80Machine.Proofs.Rows
import Z80Machine.Proofs.Stack

/-! What the decoder takes from memory. It reads the rest of the instruction, byte after byte, and stops; what it comes
to is a function of these bytes, on whatever bus they were found. -/

namespace Z80Machine

namespace Bus

variable {B : Type} [Bus B]

/-- Asked for one address after another, the bus answers with these bytes. -/
def Answers (b : B) (addr : UInt16) : List UInt8 → Prop
  | [] => True
  | x :: xs => (read b addr).1 = x ∧ Answers (read b addr).2 (addr + 1) xs

lemma answers_iff_holds [SteadyBus B] (b : B) (addr : UInt16) (bytes : List UInt8) :
    Answers b addr bytes ↔ Holds b addr bytes := by
  induction bytes generalizing addr with
  | nil => exact iff_of_true trivial rfl
  | cons x xs ih => rw [Answers, SteadyBus.bus_read, ih, holds_cons, peek]

end Bus

namespace Encoding

variable {α B : Type} [Bus B]

lemma exists_answers (e : Encoding α) (b : B) (addr : UInt16) :
    ∃ bytes v, Bus.Answers b addr bytes ∧ e.read? bytes = some (v, []) := by
  induction e generalizing b addr with
  | complete v => exact ⟨[], v, trivial, rfl⟩
  | more next ih =>
    obtain ⟨bytes, v, hb, hr⟩ := ih (Bus.read b addr).1 (Bus.read b addr).2 (addr + 1)
    exact ⟨_ :: bytes, v, ⟨rfl, hb⟩, hr⟩

theorem fetch_of_answers (e : Encoding α) {b : B} {addr : UInt16} {bytes : List UInt8} {v : α}
    (hb : Bus.Answers b addr bytes) (hr : e.read? bytes = some (v, [])) (seen : List UInt8) (log : Log)
    (traffic : Traffic) :
    ((e.fetch addr seen).run b log traffic).result = (v, seen ++ bytes) ∧
      (e.fetch addr seen).accesses b = Access.readsFrom addr bytes := by
  induction e generalizing b addr bytes seen traffic with
  | complete w =>
    obtain ⟨rfl, rfl⟩ : w = v ∧ bytes = [] := by simpa [read?] using hr
    exact ⟨by rw [List.append_nil]; rfl, rfl⟩
  | more next ih =>
    cases bytes with
    | nil => simp [read?] at hr
    | cons x bytes =>
      obtain ⟨rfl, hbytes⟩ := hb
      obtain ⟨hresult, hmade⟩ := ih _ hbytes hr (seen ++ [(Bus.read b addr).1]) (traffic.atAddress b addr)
      rw [List.append_assoc] at hresult
      exact ⟨hresult, congrArg _ hmade⟩

lemma op_of_deadPrefix {first second : UInt8} (h : DeadPrefix first second) {rest : List UInt8} {e : Encoded}
    (hr : (ofOpcode first).read? (second :: rest) = some (e, [])) : rest = [] ∧ e.op = .nop ∧ e.ahead = 1 := by
  obtain ⟨rfl | rfl, rfl | rfl | rfl⟩ := h
  all_goals
    obtain ⟨rfl, rfl⟩ := Prod.mk.inj (Option.some.inj hr)
    exact ⟨rfl, rfl, rfl⟩

end Encoding

namespace Instruction

open Encoding

variable {B : Type} [Bus B] {opcode : UInt8} {pc : UInt16} {bus : B} {bytes : List UInt8} {e : Encoded}

lemma decode_of_answers (hb : Bus.Answers bus (pc + 1) bytes) (hr : (ofOpcode opcode).read? bytes = some (e, []))
    (log : Log) (traffic : Traffic) :
    ((decode opcode pc).run bus log traffic).result = e.toInstruction pc (opcode :: bytes) ∧
      (decode opcode pc).accesses bus = Access.readsFrom (pc + 1) bytes := by
  obtain ⟨hresult, hmade⟩ := fetch_of_answers (ofOpcode opcode) hb hr [opcode] log traffic
  simp only [decode, Dialogue.bind_eq, Dialogue.pure_eq, Dialogue.run_bind, Dialogue.run,
    Dialogue.accesses_bind _ _ _ {} {}, Dialogue.accesses, List.append_nil, hresult]
  exact ⟨rfl, hmade⟩

lemma fetchAt_accesses [SteadyBus B] (hb : Bus.Holds bus pc (opcode :: bytes))
    (hr : (ofOpcode opcode).read? bytes = some (e, [])) :
    (fetchAt pc).accesses bus = Access.readsFrom pc (opcode :: bytes) := by
  obtain ⟨hopcode, hbytes⟩ := Bus.holds_cons.mp hb
  have hmade := (decode_of_answers ((Bus.answers_iff_holds _ _ _).mpr hbytes) hr {} {}).2
  simp only [fetchAt, Dialogue.readByte, Dialogue.bind, Dialogue.accesses, Dialogue.accesses_bind _ _ _ {} {},
    List.append_nil, SteadyBus.bus_read]
  rw [show (Bus.read bus pc).1 = opcode from hopcode, hmade]
  rfl

lemma size_of_plain (h : e.Plain) (hlen : bytes.length ≤ 3) :
    (e.toInstruction pc (opcode :: bytes)).size.toNat = bytes.length + 1 := by
  obtain ⟨-, hahead⟩ := h
  have hlt : bytes.length + 1 < UInt16.size := by
    simp only [UInt16.size]
    omega
  change (UInt16.ofNat (bytes.length + 1 - e.ahead)).toNat = _
  rw [hahead, Nat.sub_zero, UInt16.toNat_ofNat_of_lt' hlt]

lemma raw_of_plain (h : e.Plain) (hlen : bytes.length ≤ 3) :
    (e.toInstruction pc (opcode :: bytes)).raw = opcode :: bytes := by
  have hmin : min (bytes.length + 1) 4 = (opcode :: bytes).length := Nat.min_eq_left (by omega)
  rw [raw, size_of_plain h hlen, hmin]
  exact List.take_left

/-- What the decoder makes of a first byte if `second` stands behind it and these are the bytes that it reads there. A
prefix that the second byte makes void is alone in its instruction, although that byte is read. -/
structure Decoded (opcode second : UInt8) (bytes : List UInt8) (i : Instruction) : Prop where
  whole : ¬ DeadPrefix opcode second → i.size.toNat = bytes.length + 1 ∧ i.raw = opcode :: bytes
  alone : DeadPrefix opcode second → bytes = [second] ∧ i.op = .nop ∧ i.size = 1 ∧ i.raw = [opcode]
  size_pos : 1 ≤ i.size
  size_le : i.size ≤ 4
  known : ∀ x, i.op ≠ .unknown none x
  fills : ∀ row, row? opcode bytes = some row → i.op.Fills (fieldX row) (fieldY row) (fieldZ row)

lemma decoded_of_plain {second : UInt8} (h : e.Plain) (hr : (ofOpcode opcode).read? bytes = some (e, []))
    (hdead : ¬ DeadPrefix opcode second) : Decoded opcode second bytes (e.toInstruction pc (opcode :: bytes)) := by
  obtain ⟨x, y, z, hregular, hfields⟩ := placed_of_read hr
  have hlen : bytes.length ≤ 3 := Nat.le_of_succ_le_succ hregular.size
  have hsize : (e.toInstruction pc (opcode :: bytes)).size.toNat = bytes.length + 1 := size_of_plain h hlen
  refine ⟨fun _ => ⟨hsize, raw_of_plain h hlen⟩, fun hd => absurd hd hdead, ?_, ?_, hregular.known, fun row hrow => ?_⟩
  · rw [UInt16.le_iff_toNat_le, hsize]
    exact Nat.le_add_left _ _
  · rw [UInt16.le_iff_toNat_le, hsize]
    exact hregular.size
  · obtain ⟨rfl, rfl, rfl⟩ := hfields row hrow
    exact hregular.fills

lemma decoded_of_deadPrefix {second : UInt8} (h : DeadPrefix opcode second)
    (hr : (ofOpcode opcode).read? [second] = some (e, [])) :
    Decoded opcode second [second] (e.toInstruction pc [opcode, second]) := by
  obtain ⟨-, hop, hahead⟩ := op_of_deadPrefix h hr
  have hsize : (e.toInstruction pc [opcode, second]).size = 1 := by
    change UInt16.ofNat (2 - e.ahead) = 1
    rw [hahead]
    rfl
  refine ⟨fun hdead => absurd h hdead, fun _ => ⟨rfl, hop, hsize, ?_⟩, ?_, ?_, ?_, ?_⟩
  · rw [raw, hsize]
    rfl
  · rw [hsize]
    exact UInt16.le_refl 1
  · rw [hsize]
    decide
  · intro x hx
    cases hop.symm.trans hx
  · intro row _
    change e.op.Fills _ _ _
    rw [hop]
    trivial

lemma decoded_of_read {second : UInt8} (hr : (ofOpcode opcode).read? bytes = some (e, []))
    (hsecond : ∀ x ∈ bytes.head?, x = second) :
    Decoded opcode second bytes (e.toInstruction pc (opcode :: bytes)) := by
  by_cases hdead : DeadPrefix opcode second
  · -- behind a prefix the decoder reads a byte at least
    obtain ⟨x, rest, rfl⟩ : ∃ x rest, bytes = x :: rest := by
      cases bytes with
      | nil => obtain ⟨rfl | rfl, -⟩ := hdead <;> cases hr
      | cons x rest => exact ⟨x, rest, rfl⟩
    obtain rfl := hsecond x rfl
    obtain ⟨rfl, -⟩ := op_of_deadPrefix hdead hr
    exact decoded_of_deadPrefix hdead hr
  · rcases plain_of_read hr with h | ⟨x, rfl, h⟩
    · exact decoded_of_plain h hr hdead
    · obtain rfl := hsecond x rfl
      exact absurd h hdead

/-- The decoder reads the rest of the instruction, each byte once and in order, and makes no other access. What stands
behind the first byte decides how much that is. Wherever else these bytes are found, they decode to the same
instruction. -/
theorem decode_consumes (opcode : UInt8) (pc : UInt16) (bus : B) (log : Log) (traffic : Traffic) :
    ∃ bytes, Bus.Answers bus (pc + 1) bytes ∧
      (decode opcode pc).accesses bus = Access.readsFrom (pc + 1) bytes ∧
      Decoded opcode (Bus.read bus (pc + 1)).1 bytes ((decode opcode pc).run bus log traffic).result ∧
      ∀ (B' : Type) [Bus B'] (bus' : B') (log' : Log) (traffic' : Traffic), Bus.Answers bus' (pc + 1) bytes →
        ((decode opcode pc).run bus' log' traffic').result = ((decode opcode pc).run bus log traffic).result := by
  obtain ⟨bytes, e, hb, hr⟩ := (ofOpcode opcode).exists_answers bus (pc + 1)
  obtain ⟨hresult, hmade⟩ := decode_of_answers hb hr log traffic
  have hsecond : ∀ x ∈ bytes.head?, x = (Bus.read bus (pc + 1)).1 := by
    cases bytes with
    | nil => nofun
    | cons y rest =>
      rintro x ⟨⟩
      exact hb.1.symm
  refine ⟨bytes, hb, hmade, hresult ▸ decoded_of_read hr hsecond, fun B' _ bus' log' traffic' hb' => ?_⟩
  rw [hresult, (decode_of_answers hb' hr log' traffic').1]

end Instruction

lemma Core.upcoming_eq {B : Type} [Bus B] [SteadyBus B] (c : Core) (b : B) {opcode : UInt8}
    (h : Bus.peek b c.regs.pc = opcode) :
    c.upcoming b = ((Instruction.decode opcode c.regs.pc).run b {} {}).result := by
  simp only [upcoming, fetched, Instruction.fetchAt, Dialogue.readByte, Dialogue.bind, Dialogue.run, Dialogue.run_bind,
    SteadyBus.bus_read]
  rw [show (Bus.read b c.regs.pc).1 = opcode from h]
  exact ((Instruction.decode opcode c.regs.pc).run_fresh b {} {} _ {}).1

end Z80Machine
