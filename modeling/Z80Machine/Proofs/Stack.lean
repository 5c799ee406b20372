import Z80Machine.Bus.Flat
import Z80Machine.Proofs.Fetching
import Z80Machine.Proofs.Slicing

/-! Memory as a program relies on it: bytes that lie in it are fetched as the instructions they encode, and a word that
was pushed is popped again. -/

namespace Z80Machine

class SteadyBus (B : Type) [Bus B] : Prop where
  bus_read : ∀ (b : B) (addr : UInt16), (Bus.read b addr).2 = b

instance {B : Type} [Bus B] [QuietBus B] : SteadyBus B where
  bus_read := QuietBus.bus_read

instance : SteadyBus FlatBus where
  bus_read _ _ := rfl

namespace Bus

variable {B : Type} [Bus B] {b : B} {sp : UInt16}

def peek (b : B) (addr : UInt16) : UInt8 :=
  (read b addr).1

def cells (addr : UInt16) : Nat → List UInt16
  | 0 => []
  | n + 1 => addr :: cells (addr + 1) n

def Holds (b : B) (addr : UInt16) (bytes : List UInt8) : Prop :=
  (cells addr bytes.length).map (peek b) = bytes

instance (b : B) (addr : UInt16) (bytes : List UInt8) : Decidable (Holds b addr bytes) :=
  inferInstanceAs (Decidable (_ = _))

/-- The cell keeps what is written to it, and no other cell changes. -/
def Writable (b : B) (addr : UInt16) : Prop :=
  ∀ byte x, peek (write b addr byte) x = if x = addr then byte else peek b x

structure Room (b : B) (sp : UInt16) : Prop where
  high : Writable b (sp - 1)
  low : ∀ byte, Writable (write b (sp - 1) byte) (sp - 2)

def pushed (b : B) (sp word : UInt16) : B :=
  write (write b (sp - 1) (Word.high word)) (sp - 2) (Word.low word)

lemma holds_cons {addr : UInt16} {x : UInt8} {xs : List UInt8} :
    Holds b addr (x :: xs) ↔ peek b addr = x ∧ Holds b (addr + 1) xs := by
  simp [Holds, cells]

lemma peek_pushed (h : Room b sp) (word x : UInt16) : peek (pushed b sp word) x =
    if x = sp - 2 then Word.low word else if x = sp - 1 then Word.high word else peek b x := by
  rw [pushed, h.low, h.high]

lemma low_pushed (h : Room b sp) (word : UInt16) : peek (pushed b sp word) (sp - 2) = Word.low word := by
  rw [peek_pushed h, if_pos rfl]

lemma high_pushed (h : Room b sp) (word : UInt16) : peek (pushed b sp word) (sp - 2 + 1) = Word.high word := by
  have hne : sp - 1 ≠ sp - 2 := by grind
  rw [show sp - 2 + 1 = sp - 1 by grind, peek_pushed h, if_neg hne, if_pos rfl]

lemma Holds.pushed (h : Room b sp) (word : UInt16) {addr : UInt16} {bytes : List UInt8} (hb : Holds b addr bytes)
    (hapart : ∀ x ∈ cells addr bytes.length, x ≠ sp - 1 ∧ x ≠ sp - 2) : Holds (pushed b sp word) addr bytes := by
  have hsame : (cells addr bytes.length).map (peek (Bus.pushed b sp word)) = (cells addr bytes.length).map (peek b) := by
    apply List.map_congr_left
    intro x hx
    obtain ⟨hhigh, hlow⟩ := hapart x hx
    rw [peek_pushed h, if_neg hlow, if_neg hhigh]
  exact hsame.trans hb

end Bus

lemma Board.writable {b : Board} {addr : UInt16} (h : b.memory.romSize ≤ addr.toNat) : Bus.Writable b addr := by
  intro byte x
  have hrom : b.memory.isRom addr = false := by simpa [Memory.isRom] using h
  simp [Bus.peek, Bus.read, Bus.write, Memory.write, hrom, Memory.peek, Memory.poke, Ram.get_set, eq_comm]

lemma Board.room {b : Board} {sp : UInt16} (hhigh : b.memory.romSize ≤ (sp - 1).toNat)
    (hlow : b.memory.romSize ≤ (sp - 2).toNat) : Bus.Room b sp := by
  refine ⟨Board.writable hhigh, fun byte => Board.writable ?_⟩
  have hrom : b.memory.isRom (sp - 1) = false := by simpa [Memory.isRom] using hhigh
  simpa [Bus.write, Memory.write, hrom, Memory.poke] using hlow

lemma FlatBus.room (b : FlatBus) (sp : UInt16) : Bus.Room b sp := by
  have hwritable (b : FlatBus) (addr : UInt16) : Bus.Writable b addr := by
    intro byte x
    simp [Bus.peek, Bus.read, Bus.write, Ram.get_set, eq_comm]
  exact ⟨hwritable b _, fun byte => hwritable _ _⟩

/-! Dialogues with such memory -/

section

variable {B : Type} [Bus B] (b : B) (log : Log) (traffic : Traffic)

lemma Op.run_push (word : UInt16) (r : Registers) :
    ((Stack.push word r).run b log traffic).result = { r with sp := r.sp - 2 } ∧
      ((Stack.push word r).run b log traffic).bus = Bus.pushed b r.sp word := by
  simp only [Stack.push]
  split <;> exact ⟨rfl, rfl⟩

variable [SteadyBus B]

lemma Op.run_pop (r : Registers) :
    ((Stack.pop r).run b log traffic).result =
        (Word.ofBytes (Bus.peek b (r.sp + 1)) (Bus.peek b r.sp), { r with sp := r.sp + 2 }) ∧
      ((Stack.pop r).run b log traffic).bus = b := by
  simp only [Stack.pop]
  split <;> simp [Dialogue.run, Dialogue.bind, Dialogue.remark, Dialogue.readByte, SteadyBus.bus_read, Bus.peek]

theorem Op.run_pop_pushed {sp : UInt16} (h : Bus.Room b sp) (word : UInt16) (r : Registers) (hsp : r.sp = sp - 2) :
    ((Stack.pop r).run (Bus.pushed b sp word) log traffic).result = (word, { r with sp }) ∧
      ((Stack.pop r).run (Bus.pushed b sp word) log traffic).bus = Bus.pushed b sp word := by
  obtain ⟨hresult, hbus⟩ := Op.run_pop (Bus.pushed b sp word) log traffic r
  refine ⟨?_, hbus⟩
  rw [hresult, hsp, Bus.high_pushed h, Bus.low_pushed h, Word.ofBytes_high_low, show sp - 2 + 2 = sp by simp]

theorem Encoding.run_fetch {α : Type} (e : Encoding α) {addr : UInt16} {new : List UInt8} {v : α}
    (hb : Bus.Holds b addr new) (hr : e.read? new = some (v, [])) (seen : List UInt8) :
    ((e.fetch addr seen).run b log traffic).result = (v, seen ++ new) ∧
      ((e.fetch addr seen).run b log traffic).bus = b := by
  induction e generalizing addr new seen traffic with
  | complete w =>
    obtain ⟨rfl, rfl⟩ : w = v ∧ new = [] := by simpa [read?] using hr
    exact ⟨by rw [List.append_nil]; rfl, rfl⟩
  | more next ih =>
    cases new with
    | nil => simp [read?] at hr
    | cons x new =>
      obtain ⟨hx, hnew⟩ := Bus.holds_cons.mp hb
      have hnext := ih x (traffic.atAddress b addr) hnew hr (seen ++ [x])
      rw [List.append_assoc] at hnext
      simp only [fetch, Dialogue.run, SteadyBus.bus_read]
      rw [show (Bus.read b addr).1 = x from hx]
      exact hnext

end

namespace Core

variable {B : Type} [Bus B] [SteadyBus B] (c : Core) (b : B)

lemma fetched_of_holds {opcode : UInt8} {rest : List UInt8} {e : Encoded}
    (hb : Bus.Holds b c.regs.pc (opcode :: rest)) (hr : (Encoding.ofOpcode opcode).read? rest = some (e, [])) :
    c.upcoming b = e.toInstruction c.regs.pc (opcode :: rest) ∧ (c.fetched b).bus = b := by
  obtain ⟨hopcode, hrest⟩ := Bus.holds_cons.mp hb
  obtain ⟨hresult, hbus⟩ := (Encoding.ofOpcode opcode).run_fetch b {} (({} : Traffic).atAddress b c.regs.pc) hrest hr
    [opcode]
  simp only [upcoming, fetched, Instruction.fetchAt, Instruction.decode, Dialogue.readByte, Dialogue.bind_eq,
    Dialogue.pure_eq, Dialogue.bind, Dialogue.run, Dialogue.run_bind, SteadyBus.bus_read]
  rw [show (Bus.read b c.regs.pc).1 = opcode from hopcode, hresult, hbus]
  exact ⟨rfl, rfl⟩

end Core

end Z80Machine
