import Mathlib.Logic.Function.Iterate
import Z80Machine.Proofs.Draining
import Z80Machine.Proofs.Handler

/-! Repeating block instructions, round by round. A round that leaves something to do puts the program counter back on
the instruction, which is then fetched anew. So the rounds of one instruction are the iterates of one function of the
registers and the bus, and each of them is one step, as long as the instruction is still there to be fetched. -/

namespace Z80Machine

open Bus Idle

namespace Direction

variable (dir : Direction) (w : UInt16)

def offset (i : Nat) : UInt16 :=
  match dir with
  | up => w + UInt16.ofNat i
  | down => w - UInt16.ofNat i

@[simp] lemma offset_zero : dir.offset w 0 = w := by
  cases dir with
  | up => exact UInt16.add_zero w
  | down => exact UInt16.sub_zero w

lemma offset_offset (i j : Nat) : dir.offset (dir.offset w i) j = dir.offset w (i + j) := by
  have hadd : UInt16.ofNat (i + j) = UInt16.ofNat i + UInt16.ofNat j := UInt16.ofNat_add i j
  cases dir <;> grind [offset]

variable {dir w} in
lemma offset_inj {i j : Nat} (hi : i < 65536) (hj : j < 65536) (h : dir.offset w i = dir.offset w j) : i = j := by
  have hof : UInt16.ofNat i = UInt16.ofNat j := by
    cases dir <;> grind [offset]
  rw [← UInt16.toNat_ofNat_of_lt' hi, ← UInt16.toNat_ofNat_of_lt' hj, hof]

end Direction

/-! Memory that can be written -/

namespace Bus

variable {B : Type} [Bus B]

/-- As long as `P` holds of the bus, all memory can be written and the ports have nothing to do with it, and `P` goes on
holding whatever is done. -/
structure Flatness (P : B → Prop) : Prop where
  writable : ∀ b, P b → ∀ addr, Writable b addr
  write : ∀ b, P b → ∀ addr byte, P (Bus.write b addr byte)
  input : ∀ b, P b → ∀ port, P (Bus.input b port).2 ∧ ∀ x, peek (Bus.input b port).2 x = peek b x
  output : ∀ b, P b → ∀ port byte, P (Bus.output b port byte) ∧ ∀ x, peek (Bus.output b port byte) x = peek b x

def Flat (b : B) : Prop :=
  ∃ P, Flatness P ∧ P b

variable {b : B}

lemma Flat.peek_write (h : Flat b) (addr : UInt16) (byte : UInt8) (x : UInt16) :
    peek (Bus.write b addr byte) x = if x = addr then byte else peek b x := by
  obtain ⟨P, hP, hb⟩ := h
  exact hP.writable b hb addr byte x

lemma Flat.write (h : Flat b) (addr : UInt16) (byte : UInt8) : Flat (Bus.write b addr byte) := by
  obtain ⟨P, hP, hb⟩ := h
  exact ⟨P, hP, hP.write b hb addr byte⟩

lemma Flat.input (h : Flat b) (port : UInt8) :
    Flat (Bus.input b port).2 ∧ ∀ x, peek (Bus.input b port).2 x = peek b x := by
  obtain ⟨P, hP, hb⟩ := h
  obtain ⟨hnext, hsame⟩ := hP.input b hb port
  exact ⟨⟨P, hP, hnext⟩, hsame⟩

lemma Flat.output (h : Flat b) (port byte : UInt8) :
    Flat (Bus.output b port byte) ∧ ∀ x, peek (Bus.output b port byte) x = peek b x := by
  obtain ⟨P, hP, hb⟩ := h
  obtain ⟨hnext, hsame⟩ := hP.output b hb port byte
  exact ⟨⟨P, hP, hnext⟩, hsame⟩

lemma Holds.congr {b' : B} {addr : UInt16} {bytes : List UInt8} (hb : Holds b addr bytes)
    (h : ∀ x ∈ cells addr bytes.length, peek b' x = peek b x) : Holds b' addr bytes :=
  (List.map_congr_left h).trans hb

lemma Holds.of_apart {b' : B} {addr : UInt16} {x y : UInt8} {target : Nat → UInt16} {n : Nat}
    (hb : Holds b addr [x, y]) (hapart : ∀ i < n, target i ≠ addr ∧ target i ≠ addr + 1)
    (hsame : ∀ z, (∀ i < n, target i ≠ z) → peek b' z = peek b z) : Holds b' addr [x, y] := by
  apply hb.congr
  intro z hz
  apply hsame
  intro i hi
  obtain ⟨hfirst, hsecond⟩ := hapart i hi
  rcases List.mem_pair.mp hz with rfl | rfl
  · exact hfirst
  · exact hsecond

end Bus

lemma FlatBus.flat (b : FlatBus) : Bus.Flat b := by
  refine ⟨fun _ => True, ⟨fun b _ addr byte x => ?_, fun _ _ _ _ => trivial, fun b _ port => ⟨trivial, fun x => ?_⟩,
    fun _ _ _ _ => ⟨trivial, fun _ => rfl⟩⟩, trivial⟩
  · simp [peek, Bus.read, Bus.write, Ram.get_set, eq_comm]
  · exact (ApartBus.input b port).peek x

lemma Board.flat {b : Board} (h : b.memory.romSize = 0) : Bus.Flat b := by
  refine ⟨fun b => b.memory.romSize = 0, ⟨fun b hb addr => ?_, fun b hb addr byte => ?_,
    fun b hb _ => ⟨hb, fun _ => rfl⟩, fun b hb _ _ => ⟨hb, fun _ => rfl⟩⟩, h⟩
  · exact Board.writable (hb ▸ Nat.zero_le _)
  · simp only [Bus.write, Memory.write]
    split <;> exact hb

/-! One round -/

lemma Registers.setFlags_flags (r : Registers) : r.setFlags r.flags = r := by
  have hbyte : ∀ n : Fin 256, (Flags.ofByte (UInt8.ofFin n)).toByte = UInt8.ofFin n := by decide +kernel
  exact congrArg (fun f => { r with f }) (hbyte r.f.toFin)

def Registers.setPc (r : Registers) (pc : UInt16) : Registers :=
  { r with pc }

def BlockOp.repeating : BlockOp → Direction → UInt8
  | .load, .up => 0xB0
  | .load, .down => 0xB8
  | .compare, .up => 0xB1
  | .compare, .down => 0xB9
  | .input, .up => 0xB2
  | .input, .down => 0xBA
  | .output, .up => 0xB3
  | .output, .down => 0xBB

def BlockOp.moved (op : BlockOp) (dir : Direction) (r : Registers) (k : Nat) : Registers :=
  match op with
  | .load => ((r.setHl (dir.offset r.hl k)).setDe (dir.offset r.de k)).setBc (r.bc - UInt16.ofNat k)
  | .compare => (r.setHl (dir.offset r.hl k)).setBc (r.bc - UInt16.ofNat k)
  | .input | .output => (r.setHl (dir.offset r.hl k)).set .b (r.b - UInt8.ofNat k)

def BlockOp.rounds (r : Registers) : BlockOp → Nat
  | .load | .compare => if r.bc = 0 then 65536 else r.bc.toNat
  | .input | .output => if r.b = 0 then 256 else r.b.toNat

namespace BlockOp

variable (op : BlockOp) (dir : Direction) (r : Registers) (j k : Nat) (f : Flags)

@[simp] lemma moved_hl : (op.moved dir r k).hl = dir.offset r.hl k := by
  cases op <;> exact Word.ofBytes_high_low _

lemma moved_de : (load.moved dir r k).de = dir.offset r.de k :=
  Word.ofBytes_high_low _

lemma moved_bc (h : op = load ∨ op = compare) : (op.moved dir r k).bc = r.bc - UInt16.ofNat k := by
  rcases h with rfl | rfl <;> exact Word.ofBytes_high_low _

lemma moved_b (h : op = input ∨ op = output) : (op.moved dir r k).b = r.b - UInt8.ofNat k := by
  rcases h with rfl | rfl <;> rfl

lemma moved_zero : op.moved dir r 0 = r := by
  cases op <;> simp [moved, Registers.setHl, Registers.setDe, Registers.setBc, Registers.set, Registers.hl,
    Registers.de, Registers.bc]

lemma moved_setFlags : op.moved dir (r.setFlags f) k = (op.moved dir r k).setFlags f := by
  cases op <;> rfl

lemma moved_moved : op.moved dir (op.moved dir r j) k = op.moved dir r (j + k) := by
  have hword : r.bc - UInt16.ofNat j - UInt16.ofNat k = r.bc - UInt16.ofNat (j + k) := by
    grind [UInt16.ofNat_add j k]
  have hbyte : r.b - UInt8.ofNat j - UInt8.ofNat k = r.b - UInt8.ofNat (j + k) := by
    grind [UInt8.ofNat_add j k]
  cases op with
  | load =>
    rw [moved, moved_hl, moved_de, moved_bc load dir r j (.inl rfl), hword, Direction.offset_offset,
      Direction.offset_offset]
    rfl
  | compare =>
    rw [moved, moved_hl, moved_bc compare dir r j (.inr rfl), hword, Direction.offset_offset]
    rfl
  | input =>
    rw [moved, moved_hl, moved_b input dir r j (.inl rfl), hbyte, Direction.offset_offset]
    rfl
  | output =>
    rw [moved, moved_hl, moved_b output dir r j (.inr rfl), hbyte, Direction.offset_offset]
    rfl

lemma rounds_word {w : UInt16} : (if w = 0 then 65536 else w.toNat) = (w - 1).toNat + 1 := by
  split
  case isTrue h => exact h ▸ rfl
  case isFalse h =>
    have hne : w.toNat ≠ 0 := fun h0 => h (UInt16.toNat_inj.mp h0)
    have hlt := w.toNat_lt
    rw [UInt16.toNat_sub]
    simp only [UInt16.reduceToNat]
    omega

lemma rounds_byte {b : UInt8} : (if b = 0 then 256 else b.toNat) = (b - 1).toNat + 1 := by
  split
  case isTrue h => exact h ▸ rfl
  case isFalse h =>
    have hne : b.toNat ≠ 0 := fun h0 => h (UInt8.toNat_inj.mp h0)
    have hlt := b.toNat_lt
    rw [UInt8.toNat_sub]
    simp only [UInt8.reduceToNat]
    omega

lemma rounds_pos : 0 < op.rounds r := by
  cases op <;> simp [rounds, rounds_word, rounds_byte]

lemma unfinished_moved (hk : k < op.rounds r) (after : Registers) :
    op.unfinished ((op.moved dir r k).setFlags f) after =
      (decide (k + 1 < op.rounds r) && (op != .compare || !after.flags.z)) := by
  have hword (hk : k < (r.bc - 1).toNat + 1) : (r.bc - UInt16.ofNat k != 1) = decide (k < (r.bc - 1).toNat) := by
    have hlt := (r.bc - 1).toNat_lt
    have hiff : r.bc - UInt16.ofNat k = 1 ↔ r.bc - 1 = UInt16.ofNat k := by grind
    have hof : (UInt16.ofNat k).toNat = k := UInt16.toNat_ofNat_of_lt' (by simp only [UInt16.size]; omega)
    rw [Bool.eq_iff_iff, bne_iff_ne, ne_eq, hiff, ← UInt16.toNat_inj, hof, decide_eq_true_iff]
    omega
  have hbyte (hk : k < (r.b - 1).toNat + 1) : (r.b - UInt8.ofNat k != 1) = decide (k < (r.b - 1).toNat) := by
    have hlt := (r.b - 1).toNat_lt
    have hiff : r.b - UInt8.ofNat k = 1 ↔ r.b - 1 = UInt8.ofNat k := by grind
    have hof : (UInt8.ofNat k).toNat = k := UInt8.toNat_ofNat_of_lt' (by simp only [UInt8.size]; omega)
    rw [Bool.eq_iff_iff, bne_iff_ne, ne_eq, hiff, ← UInt8.toNat_inj, hof, decide_eq_true_iff]
    omega
  have hbc (h : op = load ∨ op = compare) : ((op.moved dir r k).setFlags f).bc = r.bc - UInt16.ofNat k :=
    op.moved_bc dir r k h
  have hb (h : op = input ∨ op = output) : ((op.moved dir r k).setFlags f).b = r.b - UInt8.ofNat k :=
    op.moved_b dir r k h
  cases op with
  | load =>
    rw [rounds, rounds_word] at hk
    simp only [unfinished, hbc (.inl rfl), hword hk, rounds, rounds_word, Nat.add_lt_add_iff_right]
    simp
  | compare =>
    rw [rounds, rounds_word] at hk
    simp only [unfinished, hbc (.inr rfl), hword hk, rounds, rounds_word, Nat.add_lt_add_iff_right]
    simp
  | input =>
    rw [rounds, rounds_byte] at hk
    simp only [unfinished, hb (.inl rfl), hbyte hk, rounds, rounds_byte, Nat.add_lt_add_iff_right]
    simp
  | output =>
    rw [rounds, rounds_byte] at hk
    simp only [unfinished, hb (.inr rfl), hbyte hk, rounds, rounds_byte, Nat.add_lt_add_iff_right]
    simp

end BlockOp

lemma BlockOp.read_repeating (op : BlockOp) (dir : Direction) : ∃ shape : CycleShape,
    (Encoding.ofOpcode 0xED).read? [op.repeating dir] = some ({ op := .block op dir true, shape }, []) ∧
      shape.tStates = 16 ∧ shape.fetches = 2 ∧ (op ≠ .compare → shape.writesOutside = true) := by
  cases op <;> cases dir <;> exact ⟨_, rfl, rfl, rfl, by decide⟩

namespace Block

variable {B : Type} [Bus B] (op : BlockOp) (dir : Direction)

def turn (s : Registers × B) : Registers × B :=
  let t := (round op dir s.1).run s.2 {} {}
  (t.result.1, t.bus)

lemma turn_moved (s : Registers × B) : ∃ flags, (turn op dir s).1 = (op.moved dir s.1 1).setFlags flags := by
  cases op <;> cases dir <;> exact ⟨_, rfl⟩

lemma round_behind (r : Registers) (pc : UInt16) (n : Nat) :
    round op dir ((r.setPc pc).refresh n) =
      (round op dir r).bind fun s => .done ((s.1.setPc pc).refresh n, s.2) := by
  cases op <;> rfl

lemma run_block (address pc : UInt16) (r : Registers) (n : Nat) (b : B) (log : Log) (traffic : Traffic) :
    let t := ((Op.block op dir true).onRegisters address ((r.setPc pc).refresh n)).run b log traffic
    let s := turn op dir (r, b)
    t.result = (if op.unfinished r s.1 then ((s.1.setPc address).refresh n, 5)
      else ((s.1.setPc pc).refresh n, 0)) ∧ t.bus = s.2 := by
  intro t s
  obtain ⟨hresult, hbus⟩ := (round op dir r).run_fresh b log {} traffic {}
  have hagain := (Op.always_round_unfinished op dir r []).run b {} {}
  simp only [t, s, Op.onRegisters, round_behind, Dialogue.bind_eq, Dialogue.pure_eq, Dialogue.bind_assoc,
    Dialogue.done_bind, Dialogue.run_bind, turn, hresult, hbus, hagain, Bool.true_and]
  split <;> exact ⟨rfl, rfl⟩

end Block

/-! All rounds -/

namespace Cpu

variable {B : Type} [Bus B]

def stepsWithin (budget : Nat → Nat) (c : Cpu B) : Nat → Nat × Cpu B
  | 0 => (0, c)
  | n + 1 =>
    let (ran, d) := c.stepsWithin budget n
    let (cycles, e) := d.step (budget n)
    (ran + cycles, e)

structure Repeating (c d : Cpu B) (s : Registers × B) (k t : Nat) : Prop where
  underway : d.Underway
  regs : d.regs = (s.1.setPc c.regs.pc).refresh (2 * k)
  bus : d.bus = s.2
  after : ∀ core bus u, d.after core bus u = c.after core bus (t + u)

variable {c d : Cpu B} {s : Registers × B} {op : BlockOp} {dir : Direction} {k n t : Nat}

omit [Bus B] in
lemma Underway.repeating (h : c.Underway) : c.Repeating c (c.regs, c.bus) 0 0 where
  underway := h
  regs := (c.regs.refresh_zero).symm
  bus := rfl
  after core bus u := by rw [Nat.zero_add]

omit [Bus B] in
lemma Underway.repeating_of_machine (h : c.Underway)
    (hm : d.machine = c.after { regs := (s.1.setPc c.regs.pc).refresh (2 * k) } s.2 t) (ha : d.idle.active = none) :
    c.Repeating d s k t where
  underway := by
    refine ⟨?_, (congrArg Machine.pending hm).trans h.pending, congrArg (·.core.halted) hm, ha⟩
    rw [show d.lifecycle = c.lifecycle.awake from congrArg Machine.lifecycle hm]
    exact Lifecycle.awake_ne_paused h.lifecycle
  regs := congrArg (·.core.regs) hm
  bus := congrArg Machine.bus hm
  after core bus u := after_after hm core bus u

theorem Repeating.step [SteadyBus B] (h : c.Repeating d s k t)
    (hb : Holds s.2 c.regs.pc [0xED, op.repeating dir]) (budget : Nat) :
    let s' := Block.turn op dir s
    let again := op.unfinished s.1 s'.1
    let regs := (s'.1.setPc (if again then c.regs.pc else c.regs.pc + 2)).refresh (2 * (k + 1))
    (c.clock.mode = .standard → (d.step budget).1 = if again then 21 else 16) ∧
      (d.step budget).2.machine = c.after { regs } s'.2 (t + (d.step budget).1) ∧
      ∃ seen safe, (op ≠ .compare → safe = false) ∧
        (d.step budget).2.idle = (d.idle.observe seen safe regs).value := by
  intro s' again regs
  obtain ⟨shape, hr, htime, hfetches, hunsafe⟩ := op.read_repeating dir
  have hpc : d.regs.pc = c.regs.pc := by
    rw [h.regs]
    rfl
  have held : Holds d.bus d.regs.pc [0xED, op.repeating dir] := by rwa [h.bus, hpc]
  have hbehind : d.core.behind (Encoded.toInstruction { op := .block op dir true, shape } d.regs.pc
      [0xED, op.repeating dir]) = (s.1.setPc (c.regs.pc + 2)).refresh (2 * (k + 1)) := by
    have hrefresh : (d.regs.setPc (c.regs.pc + 2)).refresh 2 =
        (s.1.setPc (c.regs.pc + 2)).refresh (2 * (k + 1)) := by
      rw [h.regs, Nat.mul_succ, ← Registers.refresh_refresh]
      rfl
    rw [← hrefresh, ← hpc, ← hfetches]
    rfl
  have hop (log : Log) (traffic : Traffic) :
      let t := ((Op.block op dir true).onRegisters d.regs.pc
        (d.core.behind (Encoded.toInstruction { op := .block op dir true, shape } d.regs.pc
          [0xED, op.repeating dir]))).run d.bus log traffic
      t.result = (regs, if again then 5 else 0) ∧ t.bus = s'.2 := by
    rw [hbehind, h.bus, hpc]
    obtain ⟨hresult, hbus⟩ :=
      Block.run_block op dir c.regs.pc (c.regs.pc + 2) s.1 (2 * (k + 1)) s.2 log traffic
    refine ⟨hresult.trans ?_, hbus⟩
    change (if again then _ else _) = _
    cases hagain : again <;> simp only [regs, s', hagain] <;> rfl
  obtain ⟨hinstruction, hcore, hbus, hcycles⟩ := d.core.outcome_held d.clock.mode held hr hop
  have hstep := d.stepped budget
  rw [h.underway.stepKind] at hstep
  obtain ⟨ht, hmachine, hidle⟩ := hstep.of_instruction
  rw [outcome, hcore, hbus, h.underway.halted, h.after] at hmachine
  have hclock : d.clock = c.clock := congrArg Machine.clock (h.after c.core c.bus 0)
  refine ⟨fun hmode => ?_, hmachine, d.outcome.step, d.outcome.safe, fun hne => ?_, ?_⟩
  · rw [ht, outcome, hcycles (hclock ▸ hmode), htime]
    cases again <;> rfl
  · rw [Outcome.safe, outcome, hinstruction]
    simp [Instruction.idleSafe, Encoded.toInstruction, hunsafe hne]
  · rw [hidle, outcome, hcore]

def turns (c : Cpu B) (op : BlockOp) (dir : Direction) (k : Nat) : Registers × B :=
  (Block.turn op dir)^[k] (c.regs, c.bus)

lemma turns_succ : c.turns op dir (k + 1) = Block.turn op dir (c.turns op dir k) :=
  Function.iterate_succ_apply' ..

variable (c op dir) in
lemma turns_moved (k : Nat) :
    (c.turns op dir k).1 = (op.moved dir c.regs k).setFlags (c.turns op dir k).1.flags := by
  have h : ∃ flags, (c.turns op dir k).1 = (op.moved dir c.regs k).setFlags flags := by
    induction k with
    | zero => exact ⟨c.regs.flags, by rw [BlockOp.moved_zero, Registers.setFlags_flags]; rfl⟩
    | succ k ih =>
      obtain ⟨flags, hk⟩ := ih
      obtain ⟨flags', hturn⟩ := Block.turn_moved op dir (c.turns op dir k)
      rw [hk, BlockOp.moved_setFlags, BlockOp.moved_moved] at hturn
      exact ⟨flags', (congrArg Prod.fst turns_succ).trans hturn⟩
  obtain ⟨flags, hregs⟩ := h
  rw [hregs, Registers.flags_setFlags]

lemma turns_hl (k : Nat) : (c.turns op dir k).1.hl = dir.offset c.regs.hl k := by
  rw [turns_moved]
  exact op.moved_hl dir c.regs k

lemma turns_unfinished (hk : k < op.rounds c.regs) :
    op.unfinished (c.turns op dir k).1 (c.turns op dir (k + 1)).1 =
      (decide (k + 1 < op.rounds c.regs) && (op != .compare || !(c.turns op dir (k + 1)).1.flags.z)) := by
  rw [c.turns_moved op dir k, BlockOp.unfinished_moved op dir c.regs k _ hk]

structure Rounds (c : Cpu B) (op : BlockOp) (dir : Direction) (n : Nat) : Prop where
  pos : 0 < n
  held : ∀ k < n, Holds (c.turns op dir k).2 c.regs.pc [0xED, op.repeating dir]
  again : ∀ k < n, op.unfinished (c.turns op dir k).1 (c.turns op dir (k + 1)).1 = decide (k + 1 < n)

/-- The instruction at the program counter is done after `n` steps and no fewer. These are the registers and the bus
that it leaves. -/
structure Finishes (c : Cpu B) (budget : Nat → Nat) (n : Nat) (regs : Registers) (bus : B) : Prop where
  busy : ∀ k < n, (c.stepsWithin budget k).2.regs.pc = c.regs.pc
  machine : (c.stepsWithin budget n).2.machine = c.after { regs } bus (21 * (n - 1) + 16)
  time : (c.stepsWithin budget n).1 = 21 * (n - 1) + 16

def Observes (c : Cpu B) (op : BlockOp) (dir : Direction) (k : Nat) (d d' : Detector) : Prop :=
  ∃ seen safe, (op ≠ .compare → safe = false) ∧
    d' = (d.observe seen safe (((c.turns op dir k).1.setPc c.regs.pc).refresh (2 * k))).value

section

variable [SteadyBus B] {D : Nat → Detector → Prop} (h : c.Rounds op dir n) (hc : c.Underway)
  (hmode : c.clock.mode = .standard) (hD : D 0 c.idle) (hnone : ∀ k d, D k d → d.active = none)
  (hnext : ∀ k d d', k + 1 < n → D k d → c.Observes op dir (k + 1) d d' → D (k + 1) d')

include h hc hmode hD hnone hnext

lemma Rounds.repeating (budget : Nat → Nat) (hk : k < n) :
    (c.stepsWithin budget k).1 = 21 * k ∧
      c.Repeating (c.stepsWithin budget k).2 (c.turns op dir k) k (21 * k) ∧ D k (c.stepsWithin budget k).2.idle := by
  induction k with
  | zero => exact ⟨rfl, hc.repeating, hD⟩
  | succ k ih =>
    obtain ⟨htime, hrepeating, hidle⟩ := ih (Nat.lt_of_succ_lt hk)
    obtain ⟨hcycles, hmachine, hobserved⟩ := hrepeating.step (h.held k (Nat.lt_of_succ_lt hk)) (budget k)
    have hagain : op.unfinished (c.turns op dir k).1 (c.turns op dir (k + 1)).1 = true := by
      rw [h.again k (Nat.lt_of_succ_lt hk), decide_eq_true hk]
    simp only [← turns_succ, hagain, if_true] at hcycles hmachine hobserved
    have hD' : D (k + 1) ((c.stepsWithin budget k).2.step (budget k)).2.idle :=
      hnext k _ _ hk hidle hobserved
    rw [hcycles hmode] at hmachine
    refine ⟨?_, hc.repeating_of_machine hmachine (hnone _ _ hD'), hD'⟩
    simp only [stepsWithin, htime, hcycles hmode, Nat.mul_succ]

theorem Rounds.finishes (budget : Nat → Nat) :
    c.Finishes budget n (((c.turns op dir n).1.setPc (c.regs.pc + 2)).refresh (2 * n)) (c.turns op dir n).2 := by
  obtain ⟨m, rfl⟩ : ∃ m, n = m + 1 := ⟨n - 1, (Nat.succ_pred_eq_of_pos h.pos).symm⟩
  obtain ⟨htime, hrepeating, -⟩ := h.repeating hc hmode hD hnone hnext budget (Nat.lt_succ_self m)
  obtain ⟨hcycles, hmachine, -⟩ := hrepeating.step (h.held m (Nat.lt_succ_self m)) (budget m)
  have hagain : op.unfinished (c.turns op dir m).1 (c.turns op dir (m + 1)).1 = false := by
    rw [h.again m (Nat.lt_succ_self m), decide_eq_false (Nat.lt_irrefl _)]
  simp only [← turns_succ, hagain, Bool.false_eq_true, if_false] at hcycles hmachine
  rw [hcycles hmode] at hmachine
  refine ⟨fun k hk => ?_, hmachine, ?_⟩
  · obtain ⟨-, hk, -⟩ := h.repeating hc hmode hD hnone hnext budget hk
    rw [hk.regs]
    rfl
  · simp only [stepsWithin, htime, hcycles hmode, Nat.add_sub_cancel]

end

theorem finishes_of_held [SteadyBus B] (hc : c.Underway) (hmode : c.clock.mode = .standard) (hop : op ≠ .compare)
    (hn : op.rounds c.regs = n) (held : ∀ k < n, Holds (c.turns op dir k).2 c.regs.pc [0xED, op.repeating dir])
    (budget : Nat → Nat) :
    c.Finishes budget n (((c.turns op dir n).1.setPc (c.regs.pc + 2)).refresh (2 * n)) (c.turns op dir n).2 := by
  subst hn
  have h : c.Rounds op dir (op.rounds c.regs) := by
    refine ⟨op.rounds_pos c.regs, held, fun k hk => ?_⟩
    rw [turns_unfinished hk, bne_iff_ne.mpr hop, Bool.true_or, Bool.and_true]
  refine h.finishes hc hmode (D := fun _ d => d.active = none) hc.active (fun _ _ => id) ?_ budget
  rintro k d - - hd ⟨seen, safe, hsafe, rfl⟩
  rw [hsafe hop]
  exact Detector.active_observe hd _ _

end Cpu

end Z80Machine
