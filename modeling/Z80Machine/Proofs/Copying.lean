import Z80Machine.Proofs.Rounds

/-! The block copies `LDIR` and `LDDR`. A byte is read when its turn has come, and may by then be one that was copied
itself, so what they do is a sequence of single moves, whatever the two blocks have in common. -/

namespace Z80Machine

open Bus

namespace Bus

variable {B : Type} [Bus B] (b : B) (source target : Nat → UInt16) (n : Nat)

def copied (memory : UInt16 → UInt8) (source target : Nat → UInt16) (n : Nat) : UInt16 → UInt8 :=
  (List.range n).foldl (fun m i => Function.update m (target i) (m (source i))) memory

section

variable (memory : UInt16 → UInt8) (source target : Nat → UInt16) (n : Nat)

lemma copied_succ : copied memory source target (n + 1) =
    Function.update (copied memory source target n) (target n) (copied memory source target n (source n)) := by
  simp only [copied, List.range_succ, List.foldl_append, List.foldl_cons, List.foldl_nil]

variable {source target n}

lemma copied_of_feeding (h : ∀ i, target i = source (i + 1)) {i : Nat} (hi : i < n) :
    copied memory source target n (target i) = memory (source 0) := by
  have hfed (k : Nat) : copied memory source target k (source k) = memory (source 0) := by
    induction k with
    | zero => rfl
    | succ k ih => rw [copied_succ, ← h, Function.update_self, ih]
  induction n with
  | zero => contradiction
  | succ n ih =>
    rw [copied_succ, Function.update_apply, hfed]
    split
    case isTrue => rfl
    case isFalse hne => exact ih (Nat.lt_of_le_of_ne (Nat.lt_succ_iff.mp hi) fun heq => hne (heq ▸ rfl))

end

def moved : B :=
  (List.range n).foldl (fun b i => Bus.write b (target i) (peek b (source i))) b

lemma moved_succ : moved b source target (n + 1) =
    let b' := moved b source target n
    Bus.write b' (target n) (peek b' (source n)) := by
  simp only [moved, List.range_succ, List.foldl_append, List.foldl_cons, List.foldl_nil]

variable {b}

lemma Flat.moved (h : Flat b) : Flat (moved b source target n) := by
  induction n with
  | zero => exact h
  | succ n ih =>
    rw [moved_succ]
    exact ih.write _ _

lemma Flat.peek_moved (h : Flat b) : peek (Bus.moved b source target n) = copied (peek b) source target n := by
  induction n with
  | zero => rfl
  | succ n ih =>
    rw [copied_succ, ← ih, moved_succ]
    funext x
    rw [(h.moved source target n).peek_write, Function.update_apply]

lemma Flat.peek_moved_of_ne (h : Flat b) {x : UInt16} (hx : ∀ i < n, target i ≠ x) :
    peek (Bus.moved b source target n) x = peek b x := by
  induction n with
  | zero => rfl
  | succ n ih =>
    rw [moved_succ, (h.moved source target n).peek_write, if_neg (hx n n.lt_succ_self).symm]
    exact ih fun i hi => hx i (Nat.lt_succ_of_lt hi)

end Bus

namespace Block

variable {B : Type} [Bus B] [SteadyBus B] (dir : Direction) (s : Registers × B)

lemma turn_load_bus : (turn .load dir s).2 = Bus.write s.2 s.1.de (peek s.2 s.1.hl) :=
  congrArg (fun b => Bus.write b s.1.de (peek s.2 s.1.hl)) (SteadyBus.bus_read s.2 s.1.hl)

omit [SteadyBus B] in
lemma turn_load_flags : ∃ y x, (turn .load dir s).1.flags =
    { s.1.flags with y, h := false, x, pv := (turn .load dir s).1.bc != 0, n := false } := by
  have hbc : (turn .load dir s).1.bc = s.1.bc - 1 := Word.ofBytes_high_low _
  rw [hbc]
  exact ⟨_, _, Flags.ofByte_toByte _⟩

end Block

namespace Cpu

variable {B : Type} [Bus B] {c : Cpu B} {dir : Direction}

lemma turns_load_bus [SteadyBus B] (k : Nat) :
    (c.turns .load dir k).2 = moved c.bus (dir.offset c.regs.hl) (dir.offset c.regs.de) k := by
  induction k with
  | zero => rfl
  | succ k ih =>
    have hde : (c.turns .load dir k).1.de = dir.offset c.regs.de k := by
      rw [turns_moved]
      exact BlockOp.moved_de dir c.regs k
    rw [turns_succ, Block.turn_load_bus, turns_hl, hde, ih, moved_succ]

variable (c dir) in
lemma turns_load_flags (k : Nat) :
    let flags := (c.turns .load dir k).1.flags
    flags.s = c.regs.flags.s ∧ flags.z = c.regs.flags.z ∧ flags.c = c.regs.flags.c := by
  induction k with
  | zero => exact ⟨rfl, rfl, rfl⟩
  | succ k ih =>
    obtain ⟨y, x, hflags⟩ := Block.turn_load_flags dir (c.turns .load dir k)
    rw [turns_succ, hflags]
    exact ih

variable (c dir) in
lemma turns_load (k : Nat) : ∃ y x, (c.turns .load dir (k + 1)).1 =
    (BlockOp.load.moved dir c.regs (k + 1)).setFlags
      { c.regs.flags with y, h := false, x, pv := c.regs.bc - UInt16.ofNat (k + 1) != 0, n := false } := by
  have hbc : (c.turns .load dir (k + 1)).1.bc = c.regs.bc - UInt16.ofNat (k + 1) := by
    rw [turns_moved]
    exact BlockOp.load.moved_bc dir c.regs (k + 1) (.inl rfl)
  obtain ⟨y, x, hflags⟩ := Block.turn_load_flags dir (c.turns .load dir k)
  obtain ⟨hs, hz, hcarry⟩ := c.turns_load_flags dir k
  simp only [← turns_succ, hbc, hs, hz, hcarry] at hflags
  exact ⟨y, x, hflags ▸ c.turns_moved .load dir (k + 1)⟩

/-- The registers and the memory after `LDIR` or `LDDR`. The copied bytes must not land on the instruction. -/
theorem copy_finishes [SteadyBus B] (hc : c.Underway) (hmode : c.clock.mode = .standard) (hflat : Flat c.bus)
    (hb : Holds c.bus c.regs.pc [0xED, BlockOp.load.repeating dir]) (hbc : c.regs.bc ≠ 0)
    (hapart : ∀ i < c.regs.bc.toNat, dir.offset c.regs.de i ≠ c.regs.pc ∧ dir.offset c.regs.de i ≠ c.regs.pc + 1)
    (budget : Nat → Nat) :
    let n := c.regs.bc.toNat
    let bus := moved c.bus (dir.offset c.regs.hl) (dir.offset c.regs.de) n
    (∃ y x, c.Finishes budget n
      ((((((c.regs.setHl (dir.offset c.regs.hl n)).setDe (dir.offset c.regs.de n)).setBc 0).setFlags
        { c.regs.flags with y, h := false, x, pv := false, n := false }).setPc (c.regs.pc + 2)).refresh (2 * n)) bus) ∧
      peek bus = copied (peek c.bus) (dir.offset c.regs.hl) (dir.offset c.regs.de) n := by
  intro n bus
  have hrounds : BlockOp.load.rounds c.regs = n := if_neg hbc
  have hheld (k : Nat) (hk : k < n) :
      Holds (c.turns .load dir k).2 c.regs.pc [0xED, BlockOp.load.repeating dir] := by
    rw [turns_load_bus]
    exact hb.of_apart (fun i hi => hapart i (hi.trans hk)) fun _ => hflat.peek_moved_of_ne _ _ k
  have hop : BlockOp.load ≠ .compare := nofun
  have hfinishes := finishes_of_held hc hmode hop hrounds hheld budget
  obtain ⟨m, hm⟩ := Nat.exists_eq_add_one.mpr (BlockOp.load.rounds_pos c.regs)
  obtain ⟨y, x, hregs⟩ := c.turns_load dir m
  have hzero : c.regs.bc - UInt16.ofNat n = 0 := by
    rw [UInt16.ofNat_toNat]
    exact UInt16.sub_self _
  rw [hrounds] at hm
  rw [← hm, hzero, BlockOp.moved, hzero] at hregs
  rw [hregs, turns_load_bus] at hfinishes
  exact ⟨⟨y, x, hfinishes⟩, hflat.peek_moved _ _ n⟩

theorem copy_finishes_smearing :
    let memory (m : Memory) := ((m.poke 0xFFFE 7).poke 0x100 0xED).poke 0x101 0xB0
    let regs : Registers := { h := 0xFF, l := 0xFE, d := 0xFF, e := 0xFF, c := 3, pc := 0x100 }
    let c : Cpu Board := { bus := Board.mapMemory memory {}, core := { regs } }
    c.Underway ∧ c.clock.mode = .standard ∧ Flat c.bus ∧ Holds c.bus 0x100 [0xED, BlockOp.load.repeating .up] ∧
      regs.bc ≠ 0 ∧ (∀ i < 3, Direction.up.offset regs.de i ≠ 0x100 ∧ Direction.up.offset regs.de i ≠ 0x101) ∧
      ∃ bus y x, c.Finishes (fun _ => unbounded) 3
        { h := 0, l := 1, d := 0, e := 2, pc := 0x102, r := 6, f := Flags.toByte { y, x } } bus ∧
        ∀ i < 3, peek bus (Direction.up.offset 0xFFFF i) = 7 := by
  intro memory regs c
  have hc : c.Underway := ⟨nofun, rfl, rfl, rfl⟩
  have hflat : Flat c.bus := Board.flat rfl
  have hpeek (x : UInt16) : peek c.bus x =
      if 0x101 = x then 0xB0 else if 0x100 = x then 0xED else if 0xFFFE = x then 7 else 0 := by
    simp only [c, memory, peek, Bus.read, Board.mapMemory, Memory.peek, Memory.poke, Ram.get_set, Ram.empty,
      Ram.get_filled]
  have hb : Holds c.bus 0x100 [0xED, BlockOp.load.repeating .up] := by
    simp [Holds, cells, hpeek, BlockOp.repeating]
  have hapart : ∀ i < 3, Direction.up.offset regs.de i ≠ 0x100 ∧ Direction.up.offset regs.de i ≠ 0x101 := by decide
  have hn : c.regs.bc.toNat = 3 := by decide
  obtain ⟨⟨y, x, hfinishes⟩, hmemory⟩ :=
    copy_finishes hc rfl hflat hb (by decide) (hn ▸ hapart) fun _ => unbounded
  have hregs (y x : Bool) :
      (((((regs.setHl (Direction.up.offset regs.hl 3)).setDe (Direction.up.offset regs.de 3)).setBc 0).setFlags
        { regs.flags with y, h := false, x, pv := false, n := false }).setPc 0x102).refresh 6 =
      { h := 0, l := 1, d := 0, e := 2, pc := 0x102, r := 6, f := Flags.toByte { y, x } } := by
    cases y <;> cases x <;> decide
  rw [hn] at hfinishes hmemory
  refine ⟨hc, rfl, hflat, hb, by decide, hapart, _, y, x, hregs y x ▸ hfinishes, fun i hi => ?_⟩
  rw [hmemory]
  have hhl : c.regs.hl = 0xFFFE := by decide
  have hde : c.regs.de = 0xFFFF := by decide
  have hfeeding (i : Nat) : Direction.up.offset 0xFFFF i = Direction.up.offset 0xFFFE (i + 1) := by
    rw [Nat.add_comm, ← Direction.offset_offset, show Direction.up.offset 0xFFFE 1 = 0xFFFF by decide]
  rw [hhl, hde, copied_of_feeding _ hfeeding hi, Direction.offset_zero, hpeek]
  decide

end Cpu

end Z80Machine
