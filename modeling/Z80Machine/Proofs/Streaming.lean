import Z80Machine.Proofs.Rounds

/-! Block transfers through a port: `OTIR` and `OTDR` send a block, `INIR` and `INDR` receive one. -/

namespace Z80Machine

open Bus

namespace Bus

variable {B : Type} [Bus B]

def sent (b : B) (port : UInt8) (bytes : List UInt8) : B :=
  bytes.foldl (fun b byte => Bus.output b port byte) b

/-- So many bytes come through the port, and the `i`-th of them is stored at `target i`. -/
def received (b : B) (port : UInt8) (target : Nat → UInt16) (n : Nat) : B :=
  (List.range n).foldl (fun b i => Bus.write (Bus.input b port).2 (target i) (Bus.input b port).1) b

variable {b : B} (port : UInt8) (target : Nat → UInt16) (n : Nat)

variable (b) in
lemma received_succ : received b port target (n + 1) =
    let answer := Bus.input (received b port target n) port
    Bus.write answer.2 (target n) answer.1 := by
  simp only [received, List.range_succ, List.foldl_append, List.foldl_cons, List.foldl_nil]

lemma Flat.sent (h : Flat b) (bytes : List UInt8) :
    Flat (sent b port bytes) ∧ ∀ x, peek (Bus.sent b port bytes) x = peek b x := by
  induction bytes generalizing b with
  | nil => exact ⟨h, fun _ => rfl⟩
  | cons byte bytes ih =>
    obtain ⟨hnext, hsame⟩ := h.output port byte
    obtain ⟨hlast, hrest⟩ := ih hnext
    exact ⟨hlast, fun x => (hrest x).trans (hsame x)⟩

lemma Flat.received (h : Flat b) : Flat (received b port target n) := by
  induction n with
  | zero => exact h
  | succ n ih =>
    rw [received_succ]
    exact (ih.input port).1.write _ _

lemma Flat.peek_received_succ (h : Flat b) (x : UInt16) : peek (Bus.received b port target (n + 1)) x =
    if x = target n then (Bus.input (Bus.received b port target n) port).1 else peek (Bus.received b port target n) x := by
  obtain ⟨hnext, hsame⟩ := (h.received port target n).input port
  rw [received_succ, hnext.peek_write, hsame]

variable {target n}

lemma Flat.peek_received_of_ne (h : Flat b) {x : UInt16} (hx : ∀ i < n, target i ≠ x) :
    peek (Bus.received b port target n) x = peek b x := by
  induction n with
  | zero => rfl
  | succ n ih =>
    rw [h.peek_received_succ, if_neg (hx n n.lt_succ_self).symm]
    exact ih fun i hi => hx i (Nat.lt_succ_of_lt hi)

lemma Flat.peek_received (h : Flat b) (hinj : ∀ i < n, ∀ j < n, target i = target j → i = j) {k : Nat} (hk : k < n) :
    peek (Bus.received b port target n) (target k) = (Bus.input (Bus.received b port target k) port).1 := by
  induction n with
  | zero => contradiction
  | succ n ih =>
    rw [h.peek_received_succ]
    rcases Nat.lt_succ_iff_lt_or_eq.mp hk with hlt | rfl
    · rw [if_neg fun heq => hlt.ne (hinj k hk n n.lt_succ_self heq)]
      exact ih (fun i hi j hj => hinj i (Nat.lt_succ_of_lt hi) j (Nat.lt_succ_of_lt hj)) hlt
    · rw [if_pos rfl]

end Bus

lemma Tapped.flat {B : Type} [Bus B] {t : Tapped B} (h : Bus.Flat t.bus) : Bus.Flat t := by
  obtain ⟨P, hP, hb⟩ := h
  exact ⟨fun t => P t.bus, ⟨fun t => hP.writable t.bus, fun t => hP.write t.bus, fun t => hP.input t.bus,
    fun t => hP.output t.bus⟩, hb⟩

namespace Block

variable {B : Type} [Bus B] (dir : Direction) (s : Registers × B)

lemma turn_output_bus [SteadyBus B] : (turn .output dir s).2 = Bus.output s.2 s.1.c (peek s.2 s.1.hl) :=
  congrArg (fun b => Bus.output b s.1.c (peek s.2 s.1.hl)) (SteadyBus.bus_read s.2 s.1.hl)

lemma turn_input_bus : (turn .input dir s).2 =
    Bus.write (Bus.input s.2 s.1.c).2 s.1.hl (Bus.input s.2 s.1.c).1 :=
  rfl

lemma turn_port_flags {op : BlockOp} (hop : op = .input ∨ op = .output) :
    (turn op dir s).1.flags = portFlags (turn op dir s).1.b s.1.flags.c := by
  rcases hop with rfl | rfl <;> exact Flags.ofByte_toByte _

end Block

namespace Cpu

variable {B : Type} [Bus B] {c : Cpu B} {op : BlockOp} {dir : Direction}

def streamed (c : Cpu B) (dir : Direction) (n : Nat) : Registers :=
  ((((c.regs.setHl (dir.offset c.regs.hl n)).set .b 0).setFlags { z := true, n := true, c := c.regs.flags.c }).setPc
    (c.regs.pc + 2)).refresh (2 * n)

section

variable (hop : op = .input ∨ op = .output)

include hop

lemma turns_port (k : Nat) : (c.turns op dir k).1.c = c.regs.c := by
  rw [turns_moved]
  rcases hop with rfl | rfl <;> rfl

lemma turns_port_carry (k : Nat) : (c.turns op dir k).1.flags.c = c.regs.flags.c := by
  induction k with
  | zero => rfl
  | succ k ih =>
    rw [turns_succ, Block.turn_port_flags dir _ hop]
    exact ih

lemma turns_port_last {n : Nat} (hn : op.rounds c.regs = n) :
    ((c.turns op dir n).1.setPc (c.regs.pc + 2)).refresh (2 * n) = c.streamed dir n := by
  have hrounds : op.rounds c.regs = if c.regs.b = 0 then 256 else c.regs.b.toNat := by
    rcases hop with rfl | rfl <;> rfl
  -- A counter that was zero has gone all the way round.
  have hzero : c.regs.b - UInt8.ofNat n = 0 := by
    rw [← hn, hrounds]
    split
    case isTrue hb =>
      rw [hb]
      rfl
    case isFalse => rw [UInt8.ofNat_toNat, UInt8.sub_self]
  have hb : (c.turns op dir n).1.b = 0 := by
    rw [turns_moved]
    exact (op.moved_b dir c.regs n hop).trans hzero
  obtain ⟨m, rfl⟩ : ∃ m, n = m + 1 := Nat.exists_eq_add_one.mpr (hn ▸ op.rounds_pos c.regs)
  have hflags : (c.turns op dir (m + 1)).1.flags = { z := true, n := true, c := c.regs.flags.c } := by
    rw [turns_succ] at hb ⊢
    rw [Block.turn_port_flags dir _ hop, hb, turns_port_carry hop]
    rfl
  rw [turns_moved, hflags, streamed]
  rcases hop with rfl | rfl
  · rw [BlockOp.moved, hzero]
  · rw [BlockOp.moved, hzero]

end

variable (c dir) in
lemma turns_output_bus [SteadyBus B] (hflat : Flat c.bus) (k : Nat) : (c.turns .output dir k).2 =
    sent c.bus c.regs.c ((List.range k).map fun i => peek c.bus (dir.offset c.regs.hl i)) := by
  induction k with
  | zero => rfl
  | succ k ih =>
    rw [turns_succ, Block.turn_output_bus, turns_hl, turns_port (.inr rfl), ih, (hflat.sent _ _).2,
      List.range_succ, List.map_append]
    simp only [sent, List.foldl_append, List.map_cons, List.map_nil, List.foldl_cons, List.foldl_nil]

variable (c dir) in
lemma turns_input_bus (k : Nat) :
    (c.turns .input dir k).2 = received c.bus c.regs.c (dir.offset c.regs.hl) k := by
  induction k with
  | zero => rfl
  | succ k ih => rw [turns_succ, Block.turn_input_bus, turns_hl, turns_port (.inl rfl), ih, received_succ]

section

variable [SteadyBus B] {n : Nat} (hc : c.Underway) (hmode : c.clock.mode = .standard) (hflat : Flat c.bus)

include hc hmode hflat

lemma send_finishes (hb : Holds c.bus c.regs.pc [0xED, BlockOp.output.repeating dir])
    (hn : BlockOp.output.rounds c.regs = n) (budget : Nat → Nat) :
    c.Finishes budget n (c.streamed dir n)
      (sent c.bus c.regs.c ((List.range n).map fun i => peek c.bus (dir.offset c.regs.hl i))) := by
  have hop : BlockOp.output ≠ .compare := nofun
  have hheld (k : Nat) (_ : k < n) : Holds (c.turns .output dir k).2 c.regs.pc [0xED, BlockOp.output.repeating dir] := by
    rw [turns_output_bus c dir hflat]
    exact hb.congr fun x _ => (hflat.sent _ _).2 x
  have hfinishes := finishes_of_held hc hmode hop hn hheld budget
  rw [turns_port_last (.inr rfl) hn, turns_output_bus c dir hflat] at hfinishes
  exact hfinishes

lemma receive_finishes (hb : Holds c.bus c.regs.pc [0xED, BlockOp.input.repeating dir])
    (hn : BlockOp.input.rounds c.regs = n)
    (hapart : ∀ i < n, dir.offset c.regs.hl i ≠ c.regs.pc ∧ dir.offset c.regs.hl i ≠ c.regs.pc + 1)
    (budget : Nat → Nat) :
    c.Finishes budget n (c.streamed dir n) (received c.bus c.regs.c (dir.offset c.regs.hl) n) := by
  have hop : BlockOp.input ≠ .compare := nofun
  have hheld (k : Nat) (hk : k < n) : Holds (c.turns .input dir k).2 c.regs.pc [0xED, BlockOp.input.repeating dir] := by
    rw [turns_input_bus]
    exact hb.of_apart (fun i hi => hapart i (hi.trans hk)) fun _ => hflat.peek_received_of_ne _
  have hfinishes := finishes_of_held hc hmode hop hn hheld budget
  rw [turns_port_last (.inl rfl) hn, turns_input_bus] at hfinishes
  exact hfinishes

end

/-- What is left when a block went through the port, out of memory or into it. -/
theorem stream_finishes [SteadyBus B] (hc : c.Underway) (hmode : c.clock.mode = .standard) (hflat : Flat c.bus)
    (dir : Direction) (budget : Nat → Nat) :
    let n := if c.regs.b = 0 then 256 else c.regs.b.toNat
    let address := dir.offset c.regs.hl
    (Holds c.bus c.regs.pc [0xED, BlockOp.output.repeating dir] →
      let bus := sent c.bus c.regs.c ((List.range n).map fun i => peek c.bus (address i))
      c.Finishes budget n (c.streamed dir n) bus ∧ ∀ x, peek bus x = peek c.bus x) ∧
    (Holds c.bus c.regs.pc [0xED, BlockOp.input.repeating dir] →
      (∀ i < n, address i ≠ c.regs.pc ∧ address i ≠ c.regs.pc + 1) →
      let bus := received c.bus c.regs.c address
      c.Finishes budget n (c.streamed dir n) (bus n) ∧
        (∀ i < n, peek (bus n) (address i) = (Bus.input (bus i) c.regs.c).1) ∧
        ∀ x, (∀ i < n, address i ≠ x) → peek (bus n) x = peek c.bus x) := by
  intro n address
  constructor
  · intro hb bus
    exact ⟨send_finishes hc hmode hflat hb rfl budget, (hflat.sent _ _).2⟩
  · intro hb hapart bus
    refine ⟨receive_finishes hc hmode hflat hb rfl hapart budget, fun i hi => ?_,
      fun x hx => hflat.peek_received_of_ne _ hx⟩
    have hn : n ≤ 256 := by
      have hlt := c.regs.b.toNat_lt
      simp only [n]
      split <;> omega
    exact hflat.peek_received _ (fun i hi j hj => Direction.offset_inj (by omega) (by omega)) hi

/-- `OTDR` down from address zero, which sends its own first byte, and `INIR` up to it, with a tap on the ports. -/
theorem stream_finishes_wrapping :
    let ram := ((Ram.empty.set 0xFFFF 7).setAll 0 [0xED, 0xBB]).setAll 0x100 [0xED, 0xB2]
    let bus : Tapped FlatBus := { bus := { ram, queue := [1, 2] } }
    let c : Cpu (Tapped FlatBus) := { bus, core := { regs := { b := 2, c := 5 } } }
    let d : Cpu (Tapped FlatBus) := { bus, core := { regs := { b := 2, c := 5, h := 0xFF, l := 0xFF, pc := 0x100 } } }
    c.Underway ∧ d.Underway ∧ Flat bus ∧ c.clock.mode = .standard ∧ d.clock.mode = .standard ∧
      Holds bus 0 [0xED, BlockOp.output.repeating .down] ∧ Holds bus 0x100 [0xED, BlockOp.input.repeating .up] ∧
      (∀ i < 2, Direction.up.offset d.regs.hl i ≠ 0x100 ∧ Direction.up.offset d.regs.hl i ≠ 0x101) ∧
      (∃ bus', c.Finishes (fun _ => unbounded) 2 (c.streamed .down 2) bus' ∧
        bus'.heard = [.output 5 0xED, .output 5 7]) ∧
      ∃ bus', d.Finishes (fun _ => unbounded) 2 (d.streamed .up 2) bus' ∧
        bus'.heard = [.input 5 1, .input 5 2] ∧ peek bus' 0xFFFF = 1 ∧ peek bus' 0 = 2 := by
  intro ram bus c d
  have hc : c.Underway := ⟨nofun, rfl, rfl, rfl⟩
  have hd : d.Underway := ⟨nofun, rfl, rfl, rfl⟩
  have hflat : Flat bus := Tapped.flat (FlatBus.flat _)
  have hpeek (x : UInt16) : peek bus x = if 0x101 = x then 0xB2 else if 0x100 = x then 0xED
      else if 1 = x then 0xBB else if 0 = x then 0xED else if 0xFFFF = x then 7 else 0 := by
    simp only [bus, ram, peek, Bus.read, Ram.setAll, Ram.get_set, Ram.empty, Ram.get_filled]
    rfl
  have hout : Holds bus 0 [0xED, BlockOp.output.repeating .down] := by
    simp [Holds, cells, hpeek, BlockOp.repeating]
  have hin : Holds bus 0x100 [0xED, BlockOp.input.repeating .up] := by
    simp [Holds, cells, hpeek, BlockOp.repeating]
  have hapart : ∀ i < 2, Direction.up.offset d.regs.hl i ≠ 0x100 ∧ Direction.up.offset d.regs.hl i ≠ 0x101 := by
    decide
  have hn : (if c.regs.b = 0 then 256 else c.regs.b.toNat) = 2 := by decide
  have hn' : (if d.regs.b = 0 then 256 else d.regs.b.toNat) = 2 := by decide
  have hsends := (stream_finishes hc rfl hflat .down fun _ => unbounded).1 hout
  have hreceives := (stream_finishes hd rfl hflat .up fun _ => unbounded).2 hin
  simp only [hn] at hsends
  simp only [hn'] at hreceives
  obtain ⟨hreceived, hstored, -⟩ := hreceives hapart
  have hbytes : (List.range 2).map (fun i => peek c.bus (Direction.down.offset c.regs.hl i)) = [0xED, 7] := by
    change (List.range 2).map (fun i => peek bus (Direction.down.offset c.regs.hl i)) = [0xED, 7]
    simp only [hpeek]
    decide
  have hhl : d.regs.hl = 0xFFFF := by decide
  rw [hhl] at hreceived hstored
  rw [hbytes] at hsends
  have hfirst := hstored 0 (by decide)
  have hsecond := hstored 1 (by decide)
  rw [Direction.offset_zero] at hfirst
  rw [show Direction.up.offset 0xFFFF 1 = 0 by decide] at hsecond
  exact ⟨hc, hd, hflat, rfl, rfl, hout, hin, hapart, ⟨_, hsends.1, rfl⟩, _, hreceived, rfl, hfirst, hsecond⟩

end Cpu

end Z80Machine
