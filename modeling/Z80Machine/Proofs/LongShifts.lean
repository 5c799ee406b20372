import Z80Machine.Proofs.ByteArithmetic

/-! Shifts of numbers of any length, byte by byte. A shift to the left adds the number to itself, a shift to the right
undoes such a sum, and the carry flag takes a bit from each byte to the next. -/

namespace Z80Machine

open Arithmetic Bus

namespace Arithmetic

lemma shiftLeft_worth (b : UInt8) (low : Bool) :
    (shiftLeft b low).toNat + 256 * carryBit (Byte.bit b 7) = b.toNat + b.toNat + carryBit low := by
  have hbyte : ∀ n : Fin 256, (shiftLeft (UInt8.ofFin n) low).toNat + 256 * carryBit (Byte.bit (UInt8.ofFin n) 7) =
      n.val + n.val + carryBit low := by
    cases low <;> decide +kernel
  exact hbyte b.toFin

lemma shiftRight_worth (b : UInt8) (high : Bool) : b.toNat + 256 * carryBit high =
    (shiftRight b high).toNat + (shiftRight b high).toNat + carryBit (Byte.bit b 0) := by
  have hbyte : ∀ n : Fin 256, n.val + 256 * carryBit high =
      (shiftRight (UInt8.ofFin n) high).toNat + (shiftRight (UInt8.ofFin n) high).toNat +
        carryBit (Byte.bit (UInt8.ofFin n) 0) := by
    cases high <;> decide +kernel
  exact hbyte b.toFin

lemma shiftRight_sign (b : UInt8) (high : Bool) : Byte.bit (shiftRight b high) 7 = high := by
  have hlt := b.toNat_lt
  have hbit := carryBit_le (Byte.bit b 0)
  have hworth := shiftRight_worth b high
  rw [Byte.bit_seven]
  cases high with
  | false =>
    rw [carryBit_false] at hworth
    exact decide_eq_false (by omega)
  | true =>
    rw [carryBit_true] at hworth
    exact decide_eq_true (by omega)

lemma carryBit_inj {c c' : Bool} (h : carryBit c = carryBit c') : c = c' := by
  cases c <;> cases c' <;> first | rfl | contradiction

lemma logic_shift (op : ShiftOp) (b : UInt8) (carry : Bool) : (shift op b carry).2.Logic (shifted op b carry).1 :=
  { logic_ofLogic (shifted op b carry).1 with }

end Arithmetic

/-! Bytes one after another -/

namespace ShiftOp

/-- One byte after another, the first by `op` and the others by `next`, with the carry going from each to the one behind
it: what becomes of the bytes, and the carry at the end. -/
def sweep (op next : ShiftOp) (carry : Bool) : List UInt8 → List UInt8 × Bool
  | [] => ([], carry)
  | b :: bs =>
    let s := shifted op b carry
    let t := sweep next next s.2 bs
    (s.1 :: t.1, t.2)

variable (op : ShiftOp) (carry : Bool) (b : UInt8) (bs : List UInt8)

lemma length_sweep (next : ShiftOp) : (sweep op next carry bs).1.length = bs.length := by
  induction bs generalizing op carry with
  | nil => rfl
  | cons b bs ih => exact congrArg (· + 1) (ih next (shifted op b carry).2)

lemma sweep_concat : sweep op op carry (bs ++ [b]) =
    let t := sweep op op carry bs
    let s := shifted op b t.2
    (t.1 ++ [s.1], s.2) := by
  induction bs generalizing carry with
  | nil => rfl
  | cons b bs ih => simp only [List.cons_append, sweep, ih]

end ShiftOp

namespace Numeral

open ShiftOp

variable (carry : Bool) (bs : List UInt8)

lemma columns_left :
    let t := sweep .rl .rl carry bs
    Columns binary.Sum t.1 bs bs (carryBit carry) (carryBit t.2) := by
  induction bs generalizing carry with
  | nil => exact .nil _
  | cons b bs ih => exact .cons (shiftLeft_worth b carry) (ih (Byte.bit b 7))

lemma columns_right :
    let t := sweep .rr .rr carry bs.reverse
    Columns binary.Sum bs t.1.reverse t.1.reverse (carryBit t.2) (carryBit carry) := by
  induction bs with
  | nil => exact .nil _
  | cons b bs ih =>
    -- the sweep comes to the lowest byte last, but the carries of the sum run from there
    simp only [List.reverse_cons, sweep_concat, List.reverse_append, List.reverse_nil, List.nil_append,
      List.singleton_append]
    exact .cons (shiftRight_worth b (sweep .rr .rr carry bs.reverse).2) ih

lemma value_left : binary.value (sweep .rl .rl carry bs).1 + 256 ^ bs.length * carryBit (sweep .rl .rl carry bs).2 =
    2 * binary.value bs + carryBit carry := by
  have hvalue := (columns_left carry bs).value
  rw [length_sweep] at hvalue
  rw [two_mul]
  exact hvalue

lemma value_right : binary.value bs + 256 ^ bs.length * carryBit carry =
    2 * binary.value (sweep .rr .rr carry bs.reverse).1.reverse + carryBit (sweep .rr .rr carry bs.reverse).2 := by
  rw [two_mul]
  exact (columns_right carry bs).value

lemma value_inj {xs ys : List UInt8} (hlen : xs.length = ys.length) (h : binary.value xs = binary.value ys) :
    xs = ys := by
  induction xs generalizing ys with
  | nil => exact (List.length_eq_zero_iff.mp hlen.symm).symm
  | cons x xs ih =>
    cases ys with
    | nil => exact absurd hlen (Nat.succ_ne_zero _)
    | cons y ys =>
      have hx := x.toNat_lt
      have hy := y.toNat_lt
      rw [value_cons, value_cons] at h
      change x.toNat + 256 * _ = y.toNat + 256 * _ at h
      obtain rfl : x = y := UInt8.toNat_inj.mp (by omega)
      rw [ih (Nat.succ.inj hlen) (by omega)]

lemma right_left :
    let t := sweep .rl .rl carry bs
    let u := sweep .rr .rr t.2 t.1.reverse
    u.1.reverse = bs ∧ u.2 = carry := by
  intro t u
  have hleft := value_left carry bs
  have hright := value_right t.2 t.1
  have hlen : u.1.reverse.length = bs.length := by
    rw [List.length_reverse, length_sweep, List.length_reverse, length_sweep]
  rw [length_sweep] at hright
  have hin := carryBit_le carry
  have hout := carryBit_le u.2
  have htwice : 2 * binary.value bs + carryBit carry = 2 * binary.value u.1.reverse + carryBit u.2 :=
    hleft.symm.trans hright
  refine ⟨value_inj hlen (by omega), ?_⟩
  exact carryBit_inj (by omega)

lemma signed_of_sign (b : UInt8) : signed (bs ++ [b]) =
    binary.value (bs ++ [b]) - (256 ^ (bs ++ [b]).length * carryBit (Byte.bit b 7) : Nat) := by
  rw [signed_concat, value_concat, Byte.toSigned_eq, List.length_append, List.length_singleton, pow_succ]
  change _ = ((_ + 256 ^ bs.length * b.toNat : Nat) : Int) - _
  cases Byte.bit b 7 with
  | false => simp
  | true =>
    simp
    ring

lemma signed_right (b : UInt8) (high : Bool) : signed (sweep .rr .rr high (bs ++ [b]).reverse).1.reverse =
    binary.value (sweep .rr .rr high (bs ++ [b]).reverse).1.reverse -
      (256 ^ (bs ++ [b]).length * carryBit high : Nat) := by
  have hlen : (sweep .rr .rr (Byte.bit b 0) bs.reverse).1.reverse.length = bs.length := by
    rw [List.length_reverse, length_sweep, List.length_reverse]
  have hsign := signed_of_sign (sweep .rr .rr (Byte.bit b 0) bs.reverse).1.reverse (shiftRight b high)
  rw [shiftRight_sign, List.length_append, hlen, ← List.reverse_cons] at hsign
  rw [List.reverse_concat, List.length_append]
  exact hsign

lemma pow_bytes {n : Nat} (h : n ≠ 0) : 256 ^ n = 2 * 2 ^ (8 * n - 1) := by
  rw [← pow_succ', show 256 = 2 ^ 8 from rfl, ← pow_mul, Nat.sub_add_cancel (by omega)]

variable {bs}

lemma carry_left (hne : bs ≠ []) :
    (sweep .rl .rl false bs).2 = (binary.value bs).testBit (8 * bs.length - 1) := by
  have hvalue := value_left false bs
  have hlt := value_binary_lt (sweep .rl .rl false bs).1
  have hbound := value_binary_lt bs
  rw [length_sweep] at hlt
  rw [pow_bytes (mt List.length_eq_zero_iff.mp hne)] at hvalue hlt hbound
  rw [Nat.testBit_eq_decide_div_mod_eq]
  generalize 2 ^ (8 * bs.length - 1) = m at *
  cases h : (sweep .rl .rl false bs).2 with
  | false =>
    rw [h, carryBit_false] at hvalue
    rw [Nat.div_eq_of_lt (by omega)]
    rfl
  | true =>
    rw [h, carryBit_false, carryBit_true] at hvalue
    rw [Nat.div_eq_of_lt_le (k := 1) (by omega) (by omega)]
    rfl

lemma carry_right (hne : bs ≠ []) : (sweep .rr .rr carry bs.reverse).2 = (binary.value bs).testBit 0 := by
  have hvalue := value_right carry bs
  rw [pow_bytes (mt List.length_eq_zero_iff.mp hne), mul_assoc] at hvalue
  rw [Nat.testBit_zero]
  cases h : (sweep .rr .rr carry bs.reverse).2 with
  | false =>
    rw [h, carryBit_false] at hvalue
    exact (decide_eq_false (by omega)).symm
  | true =>
    rw [h, carryBit_true] at hvalue
    exact (decide_eq_true (by omega)).symm

lemma sweep_first {op next : ShiftOp} {b : UInt8} {carry first : Bool}
    (h : shifted op b carry = shifted next b first) (bs : List UInt8) :
    sweep op next carry (b :: bs) = sweep next next first (b :: bs) := by
  rw [sweep, sweep, h]

variable (bs) in
theorem left_doubles :
    let t := sweep .sla .rl carry bs
    binary.value t.1 = 2 * binary.value bs % 256 ^ bs.length ∧
      (bs ≠ [] → t.2 = (binary.value bs).testBit (8 * bs.length - 1)) := by
  rcases eq_or_ne bs [] with rfl | hne
  · exact ⟨(Nat.zero_mod _).symm, absurd rfl⟩
  obtain ⟨b, low, hbs⟩ := List.exists_cons_of_ne_nil hne
  have hfirst : sweep .sla .rl carry bs = sweep .rl .rl false bs := by
    rw [hbs]
    exact sweep_first (show shifted .sla b carry = shifted .rl b false from rfl) low
  have hvalue : _ = 2 * binary.value bs := value_left false bs
  have hlt := value_binary_lt (sweep .rl .rl false bs).1
  rw [length_sweep] at hlt
  rw [hfirst]
  refine ⟨?_, carry_left⟩
  rw [← hvalue, Nat.add_mul_mod_self_left, Nat.mod_eq_of_lt hlt]

variable (bs) in
theorem right_halves :
    let t := sweep .srl .rr carry bs.reverse
    binary.value t.1.reverse = binary.value bs / 2 ∧ (bs ≠ [] → t.2 = (binary.value bs).testBit 0) := by
  rcases eq_or_ne bs [] with rfl | hne
  · exact ⟨rfl, absurd rfl⟩
  obtain ⟨b, high, hbs⟩ := List.exists_cons_of_ne_nil (mt List.reverse_eq_nil_iff.mp hne)
  have hfirst : sweep .srl .rr carry bs.reverse = sweep .rr .rr false bs.reverse := by
    rw [hbs]
    exact sweep_first (show shifted .srl b carry = shifted .rr b false from rfl) high
  have hvalue : binary.value bs = _ := value_right false bs
  have hbit := carryBit_le (sweep .rr .rr false bs.reverse).2
  rw [hfirst]
  exact ⟨by omega, carry_right false⟩

variable (bs) in
theorem right_halves_signed :
    let t := sweep .sra .rr carry bs.reverse
    signed t.1.reverse = signed bs / 2 ∧ (bs ≠ [] → t.2 = (binary.value bs).testBit 0) := by
  obtain rfl | ⟨low, b, rfl⟩ := List.eq_nil_or_concat' bs
  · exact ⟨show signed [] = signed [] / 2 from rfl, absurd rfl⟩
  have hfirst : sweep .sra .rr carry (low ++ [b]).reverse = sweep .rr .rr (Byte.bit b 7) (low ++ [b]).reverse := by
    rw [List.reverse_concat]
    exact sweep_first (show shifted .sra b carry = shifted .rr b (Byte.bit b 7) from rfl) low.reverse
  have hvalue := value_right (Byte.bit b 7) (low ++ [b])
  have hbit := carryBit_le (sweep .rr .rr (Byte.bit b 7) (low ++ [b]).reverse).2
  rw [hfirst]
  refine ⟨?_, carry_right _⟩
  rw [signed_right, signed_of_sign]
  omega

end Numeral

/-! Bytes of the machine -/

inductive Place where
  | register (x : Register)
  | cell (addr : UInt16)
  deriving DecidableEq

lemma Registers.get_set_of_ne (r : Registers) {x y : Register} (h : y ≠ x) (v : UInt8) :
    (r.set x v).get y = r.get y := by
  cases x <;> cases y <;> first | rfl | exact absurd rfl h | simp [set, get]

def Operand.place? (o : Operand) (r : Registers) : Option Place :=
  match o with
  | reg x => some (.register x)
  | o => (o.address? r).map .cell

lemma Registers.flags_set (r : Registers) (x : Register) (v : UInt8) : (r.set x v).flags = r.flags := by
  cases x <;> rfl

lemma Registers.get_copied (r : Registers) {copy : Option Register} {y : Register} (h : ∀ x, copy = some x → y ≠ x)
    (v : UInt8) : (copy.elim r (r.set · v)).get y = r.get y := by
  cases copy with
  | none => rfl
  | some x => exact r.get_set_of_ne (h x rfl) v

lemma Registers.flags_copied (r : Registers) (copy : Option Register) (v : UInt8) :
    (copy.elim r (r.set · v)).flags = r.flags := by
  cases copy with
  | none => rfl
  | some x => exact r.flags_set x v

lemma Operand.place_cases {o : Operand} {r : Registers} {p : Place} (h : o.place? r = some p) :
    (∃ x, o = .reg x ∧ p = .register x) ∨
      ∃ ea, o.address? r = some ea ∧ p = .cell ea ∧ ∀ s v, o.given s v = s := by
  cases o with
  | reg x => exact .inl ⟨x, rfl, (Option.some.inj h).symm⟩
  | imm => cases h
  | _ => exact .inr ⟨_, rfl, (Option.some.inj h).symm, fun _ _ => rfl⟩

namespace Cpu

variable {B : Type} [Bus B]

def byteAt (c : Cpu B) : Place → UInt8
  | .register x => c.regs.get x
  | .cell addr => peek c.bus addr

def Settable (c : Cpu B) : Place → Prop
  | .register _ => True
  | .cell addr => Writable c.bus addr

/-- Whatever there is between one shift and the next, it leaves the carry and these bytes alone. -/
structure Keeps (buffer : List Place) (c d : Cpu B) : Prop where
  carry : d.regs.flags.c = c.regs.flags.c
  bytes : ∀ p ∈ buffer, d.byteAt p = c.byteAt p

structure Shifting (c : Cpu B) (buffer : List Place) (op : ShiftOp) (p : Place) : Prop where
  settable : c.Settable p
  upcoming : ∃ o copy, (c.core.upcoming c.bus).op = .shift op o copy ∧ o.place? c.regs = some p ∧
    ∀ x, copy = some x → .register x ∉ buffer

inductive Sweep (buffer : List Place) (next : ShiftOp) : ShiftOp → Cpu B → List Place → Cpu B → Prop where
  | done {op : ShiftOp} {c : Cpu B} : Sweep buffer next op c [] c
  | shift {op : ShiftOp} {c d e : Cpu B} {p : Place} {ps : List Place} (now : c.Shifting buffer op p)
      (keeps : Keeps buffer c.runInstruction.2 d) (rest : Sweep buffer next next d ps e) :
      Sweep buffer next op c (p :: ps) e

structure Shifts (c : Cpu B) (op : ShiftOp) (o : Operand) (copy : Option Register) : Prop where
  target : o.Target
  copied : ∀ x, copy = some x → ∃ mode offset, o = .indexed mode offset
  settles : let s := shifted op (c.operand o) c.regs.flags.c
    ∃ f : Flags, f.Logic s.1 ∧ f.h = false ∧ f.c = s.2 ∧
      let r := c.regs.setFlags f
      c.Settles o (some s.1) (o.given (copy.elim r (r.set · s.1)) s.1)

variable {buffer : List Place} {op next : ShiftOp} {c d : Cpu B} {p : Place} {ps : List Place} {o : Operand}
  {copy : Option Register}

theorem shifts (c : Cpu B) (hop : (c.core.upcoming c.bus).op = .shift op o copy) : c.Shifts op o copy := by
  have husual : (Op.shift op o copy).Usual := hop ▸ c.core.upcoming_usual c.bus
  obtain ⟨htarget, hcopy⟩ := husual
  exact ⟨htarget, hcopy, _, logic_shift op (c.operand o) c.regs.flags.c, rfl, rfl,
    c.settles (.shift op) copy hop rfl htarget.usual (.inl htarget) hcopy⟩

variable [SteadyBus B]

lemma operand_of_place (hp : o.place? c.regs = some p) : c.operand o = c.byteAt p := by
  rw [operand_eq]
  cases o with
  | imm => cases hp
  | _ =>
    cases hp
    rfl

lemma Shifting.run (h : c.Shifting buffer op p) :
    let s := shifted op (c.byteAt p) c.regs.flags.c
    c.runInstruction.2.byteAt p = s.1 ∧ c.runInstruction.2.regs.flags.c = s.2 ∧
      ∀ q ∈ buffer, q ≠ p → c.runInstruction.2.byteAt q = c.byteAt q := by
  obtain ⟨o, copy, hop, hp, hapart⟩ := h.upcoming
  obtain ⟨-, hcopied, f, -, -, hcarry, hsettles⟩ := c.shifts hop
  rw [operand_of_place hp] at hsettles hcarry
  have hsettable := h.settable
  have hset (x : Register) : (c.regs.setFlags f).get x = c.regs.get x := by
    cases x <;> rfl
  obtain ⟨x, rfl, rfl⟩ | ⟨ea, hea, rfl, hgiven⟩ := Operand.place_cases hp
  · obtain rfl : copy = none := by
      cases copy with
      | none => rfl
      | some y =>
        obtain ⟨mode, offset, ho⟩ := hcopied y rfl
        cases ho
    refine ⟨(hsettles.get x).trans (Registers.get_set _ x _), ?_, fun q hq hne => ?_⟩
    · rw [hsettles.flags, ← hcarry]
      exact congrArg Flags.c ((Registers.flags_set _ x _).trans (Registers.flags_setFlags _ f))
    · cases q with
      | register y =>
        have hyx : y ≠ x := fun h => hne (congrArg Place.register h)
        exact (hsettles.get y).trans ((Registers.get_set_of_ne _ hyx _).trans (hset y))
      | cell addr => exact congrArg (Bus.peek · addr) hsettles.bus
  · simp only [hgiven] at hsettles
    refine ⟨(hsettles.peek hea hsettable ea).trans (if_pos rfl), ?_, fun q hq hne => ?_⟩
    · rw [hsettles.flags, ← hcarry]
      exact congrArg Flags.c ((Registers.flags_copied _ copy _).trans (Registers.flags_setFlags _ f))
    · cases q with
      | register y =>
        have hcopy (x : Register) (hx : copy = some x) : y ≠ x := fun h => hapart x hx (h ▸ hq)
        exact (hsettles.get y).trans ((Registers.get_copied _ hcopy _).trans (hset y))
      | cell addr => exact (hsettles.peek hea hsettable addr).trans (if_neg fun h => hne (congrArg Place.cell h))

lemma Sweep.swept (h : Sweep buffer next op c ps d) (hsub : ∀ p ∈ ps, p ∈ buffer) (hne : ps.Nodup) :
    let t := ShiftOp.sweep op next c.regs.flags.c (ps.map c.byteAt)
    ps.map d.byteAt = t.1 ∧ d.regs.flags.c = t.2 ∧ ∀ q ∈ buffer, q ∉ ps → d.byteAt q = c.byteAt q := by
  induction h with
  | done => exact ⟨rfl, rfl, fun _ _ _ => rfl⟩
  | @shift op c d e p ps now keeps rest ih =>
    obtain ⟨hp, hps⟩ := List.forall_mem_cons.mp hsub
    obtain ⟨hapart, hne⟩ := List.nodup_cons.mp hne
    obtain ⟨hbyte, hcarry, hothers⟩ := now.run
    obtain ⟨hbytes, hlast, hrest⟩ := ih hps hne
    have hstart : ps.map d.byteAt = ps.map c.byteAt := by
      apply List.map_congr_left
      intro q hq
      exact (keeps.bytes q (hps q hq)).trans (hothers q (hps q hq) (ne_of_mem_of_not_mem hq hapart))
    rw [hstart, keeps.carry, hcarry] at hbytes hlast
    refine ⟨?_, hlast, fun q hq hqs => ?_⟩
    · rw [List.map_cons, List.map_cons, hbytes, hrest p hp hapart, keeps.bytes p hp, hbyte]
      rfl
    · obtain ⟨hqp, hqs⟩ := not_or.mp (List.mem_cons.not.mp hqs)
      rw [hrest q hq hqs, keeps.bytes q hq, hothers q hq hqp]

lemma Sweep.swept_back (h : Sweep buffer next op c buffer.reverse d) (hne : buffer.Nodup) :
    let t := ShiftOp.sweep op next c.regs.flags.c (buffer.map c.byteAt).reverse
    buffer.map d.byteAt = t.1.reverse ∧ d.regs.flags.c = t.2 := by
  obtain ⟨hbytes, hcarry, -⟩ := h.swept (fun p => List.mem_reverse.mp) (List.nodup_reverse.mpr hne)
  rw [List.map_reverse] at hbytes hcarry
  rw [List.map_reverse, List.reverse_eq_iff] at hbytes
  exact ⟨hbytes, hcarry⟩

open Numeral in
/-- Numbers of any length, shifted byte by byte through the carry, wherever their bytes are: doubled from the lowest byte
on, halved from the highest on, and turned left and right again. Each single shift leaves the flags of its result. -/
theorem long_shifts (c : Cpu B) {buffer : List Place} (hbuffer : buffer.Nodup) :
    let bytes (d : Cpu B) := buffer.map d.byteAt
    let x := binary.value (bytes c)
    let n := buffer.length
    (∀ d, Sweep buffer .rl .sla c buffer d →
      binary.value (bytes d) = 2 * x % 256 ^ n ∧ (n ≠ 0 → d.regs.flags.c = x.testBit (8 * n - 1))) ∧
    (∀ d, Sweep buffer .rr .srl c buffer.reverse d →
      binary.value (bytes d) = x / 2 ∧ (n ≠ 0 → d.regs.flags.c = x.testBit 0)) ∧
    (∀ d, Sweep buffer .rr .sra c buffer.reverse d →
      signed (bytes d) = signed (bytes c) / 2 ∧ (n ≠ 0 → d.regs.flags.c = x.testBit 0)) ∧
    (∀ d d' e, Sweep buffer .rl .rl c buffer d → Keeps buffer d d' → Sweep buffer .rr .rr d' buffer.reverse e →
      bytes e = bytes c ∧ e.regs.flags.c = c.regs.flags.c) ∧
    (∀ (d : Cpu B) op o copy, (d.core.upcoming d.bus).op = .shift op o copy → d.Shifts op o copy) := by
  intro bytes x n
  have hlength : (bytes c).length = n := List.length_map _
  have hfilled (h : n ≠ 0) : bytes c ≠ [] := fun hnil => h (by rw [← hlength, hnil]; rfl)
  refine ⟨fun d h => ?_, fun d h => ?_, fun d h => ?_, fun d d' e hleft hkeeps hright => ?_, fun d _ _ _ => d.shifts⟩
  · obtain ⟨hbytes, hcarry, -⟩ := h.swept (fun p hp => hp) hbuffer
    obtain ⟨hvalue, hout⟩ := left_doubles c.regs.flags.c (bytes c)
    rw [hlength] at hvalue hout
    exact ⟨(congrArg binary.value hbytes).trans hvalue, fun hn => hcarry.trans (hout (hfilled hn))⟩
  · obtain ⟨hbytes, hcarry⟩ := h.swept_back hbuffer
    obtain ⟨hvalue, hout⟩ := right_halves c.regs.flags.c (bytes c)
    exact ⟨(congrArg binary.value hbytes).trans hvalue, fun hn => hcarry.trans (hout (hfilled hn))⟩
  · obtain ⟨hbytes, hcarry⟩ := h.swept_back hbuffer
    obtain ⟨hvalue, hout⟩ := right_halves_signed c.regs.flags.c (bytes c)
    exact ⟨(congrArg signed hbytes).trans hvalue, fun hn => hcarry.trans (hout (hfilled hn))⟩
  · obtain ⟨hturned, hout, -⟩ := hleft.swept (fun p hp => hp) hbuffer
    obtain ⟨hbytes, hcarry⟩ := hright.swept_back hbuffer
    have hstart : buffer.map d'.byteAt = bytes d := List.map_congr_left hkeeps.bytes
    rw [hstart, hkeeps.carry, hout, show bytes d = _ from hturned] at hbytes hcarry
    obtain ⟨hsame, hback⟩ := right_left c.regs.flags.c (bytes c)
    exact ⟨hbytes.trans hsame, hcarry.trans hback⟩

theorem long_shifts_signed :
    let cpu (code : List UInt8) : Cpu FlatBus :=
      { bus := { ram := ((Ram.empty.setAll 0 code).set 0x20 0x81).set 0x30 0xC0 }
        core := { regs := { b := 0x01, l := 0x20, ix := 0x2F } } }
    let buffer : List Place := [.cell 0x20, .register .b, .cell 0x30]
    let left := cpu [0xCB, 0x26, 0xCB, 0x10, 0xDD, 0xCB, 0x01, 0x16]
    let right := cpu [0xDD, 0xCB, 0x01, 0x2E, 0xCB, 0x18, 0xCB, 0x1E]
    buffer.Nodup ∧
      (∃ d, Sweep buffer .rl .sla left buffer d ∧ Numeral.binary.value (buffer.map d.byteAt) = 0x800302 ∧
        d.regs.flags.c = true) ∧
      ∃ d, Sweep buffer .rr .sra right buffer.reverse d ∧ Numeral.signed (buffer.map d.byteAt) = -0x1FFF40 ∧
        d.regs.flags.c = true := by
  intro cpu buffer left right
  have hbuffer : buffer.Nodup := by decide
  have hkeeps (d : Cpu FlatBus) : Keeps buffer d d := ⟨rfl, fun _ _ => rfl⟩
  have hcell (b : FlatBus) (addr : UInt16) : Writable b addr := by simpa using (b.room (addr + 1)).high
  have hleft : Sweep buffer .rl .sla left buffer left.runInstruction.2.runInstruction.2.runInstruction.2 := by
    refine .shift ⟨hcell _ _, .indirect .hl, none, ?_, ?_, nofun⟩ (hkeeps _) ?_
    · decide +kernel
    · decide +kernel
    refine .shift ⟨trivial, .reg .b, none, ?_, ?_, nofun⟩ (hkeeps _) ?_
    · decide +kernel
    · decide +kernel
    refine .shift ⟨hcell _ _, .indexed .ix 0x01, none, ?_, ?_, nofun⟩ (hkeeps _) .done
    · decide +kernel
    · decide +kernel
  have hright : Sweep buffer .rr .sra right buffer.reverse right.runInstruction.2.runInstruction.2.runInstruction.2 := by
    refine .shift ⟨hcell _ _, .indexed .ix 0x01, none, ?_, ?_, nofun⟩ (hkeeps _) ?_
    · decide +kernel
    · decide +kernel
    refine .shift ⟨trivial, .reg .b, none, ?_, ?_, nofun⟩ (hkeeps _) ?_
    · decide +kernel
    · decide +kernel
    refine .shift ⟨hcell _ _, .indirect .hl, none, ?_, ?_, nofun⟩ (hkeeps _) .done
    · decide +kernel
    · decide +kernel
  have hbytes : buffer.map left.byteAt = [0x81, 0x01, 0xC0] ∧ buffer.map right.byteAt = [0x81, 0x01, 0xC0] := by
    decide +kernel
  obtain ⟨hdoubled, hout⟩ := (long_shifts left hbuffer).1 _ hleft
  obtain ⟨hhalved, hlow⟩ := (long_shifts right hbuffer).2.2.1 _ hright
  simp only [hbytes.1] at hdoubled hout
  simp only [hbytes.2] at hhalved hlow
  refine ⟨hbuffer, ⟨_, hleft, hdoubled.trans ?_, (hout (by decide)).trans ?_⟩,
    ⟨_, hright, hhalved.trans ?_, (hlow (by decide)).trans ?_⟩⟩
  all_goals decide +kernel

end Cpu

end Z80Machine
