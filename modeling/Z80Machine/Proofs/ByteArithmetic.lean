import Z80Machine.Bus.Flat
import Z80Machine.Proofs.Operands
import Z80Machine.Proofs.TwosComplement

/-! Arithmetic on one byte, on whatever operand. The result and each flag are what arithmetic defines them to be, with no
word of how they are come by, and nothing else of the machine changes. -/

namespace Z80Machine

open Arithmetic

namespace Flags

variable (f : Flags) (a b v : UInt8) (k : Nat)

structure Describes : Prop where
  s : f.s = true ↔ Byte.toSigned v < 0
  z : f.z = true ↔ v = 0

structure Copies : Prop where
  y : f.y = Byte.bit b 5
  x : f.x = Byte.bit b 3

structure Sum : Prop extends Describes f v where
  result : v.toNat = (a.toNat + b.toNat + k) % 256
  h : f.h = true ↔ 16 ≤ a.toNat % 16 + b.toNat % 16 + k
  pv : f.pv = true ↔ Byte.toSigned v ≠ Byte.toSigned a + Byte.toSigned b + k
  n : f.n = false

structure Difference : Prop extends Describes f v where
  result : (v.toNat : Int) = (a.toNat - b.toNat - k) % 256
  h : f.h = true ↔ a.toNat % 16 < b.toNat % 16 + k
  pv : f.pv = true ↔ Byte.toSigned v ≠ Byte.toSigned a - Byte.toSigned b - k
  n : f.n = true

structure Logic : Prop extends Describes f v where
  pv : f.pv = true ↔ (List.range 8).countP (Byte.bit v) % 2 = 0
  n : f.n = false

end Flags

/-- What an operation of the accumulator group makes of A, the operand and the carry by definition. -/
def AluOp.Means (op : AluOp) (a b : UInt8) (carry : Bool) (r : UInt8) (f : Flags) : Prop :=
  let k := carryBit (op.takesCarry && carry)
  match op with
  | add | adc => f.Sum a b r k ∧ (f.c = true ↔ 256 ≤ a.toNat + b.toNat + k) ∧ f.Copies r
  | sub | sbc => f.Difference a b r k ∧ (f.c = true ↔ a.toNat < b.toNat + k) ∧ f.Copies r
  | cp => r = a ∧ (∃ d, f.Difference a b d k) ∧ (f.c = true ↔ a.toNat < b.toNat) ∧ f.Copies b
  | and => (∀ i, Byte.bit r i = (Byte.bit a i && Byte.bit b i)) ∧ f.Logic r ∧ f.h = true ∧ f.c = false ∧ f.Copies r
  | xor => (∀ i, Byte.bit r i = (Byte.bit a i ^^ Byte.bit b i)) ∧ f.Logic r ∧ f.h = false ∧ f.c = false ∧ f.Copies r
  | or => (∀ i, Byte.bit r i = (Byte.bit a i || Byte.bit b i)) ∧ f.Logic r ∧ f.h = false ∧ f.c = false ∧ f.Copies r

/-! The operations on bytes -/

lemma Byte.toSigned_neg (v : UInt8) : Byte.toSigned v < 0 ↔ bit v 7 = true := by
  have hlt := v.toNat_lt
  simp only [toSigned_eq, bit_seven, decide_eq_true_iff]
  split <;> omega

lemma Byte.evenParity_iff (v : UInt8) : evenParity v = true ↔ (List.range 8).countP (bit v) % 2 = 0 := by
  have hbyte : ∀ n : Fin 256, evenParity (UInt8.ofFin n) = true ↔
      (List.range 8).countP (bit (UInt8.ofFin n)) % 2 = 0 := by
    decide +kernel
  exact hbyte v.toFin

namespace Arithmetic

variable (a b v : UInt8) (c : Bool)

lemma sum_add : (add a b c).2.Sum a b (add a b c).1 (carryBit c) where
  s := (Byte.toSigned_neg _).symm
  z := beq_iff_eq
  result := toNat_add a b c
  h := decide_eq_true_iff
  pv := add_overflows a b c
  n := rfl

lemma difference_sub : (sub a b c).2.Difference a b (sub a b c).1 (carryBit c) where
  s := (Byte.toSigned_neg _).symm
  z := beq_iff_eq
  result := by
    have ha := a.toNat_lt
    have hb := b.toNat_lt
    have hc := carryBit_le c
    rw [toNat_sub]
    omega
  h := decide_eq_true_iff
  pv := sub_overflows a b c
  n := rfl

lemma logic_ofLogic : (Flags.ofLogic v).Logic v where
  s := (Byte.toSigned_neg _).symm
  z := beq_iff_eq
  pv := Byte.evenParity_iff v
  n := rfl

lemma inc_eq : inc b c = ((add b 1 false).1, { (add b 1 false).2 with c }) := by
  have hbyte : ∀ n : Fin 256, inc (UInt8.ofFin n) c =
      ((add (UInt8.ofFin n) 1 false).1, { (add (UInt8.ofFin n) 1 false).2 with c }) := by
    cases c <;> decide +kernel
  exact hbyte b.toFin

lemma dec_eq : dec b c = ((sub b 1 false).1, { (sub b 1 false).2 with c }) := by
  have hbyte : ∀ n : Fin 256, dec (UInt8.ofFin n) c =
      ((sub (UInt8.ofFin n) 1 false).1, { (sub (UInt8.ofFin n) 1 false).2 with c }) := by
    cases c <;> decide +kernel
  exact hbyte b.toFin

lemma sum_inc : (inc b c).2.Sum b 1 (inc b c).1 0 := by
  rw [inc_eq]
  exact { sum_add b 1 false with }

lemma difference_dec : (dec b c).2.Difference b 1 (dec b c).1 0 := by
  rw [dec_eq]
  exact { difference_sub b 1 false with }

theorem means_perform (op : AluOp) : op.Means a b c (perform op a b c).1 (perform op a b c).2 := by
  cases op with
  | add => exact ⟨sum_add a b false, decide_eq_true_iff, rfl, rfl⟩
  | adc => exact ⟨sum_add a b c, decide_eq_true_iff, rfl, rfl⟩
  | sub => exact ⟨difference_sub a b false, decide_eq_true_iff, rfl, rfl⟩
  | sbc => exact ⟨difference_sub a b c, decide_eq_true_iff, rfl, rfl⟩
  | cp => exact ⟨rfl, ⟨_, { difference_sub a b false with }⟩, decide_eq_true_iff, rfl, rfl⟩
  | and => exact ⟨fun i => by simp [perform, Byte.bit], { logic_ofLogic (a &&& b) with }, rfl, rfl, rfl, rfl⟩
  | xor => exact ⟨fun i => by simp [perform, Byte.bit], logic_ofLogic (a ^^^ b), rfl, rfl, rfl, rfl⟩
  | or => exact ⟨fun i => by simp [perform, Byte.bit], logic_ofLogic (a ||| b), rfl, rfl, rfl, rfl⟩

end Arithmetic

/-! The instructions -/

namespace Cpu

variable {B : Type} [Bus B] (c : Cpu B)

/-- An instruction of the accumulator group leaves its result in A, one that counts a byte leaves it where the byte
was. -/
theorem byte_arithmetic :
    let op := (c.core.upcoming c.bus).op
    (∀ k src, op = .alu k src → src.Usual ∧ ∃ v f,
      k.Means c.regs.a (c.operand src) c.regs.flags.c v f ∧
        c.Settles src none ({ c.regs with a := v }.setFlags f)) ∧
    (∀ o, op = .inc o → o.Target ∧ ∃ v f,
      f.Sum (c.operand o) 1 v 0 ∧ f.c = c.regs.flags.c ∧ f.Copies v ∧
        c.Settles o (some v) (o.given (c.regs.setFlags f) v)) ∧
    (∀ o, op = .dec o → o.Target ∧ ∃ v f,
      f.Difference (c.operand o) 1 v 0 ∧ f.c = c.regs.flags.c ∧ f.Copies v ∧
        c.Settles o (some v) (o.given (c.regs.setFlags f) v)) := by
  intro op
  have husual : op.Usual := c.core.upcoming_usual c.bus
  refine ⟨fun k src hop => ?_, fun o hop => ?_, fun o hop => ?_⟩
  · rw [hop] at husual
    exact ⟨husual, _, _, means_perform _ _ _ k, c.settles (.alu k) none hop rfl husual (.inr fun _ _ => rfl) nofun⟩
  · rw [hop] at husual
    exact ⟨husual, _, _, sum_inc _ _, rfl, ⟨rfl, rfl⟩, c.settles .inc none hop rfl husual.usual (.inl husual) nofun⟩
  · rw [hop] at husual
    exact ⟨husual, _, _, difference_dec _ _, rfl, ⟨rfl, rfl⟩,
      c.settles .dec none hop rfl husual.usual (.inl husual) nofun⟩

/-- A difference with a byte behind IX that borrows and overflows, a half of IX that comes to its highest value, and a
byte in memory that goes below zero. -/
theorem byte_arithmetic_operands :
    let cpu (code : List UInt8) (ix : UInt16) : Cpu FlatBus :=
      { bus := { ram := (Ram.empty.setAll 0 code).set 0x40 0x80 }
        core := { regs := { a := 0x10, f := 0x01, l := 0x40, ix } } }
    let sub := cpu [0xDD, 0x96, 0xFF] 0x41
    let inc := cpu [0xDD, 0x24] 0x7FFF
    let dec := cpu [0x35] 0
    ((sub.core.upcoming sub.bus).op = .alu .sub (.indexed .ix 0xFF) ∧
      (inc.core.upcoming inc.bus).op = .inc (.reg .ixh) ∧ (dec.core.upcoming dec.bus).op = .dec (.indirect .hl)) ∧
      (sub.runInstruction.2.regs.a = 0x90 ∧ sub.runInstruction.2.regs.flags.pv = true) ∧
      (inc.runInstruction.2.regs.ix = 0x80FF ∧ inc.runInstruction.2.regs.flags.c = true) ∧
      (dec.core.cycle dec.trace).accesses dec.bus = [.read 0 0x35, .read 0x40 0x80, .write 0x40 0x7F] ∧
      dec.runInstruction.2.regs.a = 0x10 := by
  intro cpu sub inc dec
  have hsub : (sub.core.upcoming sub.bus).op = .alu .sub (.indexed .ix 0xFF) := by decide +kernel
  have hinc : (inc.core.upcoming inc.bus).op = .inc (.reg .ixh) := by decide +kernel
  have hdec : (dec.core.upcoming dec.bus).op = .dec (.indirect .hl) := by decide +kernel
  obtain ⟨-, v, f, ⟨hv, -⟩, hsettles⟩ := sub.byte_arithmetic.1 .sub _ hsub
  obtain ⟨-, w, g, hw, hc, -, hcounted⟩ := inc.byte_arithmetic.2.1 _ hinc
  obtain ⟨-, x, e, hx, -, -, hstored⟩ := dec.byte_arithmetic.2.2 _ hdec
  have hoperand : sub.operand (.indexed .ix 0xFF) = 0x80 ∧ inc.operand (.reg .ixh) = 0x7F ∧
      dec.operand (.indirect .hl) = 0x80 := by decide +kernel
  obtain ⟨hs, hi, hd⟩ := hoperand
  rw [hs] at hv
  rw [hi] at hw
  rw [hd] at hx
  have hvalue : v = 0x90 := UInt8.toNat_inj.mp (Int.ofNat_inj.mp (hv.result.trans (by decide)))
  have hcount : w = 0x80 := UInt8.toNat_inj.mp (hw.result.trans (by decide))
  have hless : x = 0x7F := UInt8.toNat_inj.mp (Int.ofNat_inj.mp (hx.result.trans (by decide)))
  subst hvalue hcount hless
  refine ⟨⟨hsub, hinc, hdec⟩, ⟨congrArg (·.a) hsettles.regs, ?_⟩, ⟨?_, ?_⟩, ?_, congrArg (·.a) hstored.regs⟩
  · rw [hsettles.regs]
    exact (congrArg Flags.pv (Flags.ofByte_toByte f)).trans (hv.pv.mpr (by decide))
  · exact (congrArg (·.ix) hcounted.regs).trans (show Word.ofBytes 0x80 (Word.low 0x7FFF) = 0x80FF by decide)
  · rw [hcounted.regs]
    exact (congrArg Flags.c (Flags.ofByte_toByte g)).trans (hc.trans (by decide))
  · rw [hstored.accesses, hd]
    decide +kernel

end Cpu

end Z80Machine
