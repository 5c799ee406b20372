import Z80Machine.Proofs.Rows
import Z80Machine.Proofs.TwosComplement

/-! Arithmetic on words against arithmetic on their bytes. A word operation leaves what the accumulator would leave that
takes the low bytes first and then the high ones with the carry. -/

namespace Z80Machine

namespace Word

lemma toNat_low (w : UInt16) : (low w).toNat = w.toNat % 256 :=
  UInt16.toNat_toUInt8 w

lemma toNat_high (w : UInt16) : (high w).toNat = w.toNat / 256 := by
  have hlt := w.toNat_lt
  simp only [high, UInt16.toNat_toUInt8, UInt16.toNat_div, UInt16.reduceToNat]
  omega

lemma toNat_ofBytes (h l : UInt8) : (ofBytes h l).toNat = 256 * h.toNat + l.toNat := by
  have hh := h.toNat_lt
  have hl := l.toNat_lt
  simp only [ofBytes, UInt16.toNat_add, UInt16.toNat_mul, UInt8.toNat_toUInt16, UInt16.reduceToNat]
  omega

end Word

namespace Arithmetic

def byHalves (f : UInt8 → UInt8 → Bool → UInt8 × Flags) (a b : UInt16) (c : Bool) : UInt16 × Flags :=
  let low := f (Word.low a) (Word.low b) c
  let high := f (Word.high a) (Word.high b) low.2.c
  (Word.ofBytes high.1 low.1, high.2)

variable (a b : UInt16) (c : Bool)

section Carry

variable (x y : UInt8)

lemma add_carry : carryBit (add x y c).2.c = (x.toNat + y.toNat + carryBit c) / 256 := by
  have hworth := add_worth x y c
  have hlt := (add x y c).1.toNat_lt
  omega

lemma sub_borrow : carryBit (sub x y c).2.c = 1 - (256 + x.toNat - y.toNat - carryBit c) / 256 := by
  have hworth := sub_worth x y c
  have hlt := (sub x y c).1.toNat_lt
  have hx := x.toNat_lt
  have hy := y.toNat_lt
  have hc := carryBit_le c
  omega

end Carry

lemma byHalves_add : (byHalves add a b c).1 = UInt16.ofNat (a.toNat + b.toNat + carryBit c) := by
  apply UInt16.toNat_inj.mp
  simp only [byHalves, Word.toNat_ofBytes, toNat_add, add_carry, Word.toNat_low, Word.toNat_high, UInt16.toNat_ofNat']
  omega

lemma byHalves_sub : (byHalves sub a b c).1 = UInt16.ofNat (131072 + a.toNat - b.toNat - carryBit c) := by
  have ha := a.toNat_lt
  have hb := b.toNat_lt
  have hc := carryBit_le c
  apply UInt16.toNat_inj.mp
  simp only [byHalves, Word.toNat_ofBytes, toNat_sub, sub_borrow, Word.toNat_low, Word.toNat_high, UInt16.toNat_ofNat']
  omega

lemma add_carries :
    let f := (byHalves add a b c).2
    f.h = decide (a.toNat % 4096 + b.toNat % 4096 + carryBit c > 4095) ∧
      f.c = decide (a.toNat + b.toNat + carryBit c > 65535) := by
  refine ⟨decide_eq_decide.mpr ?_, decide_eq_decide.mpr ?_⟩
  all_goals
    rw [add_carry, Word.toNat_low, Word.toNat_low, Word.toNat_high, Word.toNat_high]
    omega

lemma sub_borrows :
    let f := (byHalves sub a b c).2
    f.h = decide (a.toNat % 4096 < b.toNat % 4096 + carryBit c) ∧
      f.c = decide (a.toNat < b.toNat + carryBit c) := by
  have hc := carryBit_le c
  refine ⟨decide_eq_decide.mpr ?_, decide_eq_decide.mpr ?_⟩
  all_goals
    rw [sub_borrow, Word.toNat_low, Word.toNat_low, Word.toNat_high, Word.toNat_high]
    omega

lemma high_byHalves (f : UInt8 → UInt8 → Bool → UInt8 × Flags) : Word.high (byHalves f a b c).1 =
    (f (Word.high a) (Word.high b) (f (Word.low a) (Word.low b) c).2.c).1 :=
  Word.high_ofBytes _ _

theorem adcWords_eq : adcWords a b c =
    let t := byHalves add a b c
    (t.1, { t.2 with z := t.1 == 0 }) := by
  obtain ⟨hh, hc⟩ := add_carries a b c
  simp only [adcWords, wordFlags, ← byHalves_add, ← hh, ← hc, high_byHalves]
  rfl

theorem sbcWords_eq : sbcWords a b c =
    let t := byHalves sub a b c
    (t.1, { t.2 with z := t.1 == 0 }) := by
  obtain ⟨hh, hc⟩ := sub_borrows a b c
  simp only [sbcWords, wordFlags, ← byHalves_sub, ← hh, ← hc, high_byHalves]
  rfl

theorem addWords_eq (f : Flags) : addWords a b f =
    let t := byHalves add a b false
    (t.1, { t.2 with s := f.s, z := f.z, pv := f.pv }) := by
  obtain ⟨hh, hc⟩ : _ = decide (a.toNat % 4096 + b.toNat % 4096 > 4095) ∧ _ = decide (a.toNat + b.toNat > 65535) :=
    add_carries a b false
  have hsum : _ = UInt16.ofNat (a.toNat + b.toNat) := byHalves_add a b false
  simp only [addWords, ← hsum, ← hh, ← hc, Flags.withCopies, high_byHalves]
  rfl

end Arithmetic

namespace Registers

open Arithmetic

/-- The accumulator on the low bytes of two words and then, with the carry, on the high ones. -/
def bytewise (op : AluOp) (a b : UInt16) (r : Registers) : UInt16 × Registers :=
  let low := r.digit id op (Word.low a, Word.low b)
  let high := low.digit id op.withCarry (Word.high a, Word.high b)
  (Word.ofBytes high.a low.a, high)

lemma bytewise_eq (op : AluOp) (a b : UInt16) (r : Registers) {f : UInt8 → UInt8 → Bool → UInt8 × Flags} {c : Bool}
    (hlow : ∀ x y, perform op x y r.flags.c = f x y c) (hhigh : perform op.withCarry = f) :
    byHalves f a b c = ((r.bytewise op a b).1, (r.bytewise op a b).2.flags) := by
  obtain ⟨hla, hlf⟩ := r.digit_id op (Word.low a, Word.low b)
  obtain ⟨hha, hhf⟩ := (r.digit id op (Word.low a, Word.low b)).digit_id op.withCarry (Word.high a, Word.high b)
  simp only [hlf, hlow, hhigh] at hla hha hhf
  simp only [bytewise, byHalves, hla, hha, hhf]

variable (r : Registers) (a b : UInt16)

lemma adcWords_bytewise : adcWords a b r.flags.c =
    let t := r.bytewise .adc a b
    (t.1, { t.2.flags with z := t.1 == 0 }) := by
  rw [adcWords_eq, r.bytewise_eq .adc a b (f := add) (fun _ _ => rfl) rfl]

lemma sbcWords_bytewise : sbcWords a b r.flags.c =
    let t := r.bytewise .sbc a b
    (t.1, { t.2.flags with z := t.1 == 0 }) := by
  rw [sbcWords_eq, r.bytewise_eq .sbc a b (f := sub) (fun _ _ => rfl) rfl]

lemma addWords_bytewise : addWords a b r.flags =
    let t := r.bytewise .add a b
    (t.1, { t.2.flags with s := r.flags.s, z := r.flags.z, pv := r.flags.pv }) := by
  rw [addWords_eq, r.bytewise_eq .add a b (f := add) (fun _ _ => rfl) rfl]

lemma flags_setPair {dst : Pair} (h : dst ≠ .af) (w : UInt16) : (r.setPair dst w).flags = r.flags := by
  cases dst
  case af => exact absurd rfl h
  all_goals rfl

end Registers

namespace Core

variable {B : Type} [Bus B] (c : Core) (i : Instruction)

@[simp] lemma flags_behind : (c.behind i).flags = c.regs.flags := rfl

@[simp] lemma getPair_behind (pair : Pair) : (c.behind i).getPair pair = c.regs.getPair pair := by
  cases pair <;> rfl

end Core

namespace Cpu

variable {B : Type} [Bus B]

lemma regs_runInstruction (c : Cpu B) : c.runInstruction.2.regs = (c.core.operated c.bus).result.1 := by
  obtain ⟨trace, log, hrun⟩ := c.runInstruction_eq
  rw [hrun]
  exact congrArg Core.regs (c.core.outcome_core c.bus c.clock.mode)

lemma regs_of_result (c : Cpu B) {op : Op} (dst : Pair) {f : Registers → UInt16 × Flags}
    (hop : (c.core.upcoming c.bus).op = op) (hdst : dst ≠ .af)
    (hrun : ∀ address r, op.onRegisters address r = .done ((r.setFlags (f r).2).setPair dst (f r).1, 0))
    (hf : f (c.core.behind (c.core.upcoming c.bus)) = f c.core.regs) :
    let r := c.runInstruction.2.regs
    r.getPair dst = (f c.regs).1 ∧ r.flags = (f c.regs).2 := by
  simp only [regs_runInstruction, Core.operated, hop, hrun, hf]
  refine ⟨Registers.getPair_setPair _ _ _, ?_⟩
  exact (Registers.flags_setPair _ hdst _).trans (Registers.flags_setFlags _ _)

open Arithmetic

/-- Word arithmetic agrees with byte arithmetic in the result and in all flags but for zero, which is of the whole word,
and for what `ADD` does not touch. -/
theorem words_bytewise (c : Cpu B) :
    let op := (c.core.upcoming c.bus).op
    let r := c.runInstruction.2.regs
    (∀ src, op = .adcHl src →
      let t := c.regs.bytewise .adc c.regs.hl (c.regs.getPair src)
      r.hl = t.1 ∧ r.flags = { t.2.flags with z := r.hl == 0 }) ∧
    (∀ src, op = .sbcHl src →
      let t := c.regs.bytewise .sbc c.regs.hl (c.regs.getPair src)
      r.hl = t.1 ∧ r.flags = { t.2.flags with z := r.hl == 0 }) ∧
    (∀ (mode : IndexMode) (src : Pair), op = .addPair mode.pair src →
      let t := c.regs.bytewise .add (c.regs.getPair mode.pair) (c.regs.getPair src)
      r.getPair mode.pair = t.1 ∧
        r.flags = { t.2.flags with s := c.regs.flags.s, z := c.regs.flags.z, pv := c.regs.flags.pv }) := by
  intro op r
  refine ⟨fun src h => ?_, fun src h => ?_, fun mode src h => ?_⟩
  · obtain ⟨hword, hflags⟩ := c.regs_of_result .hl (f := fun r => adcWords (r.getPair .hl) (r.getPair src) r.flags.c) h
      (by decide) (fun _ _ => rfl) (by simp only [Core.getPair_behind, Core.flags_behind])
    rw [Registers.adcWords_bytewise] at hword hflags
    dsimp only at hword hflags
    rw [← hword] at hflags
    exact ⟨hword, hflags⟩
  · obtain ⟨hword, hflags⟩ := c.regs_of_result .hl (f := fun r => sbcWords (r.getPair .hl) (r.getPair src) r.flags.c) h
      (by decide) (fun _ _ => rfl) (by simp only [Core.getPair_behind, Core.flags_behind])
    rw [Registers.sbcWords_bytewise] at hword hflags
    dsimp only at hword hflags
    rw [← hword] at hflags
    exact ⟨hword, hflags⟩
  · have hsum := c.regs_of_result mode.pair (f := fun r => addWords (r.getPair mode.pair) (r.getPair src) r.flags) h
      mode.pair_ne_af (fun _ _ => rfl) (by simp only [Core.getPair_behind, Core.flags_behind])
    rwa [Registers.addWords_bytewise] at hsum

/-- `ADC HL,HL`, `SBC HL,SP` and `ADD IX,IX`. -/
theorem words_bytewise_operands :
    let cpu (code : List UInt8) : Cpu FlatBus :=
      { bus := { ram := Ram.empty.setAll 0 code }
        core := { regs := { f := 0x41, h := 0x7F, l := 0xFF, ix := 0x8800, sp := 0x8000 } } }
    let adc := cpu [0xED, 0x6A]
    let sbc := cpu [0xED, 0x72]
    let add := cpu [0xDD, 0x29]
    ((adc.core.upcoming adc.bus).op = .adcHl .hl ∧ (sbc.core.upcoming sbc.bus).op = .sbcHl .sp ∧
      (add.core.upcoming add.bus).op = .addPair IndexMode.ix.pair .ix) ∧
      (adc.runInstruction.2.regs.hl = 0xFFFF ∧ adc.runInstruction.2.regs.flags.pv = true) ∧
      (sbc.runInstruction.2.regs.hl = 0xFFFE ∧ sbc.runInstruction.2.regs.flags.pv = true) ∧
      add.runInstruction.2.regs.ix = 0x1000 ∧ add.runInstruction.2.regs.flags.z = true := by
  intro cpu adc sbc add
  have hadc : (adc.core.upcoming adc.bus).op = .adcHl .hl := by decide +kernel
  have hsbc : (sbc.core.upcoming sbc.bus).op = .sbcHl .sp := by decide +kernel
  have hadd : (add.core.upcoming add.bus).op = .addPair IndexMode.ix.pair .ix := by decide +kernel
  obtain ⟨ha, hfa⟩ := (words_bytewise adc).1 .hl hadc
  obtain ⟨hs, hfs⟩ := (words_bytewise sbc).2.1 .sp hsbc
  obtain ⟨hi, hfi⟩ := (words_bytewise add).2.2 .ix .ix hadd
  refine ⟨⟨hadc, hsbc, hadd⟩, ⟨ha.trans ?_, ?_⟩, ⟨hs.trans ?_, ?_⟩, hi.trans ?_, ?_⟩
  · decide +kernel
  · rw [hfa]
    decide +kernel
  · decide +kernel
  · rw [hfs]
    decide +kernel
  · decide +kernel
  · rw [hfi]
    decide +kernel

end Cpu

end Z80Machine
