import Z80Machine.Proofs.Fetching
import Z80Machine.Proofs.Machine

/-! The registers that govern interrupts. A handful of operations change them, each in its own way; all others, and the
memory and port traffic of any, leave them alone. -/

namespace Z80Machine

structure Control where
  iff1 : Bool
  iff2 : Bool
  im : UInt8
  i : UInt8
  deriving DecidableEq, Repr

def Control.withInterrupts (k : Control) (on : Bool) : Control :=
  { k with iff1 := on, iff2 := on }

namespace Registers

def control (r : Registers) : Control where
  iff1 := r.iff1
  iff2 := r.iff2
  im := r.im
  i := r.i

variable (r : Registers)

@[simp] lemma control_set (reg : Register) (v : UInt8) : (r.set reg v).control = r.control := by
  cases reg <;> rfl

@[simp] lemma control_setPair (pair : Pair) (w : UInt16) : (r.setPair pair w).control = r.control := by
  cases pair <;> rfl

@[simp] lemma control_setDe (w : UInt16) : (r.setDe w).control = r.control := rfl
@[simp] lemma control_setHl (w : UInt16) : (r.setHl w).control = r.control := rfl
@[simp] lemma control_setFlags (f : Flags) : (r.setFlags f).control = r.control := rfl
@[simp] lemma control_setA (v : UInt8 × Flags) : (r.setA v).control = r.control := rfl
@[simp] lemma control_jumpBy (offset : UInt8) : (r.jumpBy offset).control = r.control := rfl
@[simp] lemma control_refresh (n : Nat) : (r.refresh n).control = r.control := rfl

@[simp] lemma control_setInterrupts (on : Bool) :
    (r.setInterrupts on).control = r.control.withInterrupts on := rfl

end Registers

open Dialogue

lemma Dialogue.always_of_forall {α : Type} {p : α → List Access → Prop} (h : ∀ a l, p a l) (d : Dialogue α)
    (seen : List Access) : d.Always p seen := by
  induction d generalizing seen with
  | done a => exact h a seen
  | read addr next ih => exact fun b => ih b _
  | write addr byte next ih => exact ih _
  | input port next ih => exact fun b => ih b _
  | output port byte next ih => exact ih _
  | note event next ih => exact ih _

namespace Op

variable (r : Registers) (seen : List Access)

def control : Op → Control
  | di => r.control.withInterrupts false
  | ei => r.control.withInterrupts true
  | im mode => { r.control with im := mode }
  | loadIA => { r.control with i := r.a }
  | retn => { r.control with iff1 := r.iff2 }
  | reti => { r.control with iff1 := r.iff2 }
  | _ => r.control

lemma always_store_control (o : Operand) (v : UInt8) :
    (o.store v r).Always (fun s _ => s.control = r.control) seen := by
  cases o with
  | reg x => exact r.control_set x v
  | _ => rfl

lemma always_change_control (target : Operand) (copy : Option Register) (f : UInt8 → UInt8 × Flags) :
    (change target copy r f).Always (fun s _ => s.control = r.control) seen := by
  refine (always_bind _ _ _).mpr (always_of_forall (fun v l => ?_) _ _)
  refine (always_bind _ _ _).mpr ((always_store_control _ _ target _).mono fun s _ hs => ?_)
  cases copy with
  | none => exact hs
  | some x => exact (s.control_set x _).trans hs

lemma always_changeBit_control (target : Operand) (copy : Option Register) (f : UInt8 → UInt8) :
    (changeBit target copy r f).Always (fun s _ => s.control = r.control) seen := by
  refine (always_bind _ _ _).mpr (always_of_forall (fun v l => ?_) _ _)
  refine (always_bind _ _ _).mpr ((always_store_control _ _ target _).mono fun s _ hs => ?_)
  cases copy with
  | none => exact hs
  | some x => exact (s.control_set x _).trans hs

lemma always_push_control (word : UInt16) :
    (Stack.push word r).Always (fun s _ => s.control = r.control) seen := by
  unfold Stack.push
  split <;> rfl

lemma always_pop_control : (Stack.pop r).Always (fun s _ => s.2.control = r.control) seen := by
  unfold Stack.pop
  split <;> exact fun _ _ => rfl

lemma always_round_control (op : BlockOp) (dir : Direction) :
    (Block.round op dir r).Always (fun s _ => s.1.control = r.control) seen := by
  cases op <;> exact fun _ => rfl

theorem always_control (op : Op) (address : UInt16) :
    (op.onRegisters address r).Always (fun s _ => s.1.control = op.control r) seen := by
  cases op
  case load dst src =>
    refine (always_bind _ _ _).mpr (always_of_forall (fun v l => ?_) _ _)
    exact (always_bind _ _ _).mpr (always_store_control _ _ dst v)
  case alu op src => exact (always_bind _ _ _).mpr (always_of_forall (fun v l => rfl) _ _)
  case bit n target => exact (always_bind _ _ _).mpr (always_of_forall (fun v l => rfl) _ _)
  case inc target => exact (always_bind _ _ _).mpr (always_change_control _ _ target none _)
  case dec target => exact (always_bind _ _ _).mpr (always_change_control _ _ target none _)
  case shift op target copy => exact (always_bind _ _ _).mpr (always_change_control _ _ target copy _)
  case res n target copy => exact (always_bind _ _ _).mpr (always_changeBit_control _ _ target copy _)
  case set n target copy => exact (always_bind _ _ _).mpr (always_changeBit_control _ _ target copy _)
  case push pair => exact (always_bind _ _ _).mpr (always_push_control _ _ _)
  case rst vector => exact (always_bind _ _ _).mpr (always_push_control _ _ _)
  case pop pair =>
    refine (always_bind _ _ _).mpr ((always_pop_control _ _).mono fun s _ hs => ?_)
    exact (s.2.control_setPair pair s.1).trans hs
  case retn =>
    refine (always_bind _ _ _).mpr ((always_pop_control _ _).mono fun s _ hs => ?_)
    exact congrArg (fun k : Control => { k with iff1 := k.iff2 }) hs
  case reti =>
    refine (always_bind _ _ _).mpr ((always_pop_control _ _).mono fun s _ hs => ?_)
    exact congrArg (fun k : Control => { k with iff1 := k.iff2 }) hs
  case call cond addr =>
    by_cases h : r.meets cond
    · simp only [onRegisters, h, if_true]
      exact (always_bind _ _ _).mpr (always_push_control _ _ _)
    · simp only [onRegisters, h]
      rfl
  case ret cond =>
    by_cases h : r.meets cond
    · simp only [onRegisters, h, if_true]
      exact (always_bind _ _ _).mpr (always_pop_control _ _)
    · simp only [onRegisters, h]
      rfl
  case block op dir repeating =>
    refine (always_bind _ _ _).mpr ((always_round_control _ _ op dir).mono fun s _ hs => ?_)
    obtain ⟨s, again⟩ := s
    by_cases h : (repeating && again) = true
    · simp only [h, if_true]
      exact hs
    · simp only [h]
      exact hs
  case jp cond addr => cases h : r.meets cond <;> simp only [onRegisters, h] <;> rfl
  case jr cond offset => cases h : r.meets cond <;> simp only [onRegisters, h] <;> rfl
  case djnz offset => cases h : r.b - 1 == 0 <;> simp only [onRegisters, h] <;> rfl
  case inC reg =>
    cases reg with
    | none => exact fun _ => rfl
    | some x => exact fun b => r.control_set x b
  case loadPair dst value => exact r.control_setPair dst _
  case incPair pair => exact r.control_setPair pair _
  case decPair pair => exact r.control_setPair pair _
  case addPair dst src => exact Registers.control_setPair _ dst _
  case fetchPair dst addr => exact fun _ _ => r.control_setPair dst _
  case exSp pair => exact fun _ _ => r.control_setPair pair _
  case inA | rld | rrd => exact fun _ => rfl
  all_goals rfl

end Op

/-! The interrupt modes that can be encoded -/

def Encoded.Moded (e : Encoded) : Prop :=
  ∀ mode, e.op = .im mode → mode = 0 ∨ mode = 1 ∨ mode = 2

namespace Encoding

section

variable (y z : UInt8) (mode : IndexMode) (start : CycleShape) (n : Nat)

lemma quarter0_moded : (quarter0 y z mode start).Every (fun _ e => e.Moded) n := by
  unfold quarter0
  dsimp only
  repeat' split
  all_goals simp only [bind_eq, pure_eq, every_bind, every_byte, every_word, every_memory, every_complete]
  all_goals repeat' split
  all_goals simp [Encoded.Moded]

lemma quarter1_moded : (quarter1 y z mode start).Every (fun _ e => e.Moded) n := by
  unfold quarter1
  repeat' split
  all_goals simp only [bind_eq, pure_eq, every_bind, every_memory, every_complete]
  all_goals repeat' split
  all_goals simp [Encoded.Moded]

lemma quarter2_moded : (quarter2 y z mode start).Every (fun _ e => e.Moded) n := by
  unfold quarter2
  split
  all_goals simp only [bind_eq, pure_eq, every_bind, every_memory, every_complete]
  all_goals repeat' split
  all_goals simp [Encoded.Moded]

lemma quarter3_moded (opcode : UInt8) : (quarter3 opcode y z mode start).Every (fun _ e => e.Moded) n := by
  unfold quarter3
  dsimp only
  repeat' split
  all_goals simp [Encoded.Moded]

lemma mainTable_moded (opcode : UInt8) : (mainTable opcode mode start).Every (fun _ e => e.Moded) n := by
  unfold mainTable
  dsimp only
  split
  · exact quarter0_moded _ _ _ _ n
  · exact quarter1_moded _ _ _ _ n
  · exact quarter2_moded _ _ _ _ n
  · exact quarter3_moded _ _ _ _ n _

lemma bitFamily_moded (opcode : UInt8) (target : Operand) (copy : Option Register) (tested changed : CycleShape) :
    (bitFamily opcode target copy tested changed).Moded := by
  unfold bitFamily
  dsimp only
  split <;> exact fun _ => nofun

lemma extended_moded (opcode : UInt8) : (extended opcode).Every (fun _ e => e.Moded) n := by
  unfold extended
  dsimp only
  repeat' split
  all_goals simp [Encoded.Moded]

lemma indexed_moded : (indexed mode).Every (fun _ e => e.Moded) n := by
  simp only [indexed, bind_eq, pure_eq, every_bind, every_byte]
  intro next
  split
  case h_4 => exact fun offset opcode => bitFamily_moded _ _ _ _ _
  case h_5 => exact mainTable_moded mode _ _ next
  all_goals simp [Encoded.Moded]

end

theorem ofOpcode_moded (opcode : UInt8) (n : Nat) : (ofOpcode opcode).Every (fun _ e => e.Moded) n := by
  unfold ofOpcode
  split
  · intro b
    change (bits b).Moded
    unfold bits
    dsimp only
    split <;> exact bitFamily_moded _ _ _ _ _
  · exact fun b => extended_moded _ b
  · exact indexed_moded .ix n
  · exact indexed_moded .iy n
  · exact mainTable_moded .hl _ n opcode

end Encoding

/-! Instructions and interrupt responses -/

namespace Core

variable {B : Type} [Bus B] (c : Core) (bus : B)

lemma control_behind (i : Instruction) (op : Op) : op.control (c.behind i) = op.control c.regs := by
  cases op <;> rfl

theorem outcome_control (mode : ClockMode) :
    (c.outcome mode bus).core.regs.control = (c.upcoming bus).op.control c.regs := by
  have h := (Op.always_control (c.behind (c.upcoming bus)) [] (c.upcoming bus).op (c.upcoming bus).address).run
    (c.fetched bus).bus (c.fetched bus).log (c.fetched bus).traffic
  rw [control_behind] at h
  rw [c.outcome_core bus mode]
  exact h

lemma upcoming_moded {mode : UInt8} (h : (c.upcoming bus).op = .im mode) : mode = 0 ∨ mode = 1 ∨ mode = 2 := by
  obtain ⟨e, bytes, hf⟩ := (Instruction.always_fetched c.regs.pc).run bus {} {}
  have hi : c.upcoming bus = e.toInstruction c.regs.pc ((c.fetched bus).result.1 :: bytes) := hf.instruction
  rw [hi] at h
  exact (Encoding.ofOpcode_moded _ 0).of_read hf.read mode h

end Core

namespace Control

def answered (k : Control) : Interrupt → Control
  | .nonMaskable => { k with iff1 := false }
  | .maskable => k.withInterrupts false

end Control

lemma Cpu.response_control {B : Type} [Bus B] (c : Cpu B) (kind : Interrupt) :
    ((c.response kind).run c.bus {} {}).result.1.control = c.regs.control.answered kind := by
  have h : (c.response kind).Always (fun s _ => s.1.control = c.regs.control.answered kind) [] := by
    cases kind with
    | nonMaskable =>
      have hpush := Op.always_push_control { c.regs with iff1 := false } [] c.regs.pc
      exact (always_bind _ _ _).mpr (hpush.mono fun s l hs => hs)
    | maskable =>
      have hpush := Op.always_push_control (c.regs.setInterrupts false) [] c.regs.pc
      refine (always_bind _ _ _).mpr (hpush.mono fun s l hs => ?_)
      split
      · exact fun _ _ => hs
      · exact hs
  exact h.run c.bus {} {}

end Z80Machine
