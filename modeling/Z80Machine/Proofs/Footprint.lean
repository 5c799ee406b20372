import Z80Machine.Proofs.Control
import Z80Machine.Proofs.Decoding

/-! What an instruction may change beside the registers that it computes with. Flags, pointers, refresh counter and
shadow bank each have their few operations, and those that the decoder comes to touch nothing else. -/

namespace Z80Machine

lemma Dialogue.Always.and {α : Type} {p q : α → List Access → Prop} {d : Dialogue α} {seen : List Access}
    (hp : d.Always p seen) (hq : d.Always q seen) : d.Always (fun a l => p a l ∧ q a l) seen := by
  induction d generalizing seen with
  | done a => exact ⟨hp, hq⟩
  | read addr next ih => exact fun b => ih b (hp b) (hq b)
  | write addr byte next ih => exact ih hp hq
  | input port next ih => exact fun b => ih b (hp b) (hq b)
  | output port byte next ih => exact ih hp hq
  | note event next ih => exact ih hp hq

namespace Op

def keepsFlags : Op → Bool
  | load _ _ | loadPair _ _ | fetchPair _ _ | storePair _ _ | loadSp _ | loadIA | loadRA => true
  | exDeHl | exx | exSp _ => true
  | incPair _ | decPair _ => true
  | res _ _ _ | set _ _ _ => true
  | push _ => true
  | pop pair => pair ≠ .af
  | jp _ _ | jpPair _ | jr _ _ | djnz _ | call _ _ | ret _ | retn | reti | rst _ => true
  | inA _ | outA _ | outC _ => true
  | nop | halt | di | ei | im _ => true
  | unknown _ _ => true
  | _ => false

def movesStack : Op → Bool
  | push _ | pop _ | call _ _ | ret _ | retn | reti | rst _ => true
  | loadSp _ => true
  | loadPair pair _ | fetchPair pair _ | incPair pair | decPair pair => pair = .sp
  | _ => false

def departs (before after : Registers) : Op → Bool
  | jp cond _ | jr cond _ | call cond _ | ret cond => before.meets cond
  | djnz _ => before.b != 1
  | jpPair _ | retn | reti | rst _ => true
  | block op _ true => op.unfinished before after
  | _ => false

def setsInterrupts : Op → Bool
  | di | ei | retn | reti => true
  | _ => false

end Op

structure Context where
  f : UInt8
  sp : UInt16
  pc : UInt16
  r : UInt8
  shadow : Shadow
  deriving DecidableEq, Repr

namespace Registers

def context (r : Registers) : Context where
  f := r.f
  sp := r.sp
  pc := r.pc
  r := r.r
  shadow := r.shadow

variable (r : Registers)

@[simp] lemma context_set (x : Register) (v : UInt8) : (r.set x v).context = r.context := by
  cases x <;> rfl

lemma context_setPair {pair : Pair} (haf : pair ≠ .af) (hsp : pair ≠ .sp) (w : UInt16) :
    (r.setPair pair w).context = r.context := by
  cases pair <;> first | rfl | contradiction

@[simp] lemma context_setFlags (f : Flags) : (r.setFlags f).context = { r.context with f := f.toByte } := rfl

end Registers

namespace Op

open Dialogue

def contextWhen (away : Bool) (before after : Registers) (op : Op) : Context where
  f := if op.keepsFlags then before.f else after.f
  sp := if op.movesStack then after.sp else before.sp
  pc := if away then after.pc else before.pc
  r := if op matches .loadRA then after.r else before.r
  shadow := if op matches .exAf | .exx then after.shadow else before.shadow

def context (before after : Registers) (op : Op) : Context :=
  op.contextWhen (op.departs before after) before after

lemma context_of_departs {op : Op} {before after : Registers} {away : Bool} (h : op.departs before after = away)
    (hcontext : after.context = op.contextWhen away before after) : after.context = op.context before after := by
  subst h
  exact hcontext

variable (r : Registers) (seen : List Access)

lemma always_store_context (o : Operand) (v : UInt8) :
    (o.store v r).Always (fun s _ => s.context = r.context) seen := by
  cases o with
  | reg x => exact r.context_set x v
  | _ => rfl

lemma always_change_context (target : Operand) (copy : Option Register) (f : UInt8 → UInt8 × Flags) :
    (change target copy r f).Always (fun s _ => s.context = ⟨s.f, r.sp, r.pc, r.r, r.shadow⟩) seen := by
  refine (always_bind _ _ _).mpr (always_of_forall (fun v l => ?_) _ _)
  refine (always_bind _ _ _).mpr ((always_store_context _ _ target _).mono fun s _ hs => ?_)
  have hkept (s' : Registers) (h : s'.context = s.context) : s'.context = ⟨s'.f, r.sp, r.pc, r.r, r.shadow⟩ := by
    have hf : s'.f = (f v).2.toByte := congrArg Context.f (h.trans hs)
    rw [hf]
    exact h.trans hs
  cases copy with
  | none => exact hkept s rfl
  | some x => exact hkept _ (s.context_set x _)

lemma always_changeBit_context (target : Operand) (copy : Option Register) (f : UInt8 → UInt8) :
    (changeBit target copy r f).Always (fun s _ => s.context = r.context) seen := by
  refine (always_bind _ _ _).mpr (always_of_forall (fun v l => ?_) _ _)
  refine (always_bind _ _ _).mpr ((always_store_context _ _ target _).mono fun s _ hs => ?_)
  cases copy with
  | none => exact hs
  | some x => exact (s.context_set x _).trans hs

lemma always_push_context (word : UInt16) :
    (Stack.push word r).Always (fun s _ => s.context = ⟨r.f, s.sp, r.pc, r.r, r.shadow⟩) seen := by
  unfold Stack.push
  split <;> rfl

lemma always_pop_context :
    (Stack.pop r).Always (fun s _ => s.2.context = ⟨r.f, s.2.sp, r.pc, r.r, r.shadow⟩) seen := by
  unfold Stack.pop
  split <;> exact fun _ _ => rfl

lemma always_round_context (op : BlockOp) (dir : Direction) :
    (Block.round op dir r).Always (fun s _ => s.1.context = ⟨s.1.f, r.sp, r.pc, r.r, r.shadow⟩) seen := by
  cases op <;> exact fun _ => rfl

theorem always_context {op : Op} (hop : op.Paired) (address : UInt16) :
    (op.onRegisters address r).Always (fun s _ => s.1.context = op.context r s.1) seen := by
  cases op
  case load dst src =>
    refine (always_bind _ _ _).mpr (always_of_forall (fun v l => ?_) _ _)
    exact (always_bind _ _ _).mpr (always_store_context _ _ dst v)
  case alu op src => exact (always_bind _ _ _).mpr (always_of_forall (fun v l => rfl) _ _)
  case bit n target => exact (always_bind _ _ _).mpr (always_of_forall (fun v l => rfl) _ _)
  case inc target => exact (always_bind _ _ _).mpr (always_change_context _ _ target none _)
  case dec target => exact (always_bind _ _ _).mpr (always_change_context _ _ target none _)
  case shift op target copy => exact (always_bind _ _ _).mpr (always_change_context _ _ target copy _)
  case res n target copy => exact (always_bind _ _ _).mpr (always_changeBit_context _ _ target copy _)
  case set n target copy => exact (always_bind _ _ _).mpr (always_changeBit_context _ _ target copy _)
  case push pair => exact (always_bind _ _ _).mpr (always_push_context _ _ _)
  case rst vector =>
    refine (always_bind _ _ _).mpr ((always_push_context _ _ _).mono fun s _ hs => ?_)
    exact congrArg (fun k : Context => { k with pc := vector.toUInt16 }) hs
  case pop pair =>
    refine (always_bind _ _ _).mpr ((always_pop_context _ _).mono fun s _ hs => ?_)
    cases pair
    case sp => contradiction
    case af => exact congrArg (fun k : Context => { k with f := Word.low s.1 }) hs
    all_goals exact hs
  case retn | reti =>
    refine (always_bind _ _ _).mpr ((always_pop_context _ _).mono fun s _ hs => ?_)
    exact congrArg (fun k : Context => { k with pc := s.1 }) hs
  case call cond addr =>
    cases h : r.meets cond with
    | false =>
      simp only [onRegisters, h]
      exact context_of_departs h rfl
    | true =>
      simp only [onRegisters, h, if_true]
      refine (always_bind _ _ _).mpr ((always_push_context _ _ _).mono fun s _ hs => ?_)
      exact context_of_departs h (congrArg (fun k : Context => { k with pc := addr }) hs)
  case ret cond =>
    cases h : r.meets cond with
    | false =>
      simp only [onRegisters, h]
      exact context_of_departs h rfl
    | true =>
      simp only [onRegisters, h, if_true]
      refine (always_bind _ _ _).mpr ((always_pop_context _ _).mono fun s _ hs => ?_)
      exact context_of_departs h (congrArg (fun k : Context => { k with pc := s.1 }) hs)
  case block op dir repeating =>
    have hround := (always_round_context r seen op dir).and (always_round_unfinished op dir r seen)
    refine (always_bind _ _ _).mpr (hround.mono fun s _ hs => ?_)
    obtain ⟨s, again⟩ := s
    obtain ⟨hcontext, hagain⟩ := hs
    dsimp only at hcontext hagain
    subst hagain
    cases repeating with
    | false => exact hcontext
    | true =>
      cases h : op.unfinished r s with
      | false => exact context_of_departs h hcontext
      | true =>
        have hpc : op.unfinished r { s with pc := address } = true := (unfinished_pc op r s address).trans h
        exact context_of_departs hpc (congrArg (fun k : Context => { k with pc := address }) hcontext)
  case jp cond addr => cases h : r.meets cond <;> simp only [onRegisters, h] <;> exact context_of_departs h rfl
  case jr cond offset => cases h : r.meets cond <;> simp only [onRegisters, h] <;> exact context_of_departs h rfl
  case djnz offset =>
    have hb : (r.b - 1 == 0) = !(r.b != 1) := by grind
    cases h : r.b != 1 <;> simp only [onRegisters, hb, h] <;> exact context_of_departs h rfl
  case inC reg =>
    cases reg with
    | none => exact fun _ => rfl
    | some x => cases x <;> exact fun _ => rfl
  case loadPair dst value => cases dst <;> first | rfl | contradiction
  case incPair pair => cases pair <;> first | rfl | contradiction
  case decPair pair => cases pair <;> first | rfl | contradiction
  case fetchPair dst addr => cases dst <;> first | exact fun _ _ => rfl | contradiction
  case addPair dst src => cases dst <;> first | rfl | contradiction
  case exSp pair =>
    obtain ⟨haf, hsp⟩ := hop
    exact fun _ _ => r.context_setPair haf hsp _
  case inA | rld | rrd => exact fun _ => rfl
  all_goals rfl

lemma departs_pc (op : Op) (pc : UInt16) (after : Registers) :
    op.departs { r with pc } after = op.departs r after := by
  cases op
  case block op dir repeating => cases repeating <;> cases op <;> rfl
  case jp cond _ | jr cond _ | call cond _ | ret cond => cases cond <;> rfl
  all_goals rfl

section

variable {op : Op} (after : Registers)

lemma context_f (h : op.keepsFlags = true) : (op.context r after).f = r.f :=
  if_pos h

lemma context_sp (h : op.movesStack = false) : (op.context r after).sp = r.sp :=
  if_neg (ne_true_of_eq_false h)

lemma context_pc (h : op.departs r after = false) : (op.context r after).pc = r.pc :=
  if_neg (ne_true_of_eq_false h)

lemma context_r (h : op ≠ .loadRA) : (op.context r after).r = r.r := by
  cases op <;> first | rfl | contradiction

lemma context_shadow (haf : op ≠ .exAf) (hx : op ≠ .exx) : (op.context r after).shadow = r.shadow := by
  cases op <;> first | rfl | contradiction

end

lemma isHalt_of_ne (op : Op) : op ≠ .halt → (op matches .halt) = false := by
  cases op <;> first | exact fun _ => rfl | exact fun h => absurd rfl h

lemma isEi_of_ne (op : Op) : op ≠ .ei → (op matches .ei) = false := by
  cases op <;> first | exact fun _ => rfl | exact fun h => absurd rfl h

lemma control_interrupts {op : Op} (h : op.setsInterrupts = false) :
    (op.control r).iff1 = r.iff1 ∧ (op.control r).iff2 = r.iff2 := by
  cases op <;> first | exact ⟨rfl, rfl⟩ | contradiction

lemma control_im {op : Op} (h : ∀ mode, op ≠ .im mode) : (op.control r).im = r.im := by
  cases op <;> first | rfl | exact absurd rfl (h _)

lemma control_page {op : Op} (h : op ≠ .loadIA) : (op.control r).i = r.i := by
  cases op <;> first | rfl | contradiction

end Op

namespace Instruction

/-- What an instruction leaves alone. -/
structure Spares (i : Instruction) (before after : Core) : Prop where
  interrupts : i.op.setsInterrupts = false →
    after.regs.iff1 = before.regs.iff1 ∧ after.regs.iff2 = before.regs.iff2
  mode : (∀ mode, i.op ≠ .im mode) → after.regs.im = before.regs.im
  page : i.op ≠ .loadIA → after.regs.i = before.regs.i
  refresh : i.op ≠ .loadRA → after.regs.r = before.regs.r
  shadow : i.op ≠ .exAf → i.op ≠ .exx → after.regs.shadow = before.regs.shadow
  halted : i.op ≠ .halt → after.halted = before.halted
  eiDelay : i.op ≠ .ei → after.eiDelay = before.eiDelay
  flags : i.op.keepsFlags = true → after.regs.f = before.regs.f
  stack : i.op.movesStack = false → after.regs.sp = before.regs.sp
  counter : i.op.departs before.regs after.regs = false → after.regs.pc = i.address + i.size

variable (i : Instruction) (c : Core)

lemma execute_unknown {lead : Option UInt8} {opcode : UInt8} (h : i.op = .unknown lead opcode) : i.execute c =
    .note (.unknownOpcode lead opcode i.address)
      (.done ({ c with regs := { c.regs with pc := i.address + i.size } }, i.tStates)) := by
  simp [execute, h, Op.onRegisters, Dialogue.remark, Dialogue.bind]

theorem always_spares (hop : i.op.Paired) : (i.execute c).Always (fun s _ => i.Spares c s.1) [] := by
  have hcontext := Op.always_context { c.regs with pc := i.address + i.size } [] hop i.address
  have hcontrol := Op.always_control { c.regs with pc := i.address + i.size } [] i.op i.address
  refine (Dialogue.always_bind _ _ _).mpr ((hcontext.and hcontrol).mono fun s _ hs => ?_)
  obtain ⟨hs, hc⟩ := hs
  constructor
  case interrupts =>
    intro h
    obtain ⟨h1, h2⟩ := Op.control_interrupts { c.regs with pc := i.address + i.size } h
    exact ⟨(congrArg Control.iff1 hc).trans h1, (congrArg Control.iff2 hc).trans h2⟩
  case mode => exact fun h => (congrArg Control.im hc).trans (Op.control_im _ h)
  case page => exact fun h => (congrArg Control.i hc).trans (Op.control_page _ h)
  case refresh => exact fun h => (congrArg Context.r hs).trans (Op.context_r _ _ h)
  case shadow => exact fun haf hx => (congrArg Context.shadow hs).trans (Op.context_shadow _ _ haf hx)
  case halted => exact fun h => (congrArg (c.halted || ·) (i.op.isHalt_of_ne h)).trans (Bool.or_false _)
  case eiDelay => exact fun h => (congrArg (c.eiDelay || ·) (i.op.isEi_of_ne h)).trans (Bool.or_false _)
  case flags => exact fun h => (congrArg Context.f hs).trans (Op.context_f _ _ h)
  case stack => exact fun h => (congrArg Context.sp hs).trans (Op.context_sp _ _ h)
  case counter =>
    intro h
    rw [← Op.departs_pc c.regs i.op (i.address + i.size)] at h
    exact (congrArg Context.pc hs).trans (Op.context_pc _ _ h)

/-- Each instruction that the decoder can come to changes only what it may, and one that is not there moves the program
counter and does nothing else. -/
theorem decoded_spares {B B' : Type} [Bus B] [Bus B'] (opcode : UInt8) (pc : UInt16) (b : B) (bus : B')
    (log log' : Log) (traffic traffic' : Traffic) :
    let i := ((decode opcode pc).run b log traffic).result
    let t := (i.execute c).run bus log' traffic'
    i.Spares c t.result.1 ∧ ∀ lead x, i.op = .unknown lead x →
      t.result.1 = { c with regs := { c.regs with pc := i.address + i.size } } ∧ t.bus = bus := by
  intro i t
  have hop : i.op.Paired := by
    obtain ⟨bytes, e, hb, hr⟩ := (Encoding.ofOpcode opcode).exists_answers b (pc + 1)
    obtain ⟨x, y, z, hplaced⟩ := Encoding.placed_of_read hr
    have hi : i = e.toInstruction pc (opcode :: bytes) := (decode_of_answers hb hr log traffic).1
    rw [hi]
    exact hplaced.regular.paired
  refine ⟨(i.always_spares c hop).run bus log' traffic', fun lead x h => ?_⟩
  subst t
  rw [i.execute_unknown c h]
  exact ⟨rfl, rfl⟩

end Instruction

end Z80Machine
