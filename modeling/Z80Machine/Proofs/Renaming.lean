import Z80Machine.Proofs.Veil

/-! HL and an index register in each other's place. An operation that names its registers does the same when both the
names and the registers have changed places. -/

namespace Z80Machine

def Register.renamed (mode : IndexMode) (x : Register) : Register :=
  match mode, x with
  | .ix, .h => .ixh
  | .ix, .l => .ixl
  | .ix, .ixh => .h
  | .ix, .ixl => .l
  | .iy, .h => .iyh
  | .iy, .l => .iyl
  | .iy, .iyh => .h
  | .iy, .iyl => .l
  | _, x => x

def Pair.renamed (mode : IndexMode) (pair : Pair) : Pair :=
  match mode, pair with
  | .ix, .hl => .ix
  | .ix, .ix => .hl
  | .iy, .hl => .iy
  | .iy, .iy => .hl
  | _, pair => pair

def IndexMode.renamed (mode other : IndexMode) : IndexMode :=
  match mode, other with
  | .ix, .hl => .ix
  | .ix, .ix => .hl
  | .iy, .hl => .iy
  | .iy, .iy => .hl
  | _, other => other

def Operand.renamed (mode : IndexMode) : Operand → Operand
  | reg x => reg (x.renamed mode)
  | imm value => imm value
  | indirect pair => indirect (pair.renamed mode)
  | indexed other offset => indexed (mode.renamed other) offset
  | absolute addr => absolute addr

def Op.renamed (mode : IndexMode) : Op → Op
  | load dst src => load (dst.renamed mode) (src.renamed mode)
  | loadPair dst value => loadPair (dst.renamed mode) value
  | fetchPair dst addr => fetchPair (dst.renamed mode) addr
  | storePair addr src => storePair addr (src.renamed mode)
  | loadSp src => loadSp (src.renamed mode)
  | exSp pair => exSp (pair.renamed mode)
  | alu op src => alu op (src.renamed mode)
  | inc target => inc (target.renamed mode)
  | dec target => dec (target.renamed mode)
  | incPair pair => incPair (pair.renamed mode)
  | decPair pair => decPair (pair.renamed mode)
  | addPair dst src => addPair (dst.renamed mode) (src.renamed mode)
  | shift op target copy => shift op (target.renamed mode) (copy.map (·.renamed mode))
  | bit n target => bit n (target.renamed mode)
  | res n target copy => res n (target.renamed mode) (copy.map (·.renamed mode))
  | set n target copy => set n (target.renamed mode) (copy.map (·.renamed mode))
  | jpPair pair => jpPair (pair.renamed mode)
  | push pair => push (pair.renamed mode)
  | pop pair => pop (pair.renamed mode)
  | inC x => inC (x.map (·.renamed mode))
  | outC x => outC (x.map (·.renamed mode))
  | op => op

lemma Op.renamed_halt (mode : IndexMode) (op : Op) : (op.renamed mode matches .halt) = (op matches .halt) := by
  cases op <;> rfl

lemma Op.renamed_ei (mode : IndexMode) (op : Op) : (op.renamed mode matches .ei) = (op matches .ei) := by
  cases op <;> rfl

/-- Operations that have HL in them without naming it, or look at the refresh counter or at their own address. -/
def Op.wired : Op → Bool
  | exDeHl => true
  | exx => true
  | adcHl _ => true
  | sbcHl _ => true
  | rld => true
  | rrd => true
  | loadAR => true
  | loadRA => true
  | block _ _ _ => true
  | unknown _ _ => true
  | _ => false

namespace Registers

def swapped (mode : IndexMode) (r : Registers) : Registers :=
  { r with
    h := match mode with
      | .hl => r.h
      | .ix => Word.high r.ix
      | .iy => Word.high r.iy
    l := match mode with
      | .hl => r.l
      | .ix => Word.low r.ix
      | .iy => Word.low r.iy
    ix := match mode with
      | .ix => r.hl
      | _ => r.ix
    iy := match mode with
      | .iy => r.hl
      | _ => r.iy }

lemma swapped_swapped (r : Registers) (mode : IndexMode) : (r.swapped mode).swapped mode = r := by
  cases mode <;> simp [swapped, hl]

def prefixed (mode : IndexMode) (r : Registers) : Registers :=
  (r.swapped mode).refresh 1

variable (r : Registers) (m : IndexMode)

@[simp] lemma prefixed_a : (r.prefixed m).a = r.a := rfl
@[simp] lemma prefixed_b : (r.prefixed m).b = r.b := rfl
@[simp] lemma prefixed_c : (r.prefixed m).c = r.c := rfl
@[simp] lemma prefixed_i : (r.prefixed m).i = r.i := rfl
@[simp] lemma prefixed_sp : (r.prefixed m).sp = r.sp := rfl
@[simp] lemma prefixed_pc : (r.prefixed m).pc = r.pc := rfl
@[simp] lemma flags_prefixed : (r.prefixed m).flags = r.flags := rfl

@[simp] lemma get_prefixed (x : Register) : (r.prefixed m).get (x.renamed m) = r.get x := by
  cases m <;> cases x <;> simp [prefixed, swapped, get, Register.renamed, refresh, hl]

@[simp] lemma getPair_prefixed (pair : Pair) : (r.prefixed m).getPair (pair.renamed m) = r.getPair pair := by
  cases m <;> cases pair <;> simp [prefixed, swapped, getPair, Pair.renamed, refresh, af, bc, de, hl]

@[simp] lemma set_prefixed (x : Register) (v : UInt8) :
    (r.prefixed m).set (x.renamed m) v = (r.set x v).prefixed m := by
  cases m <;> cases x <;> simp [prefixed, swapped, set, Register.renamed, refresh, hl]

@[simp] lemma setPair_prefixed (pair : Pair) (w : UInt16) :
    (r.prefixed m).setPair (pair.renamed m) w = (r.setPair pair w).prefixed m := by
  cases m <;> cases pair <;>
    simp [prefixed, swapped, setPair, Pair.renamed, refresh, setHl, setAf, setBc, setDe, hl]

@[simp] lemma setFlags_prefixed (f : Flags) : (r.prefixed m).setFlags f = (r.setFlags f).prefixed m := by
  cases m <;> rfl

@[simp] lemma setA_prefixed (v : UInt8 × Flags) : (r.prefixed m).setA v = (r.setA v).prefixed m := by
  cases m <;> rfl

@[simp] lemma jumpBy_prefixed (offset : UInt8) : (r.prefixed m).jumpBy offset = (r.jumpBy offset).prefixed m := by
  cases m <;> rfl

@[simp] lemma meets_prefixed (cond : Option Condition) : (r.prefixed m).meets cond = r.meets cond := by
  cases m <;> rfl

end Registers

variable (r : Registers) (m : IndexMode)

@[simp] lemma IndexMode.pair_renamed (other : IndexMode) : (m.renamed other).pair = other.pair.renamed m := by
  cases m <;> cases other <;> rfl

@[simp] lemma Operand.load_prefixed (o : Operand) : (o.renamed m).load (r.prefixed m) = o.load r := by
  cases o <;> simp [load, renamed]

@[simp] lemma Operand.store_prefixed (o : Operand) (v : UInt8) :
    (o.renamed m).store v (r.prefixed m) = (o.store v r).bind fun s => .done (s.prefixed m) := by
  cases o <;> simp [store, renamed]

lemma Stack.push_prefixed (w : UInt16) :
    Stack.push w (r.prefixed m) = (Stack.push w r).bind fun s => .done (s.prefixed m) := by
  unfold push
  by_cases h : r.sp < 2
  · simp [h]
    rfl
  · simp [h]
    rfl

lemma Stack.pop_prefixed :
    Stack.pop (r.prefixed m) = (Stack.pop r).bind fun s => .done (s.1, s.2.prefixed m) := by
  unfold pop
  by_cases h : r.sp > 0xFFFD
  · simp [h]
    rfl
  · simp [h]
    rfl

namespace Op

lemma change_prefixed (target : Operand) (copy : Option Register) (f : UInt8 → UInt8 × Flags) :
    change (target.renamed m) (copy.map (·.renamed m)) (r.prefixed m) f =
      (change target copy r f).bind fun s => .done (s.prefixed m) := by
  cases copy <;> simp [change]

lemma changeBit_prefixed (target : Operand) (copy : Option Register) (f : UInt8 → UInt8) :
    changeBit (target.renamed m) (copy.map (·.renamed m)) (r.prefixed m) f =
      (changeBit target copy r f).bind fun s => .done (s.prefixed m) := by
  cases copy <;> simp [changeBit]

def Renames (m : IndexMode) (op : Op) : Prop :=
  ∀ (r : Registers) (address address' : UInt16), (op.renamed m).onRegisters address (r.prefixed m) =
    (op.onRegisters address' r).bind fun s => .done (s.1.prefixed m, s.2)

theorem renames_of_unwired {op : Op} (hop : op.wired = false) : op.Renames m := by
  intro r address address'
  cases op
  case inc target =>
    have h := change_prefixed r m target none (Arithmetic.inc · r.flags.c)
    rw [Option.map_none] at h
    simp [onRegisters, renamed, h]
  case dec target =>
    have h := change_prefixed r m target none (Arithmetic.dec · r.flags.c)
    rw [Option.map_none] at h
    simp [onRegisters, renamed, h]
  case shift op target copy => simp [onRegisters, renamed, change_prefixed]
  case res n target copy => simp [onRegisters, renamed, changeBit_prefixed]
  case set n target copy => simp [onRegisters, renamed, changeBit_prefixed]
  case push pair => simp [onRegisters, renamed, Stack.push_prefixed]
  case pop pair => simp [onRegisters, renamed, Stack.pop_prefixed]
  case loadSp src =>
    simp [onRegisters, renamed]
    rfl
  case jpPair pair =>
    simp [onRegisters, renamed]
    rfl
  case retn =>
    simp [onRegisters, renamed, Stack.pop_prefixed]
    rfl
  case reti =>
    simp [onRegisters, renamed, Stack.pop_prefixed]
    rfl
  case rst vector =>
    simp [onRegisters, renamed, Stack.push_prefixed]
    rfl
  case jp cond addr =>
    by_cases h : r.meets cond
    · simp [onRegisters, renamed, h]
      rfl
    · simp [onRegisters, renamed, h]
  case jr cond offset => by_cases h : r.meets cond <;> simp [onRegisters, renamed, h]
  case djnz offset =>
    by_cases h : r.b - 1 = 0
    · simp [onRegisters, renamed, h]
      rfl
    · simp [onRegisters, renamed, h]
      rfl
  case call cond addr =>
    by_cases h : r.meets cond
    · simp [onRegisters, renamed, h, Stack.push_prefixed]
      rfl
    · simp [onRegisters, renamed, h]
  case ret cond =>
    by_cases h : r.meets cond
    · simp [onRegisters, renamed, h, Stack.pop_prefixed]
      rfl
    · simp [onRegisters, renamed, h]
  case inC x => cases x <;> simp [onRegisters, renamed]
  case outC x => cases x <;> simp [onRegisters, renamed]
  all_goals first
    | contradiction
    | rfl
    | simp [onRegisters, renamed]

lemma renames_exchange {op : Op} (hop : op = exDeHl ∨ op = exx) : op.Renames .hl := by
  intro r address address'
  rcases hop with rfl | rfl <;> rfl

end Op

end Z80Machine
