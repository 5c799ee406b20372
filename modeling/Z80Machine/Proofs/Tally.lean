import Mathlib.Tactic.Ext
import Z80Machine.Execute
import Z80Machine.Proofs.Dialogue

/-! How many accesses of each kind an operation makes. The number is the same whatever the bus answers; only a
conditional call or return lets it hang on the flags. -/

namespace Z80Machine

@[ext] structure Tally where
  reads : Nat := 0
  writes : Nat := 0
  inputs : Nat := 0
  outputs : Nat := 0
  deriving DecidableEq, Repr

namespace Tally

def ofAccess : Access → Tally
  | .read _ _ => { reads := 1 }
  | .write _ _ => { writes := 1 }
  | .input _ _ => { inputs := 1 }
  | .output _ _ => { outputs := 1 }

def add (t u : Tally) : Tally where
  reads := t.reads + u.reads
  writes := t.writes + u.writes
  inputs := t.inputs + u.inputs
  outputs := t.outputs + u.outputs

instance : Add Tally := ⟨add⟩

@[simp] lemma mk_add_mk (a b c d a' b' c' d' : Nat) :
    Tally.mk a b c d + Tally.mk a' b' c' d' = ⟨a + a', b + b', c + c', d + d'⟩ := rfl

lemma add_assoc (t u v : Tally) : t + u + v = t + (u + v) := by
  obtain ⟨a, b, c, d⟩ := t
  obtain ⟨a', b', c', d'⟩ := u
  obtain ⟨a'', b'', c'', d''⟩ := v
  simp only [mk_add_mk, Nat.add_assoc]

@[simp] lemma add_zeros (t : Tally) : t + ⟨0, 0, 0, 0⟩ = t := rfl

@[simp] lemma zeros_add (t : Tally) : (⟨0, 0, 0, 0⟩ : Tally) + t = t := by
  obtain ⟨a, b, c, d⟩ := t
  simp only [mk_add_mk, Nat.zero_add]

lemma add_reads_writes (t : Tally) (m n : Nat) :
    t + { reads := m } + { writes := n } = t + { reads := m, writes := n } := by
  simp [add_assoc]

lemma reads_add_reads (m n : Nat) : ({ reads := m } : Tally) + { reads := n } = { reads := m + n } := rfl

def of : List Access → Tally
  | [] => {}
  | a :: as => ofAccess a + of as

lemma of_append (as bs : List Access) : of (as ++ bs) = of as + of bs := by
  induction as with
  | nil => simp [of]
  | cons a as ih => rw [List.cons_append, of, of, ih, add_assoc]

@[simp] lemma of_read (addr : UInt16) (byte : UInt8) : of [.read addr byte] = ⟨1, 0, 0, 0⟩ := rfl
@[simp] lemma of_write (addr : UInt16) (byte : UInt8) : of [.write addr byte] = ⟨0, 1, 0, 0⟩ := rfl
@[simp] lemma of_input (port byte : UInt8) : of [.input port byte] = ⟨0, 0, 1, 0⟩ := rfl
@[simp] lemma of_output (port byte : UInt8) : of [.output port byte] = ⟨0, 0, 0, 1⟩ := rfl

def memory (t : Tally) : Nat :=
  t.reads + t.writes

def ports (t : Tally) : Nat :=
  t.inputs + t.outputs

lemma countP_isPort (as : List Access) : as.countP Access.isPort = (of as).ports := by
  induction as with
  | nil => rfl
  | cons a as ih =>
    cases h : of as
    cases a <;> simp_all [of, ofAccess, ports, List.countP_cons] <;> omega

lemma countP_not_isPort (as : List Access) : as.countP (!·.isPort) = (of as).memory := by
  induction as with
  | nil => rfl
  | cons a as ih =>
    cases h : of as
    cases a <;> simp_all [of, ofAccess, memory] <;> omega

lemma asks_of_mem {as : List Access} (hw : (of as).writes = 0) (ho : (of as).outputs = 0) :
    ∀ a ∈ as, a.asks := by
  induction as with
  | nil => simp
  | cons a as ih =>
    cases h : of as
    cases a <;> simp_all [of, ofAccess, Access.asks]

lemma asks_iff {as : List Access} : (∀ a ∈ as, a.asks) ↔ (of as).writes = 0 ∧ (of as).outputs = 0 := by
  refine ⟨fun h => ?_, fun h => asks_of_mem h.1 h.2⟩
  induction as with
  | nil => exact ⟨rfl, rfl⟩
  | cons a as ih =>
    obtain ⟨ha, has⟩ := List.forall_mem_cons.mp h
    obtain ⟨hw, ho⟩ := ih has
    cases h' : of as
    cases a <;> simp_all [of, ofAccess, Access.asks]

end Tally

def Operand.cells : Operand → Nat
  | reg _ => 0
  | imm _ => 0
  | indirect _ => 1
  | indexed _ _ => 1
  | absolute _ => 1

namespace Op

def tally (taken : Bool) : Op → Tally
  | load dst src => { reads := src.cells, writes := dst.cells }
  | fetchPair _ _ => { reads := 2 }
  | storePair _ _ => { writes := 2 }
  | exSp _ => { reads := 2, writes := 2 }
  | alu _ src => { reads := src.cells }
  | inc target => { reads := target.cells, writes := target.cells }
  | dec target => { reads := target.cells, writes := target.cells }
  | rld => { reads := 1, writes := 1 }
  | rrd => { reads := 1, writes := 1 }
  | shift _ target _ => { reads := target.cells, writes := target.cells }
  | bit _ target => { reads := target.cells }
  | res _ target _ => { reads := target.cells, writes := target.cells }
  | set _ target _ => { reads := target.cells, writes := target.cells }
  | call cond _ => { writes := if cond.isNone || taken then 2 else 0 }
  | ret cond => { reads := if cond.isNone || taken then 2 else 0 }
  | retn => { reads := 2 }
  | reti => { reads := 2 }
  | rst _ => { writes := 2 }
  | push _ => { writes := 2 }
  | pop _ => { reads := 2 }
  | inA _ => { inputs := 1 }
  | outA _ => { outputs := 1 }
  | inC _ => { inputs := 1 }
  | outC _ => { outputs := 1 }
  | block .load _ _ => { reads := 1, writes := 1 }
  | block .compare _ _ => { reads := 1 }
  | block .input _ _ => { inputs := 1, writes := 1 }
  | block .output _ _ => { reads := 1, outputs := 1 }
  | nop | halt | di | ei | im _ | loadPair _ _ | loadSp _ | loadAI | loadAR | loadIA | loadRA | exAf | exDeHl | exx
  | incPair _ | decPair _ | addPair _ _ | adcHl _ | sbcHl _ | rotateA _ | daa | cpl | scf | ccf | neg | jp _ _
  | jpPair _ | jr _ _ | djnz _ | unknown _ _ => {}

def overtime (taken : Bool) : Op → Nat
  | jr cond _ => if cond.isSome then 5 else 0
  | djnz _ => 5
  | call cond _ => if cond.isSome && taken then 7 else 0
  | ret cond => if cond.isSome && taken then 6 else 0
  | block _ _ repeating => if repeating then 5 else 0
  | nop | halt | di | ei | im _ | load _ _ | loadPair _ _ | fetchPair _ _ | storePair _ _ | loadSp _ | loadAI | loadAR
  | loadIA | loadRA | exAf | exDeHl | exx | exSp _ | alu _ _ | inc _ | dec _ | incPair _ | decPair _ | addPair _ _
  | adcHl _ | sbcHl _ | rotateA _ | daa | cpl | scf | ccf | neg | rld | rrd | shift _ _ _ | bit _ _ | res _ _ _
  | set _ _ _ | jp _ _ | jpPair _ | retn | reti | rst _ | push _ | pop _ | inA _ | outA _ | inC _ | outC _
  | unknown _ _ => 0

def taken (r : Registers) : Op → Bool
  | call cond _ => r.meets cond
  | ret cond => r.meets cond
  | _ => false

open Dialogue

lemma always_load {p : UInt8 → List Access → Prop} (o : Operand) (r : Registers) (seen : List Access)
    (h : ∀ v l, Tally.of l = Tally.of seen + { reads := o.cells } → p v l) : (o.load r).Always p seen := by
  cases o with
  | reg x => exact h _ _ rfl
  | imm value => exact h _ _ rfl
  | indirect pair => exact fun b => h _ _ (Tally.of_append _ _)
  | indexed mode offset => exact fun b => h _ _ (Tally.of_append _ _)
  | absolute addr => exact fun b => h _ _ (Tally.of_append _ _)

lemma always_store {p : Registers → List Access → Prop} (o : Operand) (v : UInt8) (r : Registers)
    (seen : List Access) (h : ∀ s l, Tally.of l = Tally.of seen + { writes := o.cells } → p s l) :
    (o.store v r).Always p seen := by
  cases o with
  | reg x => exact h _ _ rfl
  | imm value => exact h _ _ rfl
  | indirect pair => exact h _ _ (Tally.of_append _ _)
  | indexed mode offset => exact h _ _ (Tally.of_append _ _)
  | absolute addr => exact h _ _ (Tally.of_append _ _)

lemma always_change {p : Registers → List Access → Prop} (target : Operand) (copy : Option Register) (r : Registers)
    (f : UInt8 → UInt8 × Flags) (seen : List Access)
    (h : ∀ s l, Tally.of l = Tally.of seen + { reads := target.cells, writes := target.cells } → p s l) :
    (change target copy r f).Always p seen := by
  refine (always_bind _ _ _).mpr (always_load _ _ _ fun v l hl => ?_)
  refine (always_bind _ _ _).mpr (always_store _ _ _ _ fun s m hm => ?_)
  exact h _ m (by rw [hm, hl, Tally.add_reads_writes])

lemma always_changeBit {p : Registers → List Access → Prop} (target : Operand) (copy : Option Register)
    (r : Registers) (f : UInt8 → UInt8) (seen : List Access)
    (h : ∀ s l, Tally.of l = Tally.of seen + { reads := target.cells, writes := target.cells } → p s l) :
    (changeBit target copy r f).Always p seen := by
  refine (always_bind _ _ _).mpr (always_load _ _ _ fun v l hl => ?_)
  refine (always_bind _ _ _).mpr (always_store _ _ _ _ fun s m hm => ?_)
  exact h _ m (by rw [hm, hl, Tally.add_reads_writes])

lemma always_push {p : Registers → List Access → Prop} (word : UInt16) (r : Registers) (seen : List Access)
    (h : ∀ s l, Tally.of l = Tally.of seen + { writes := 2 } → p s l) : (Stack.push word r).Always p seen := by
  have written (a b : UInt16) (v w : UInt8) :
      Tally.of (seen ++ [.write a v] ++ [.write b w]) = Tally.of seen + { writes := 2 } := by
    simp only [Tally.of_append, Tally.of_write, Tally.add_assoc, Tally.mk_add_mk]
  unfold Stack.push
  split <;> exact h _ _ (written _ _ _ _)

lemma always_pop {p : UInt16 × Registers → List Access → Prop} (r : Registers) (seen : List Access)
    (h : ∀ s l, Tally.of l = Tally.of seen + { reads := 2 } → p s l) : (Stack.pop r).Always p seen := by
  have asked (a b : UInt16) (v w : UInt8) :
      Tally.of (seen ++ [.read a v] ++ [.read b w]) = Tally.of seen + { reads := 2 } := by
    simp only [Tally.of_append, Tally.of_read, Tally.add_assoc, Tally.mk_add_mk]
  unfold Stack.pop
  split <;> exact fun v w => h _ _ (asked _ _ _ _)

lemma always_round (op : BlockOp) (dir : Direction) (repeating : Bool) (r : Registers) (seen : List Access) :
    (Block.round op dir r).Always
      (fun _ l => Tally.of l = Tally.of seen + (block op dir repeating).tally false) seen := by
  cases op with
  | load => simp [Block.round, Block.load, tally, Tally.of_append, Tally.add_assoc]
  | compare => simp [Block.round, Block.compare, tally, Tally.of_append]
  | input => simp [Block.round, Block.input, tally, Tally.of_append, Tally.add_assoc]
  | output => simp [Block.round, Block.output, tally, Tally.of_append, Tally.add_assoc]

theorem always_onRegisters (op : Op) (address : UInt16) (r : Registers) (seen : List Access) :
    (op.onRegisters address r).Always
      (fun s l => Tally.of l = Tally.of seen + op.tally (op.taken r) ∧ s.2 ≤ op.overtime (op.taken r)) seen := by
  cases op
  case load dst src =>
    refine (always_bind _ _ _).mpr (always_load _ _ _ fun v l hl => ?_)
    refine (always_bind _ _ _).mpr (always_store _ _ _ _ fun s m hm => ⟨?_, Nat.le_refl _⟩)
    rw [hm, hl, Tally.add_reads_writes]
    rfl
  case alu op src => exact (always_bind _ _ _).mpr (always_load _ _ _ fun v l hl => ⟨hl, Nat.le_refl _⟩)
  case bit n target => exact (always_bind _ _ _).mpr (always_load _ _ _ fun v l hl => ⟨hl, Nat.le_refl _⟩)
  case inc target => exact (always_bind _ _ _).mpr (always_change _ _ _ _ _ fun s l hl => ⟨hl, Nat.le_refl _⟩)
  case dec target => exact (always_bind _ _ _).mpr (always_change _ _ _ _ _ fun s l hl => ⟨hl, Nat.le_refl _⟩)
  case shift op target copy =>
    exact (always_bind _ _ _).mpr (always_change _ _ _ _ _ fun s l hl => ⟨hl, Nat.le_refl _⟩)
  case res n target copy =>
    exact (always_bind _ _ _).mpr (always_changeBit _ _ _ _ _ fun s l hl => ⟨hl, Nat.le_refl _⟩)
  case set n target copy =>
    exact (always_bind _ _ _).mpr (always_changeBit _ _ _ _ _ fun s l hl => ⟨hl, Nat.le_refl _⟩)
  case push pair => exact (always_bind _ _ _).mpr (always_push _ _ _ fun s l hl => ⟨hl, Nat.le_refl _⟩)
  case rst vector => exact (always_bind _ _ _).mpr (always_push _ _ _ fun s l hl => ⟨hl, Nat.le_refl _⟩)
  case pop pair => exact (always_bind _ _ _).mpr (always_pop _ _ fun s l hl => ⟨hl, Nat.le_refl _⟩)
  case retn => exact (always_bind _ _ _).mpr (always_pop _ _ fun s l hl => ⟨hl, Nat.le_refl _⟩)
  case reti => exact (always_bind _ _ _).mpr (always_pop _ _ fun s l hl => ⟨hl, Nat.le_refl _⟩)
  case call cond addr =>
    cases h : r.meets cond with
    | true =>
      simp only [onRegisters, h, if_true, taken]
      refine (always_bind _ _ _).mpr (always_push _ _ _ fun s l hl => ⟨?_, ?_⟩)
      · rw [hl, tally, Bool.or_true, if_pos rfl]
      · cases cond <;> simp [overtime, Registers.takenTime]
    | false =>
      cases cond with
      | none => simp [Registers.meets] at h
      | some cc => simp [onRegisters, h, taken, tally, overtime]
  case ret cond =>
    cases h : r.meets cond with
    | true =>
      simp only [onRegisters, h, if_true, taken]
      refine (always_bind _ _ _).mpr (always_pop _ _ fun s l hl => ⟨?_, ?_⟩)
      · rw [hl, tally, Bool.or_true, if_pos rfl]
      · cases cond <;> simp [overtime, Registers.takenTime]
    | false =>
      cases cond with
      | none => simp [Registers.meets] at h
      | some cc => simp [onRegisters, h, taken, tally, overtime]
  case jr cond offset =>
    by_cases h : r.meets cond = true <;> cases cond <;> simp [onRegisters, h, tally, overtime, Registers.takenTime]
  case djnz offset => simp [onRegisters, tally, overtime]
  case block op dir repeating =>
    refine (always_bind _ _ _).mpr ((always_round op dir repeating r seen).mono fun s l hl => ?_)
    cases repeating <;> cases s.2 <;> simp [hl, taken, overtime]
  all_goals
    simp [onRegisters, tally, overtime, Dialogue.readWord, Dialogue.writeWord, rotateDigits, Tally.of_append,
      Tally.add_assoc]

end Op

end Z80Machine
