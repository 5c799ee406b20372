import Mathlib.Tactic.Lemma
import Z80Machine.Execute
import Z80Machine.Proofs.Dialogue

/-! What an undisturbing operation cannot see. It runs alike whatever stands in the refresh counter and the interrupt
flip-flops, and hands them on as they are; only LD A,I looks at the second flip-flop. -/

namespace Z80Machine

namespace Registers

def veil (r : Registers) (refresh : UInt8) (iff1 iff2 : Bool) : Registers :=
  { r with r := refresh, iff1, iff2 }

variable (r : Registers) (x : UInt8) (p q : Bool)

@[simp] lemma veil_a : (r.veil x p q).a = r.a := rfl
@[simp] lemma veil_c : (r.veil x p q).c = r.c := rfl
@[simp] lemma veil_sp : (r.veil x p q).sp = r.sp := rfl
@[simp] lemma get_veil (reg : Register) : (r.veil x p q).get reg = r.get reg := by
  cases reg <;> rfl

@[simp] lemma getPair_veil (pair : Pair) : (r.veil x p q).getPair pair = r.getPair pair := by
  cases pair <;> rfl

@[simp] lemma set_veil (reg : Register) (v : UInt8) : (r.veil x p q).set reg v = (r.set reg v).veil x p q := by
  cases reg <;> rfl

@[simp] lemma setPair_veil (pair : Pair) (w : UInt16) :
    (r.veil x p q).setPair pair w = (r.setPair pair w).veil x p q := by
  cases pair <;> rfl

@[simp] lemma setFlags_veil (f : Flags) : (r.veil x p q).setFlags f = (r.setFlags f).veil x p q := rfl
@[simp] lemma setA_veil (v : UInt8 × Flags) : (r.veil x p q).setA v = (r.setA v).veil x p q := rfl
@[simp] lemma jumpBy_veil (offset : UInt8) : (r.veil x p q).jumpBy offset = (r.jumpBy offset).veil x p q := rfl
@[simp] lemma flags_veil : (r.veil x p q).flags = r.flags := rfl
@[simp] lemma meets_veil (cond : Option Condition) : (r.veil x p q).meets cond = r.meets cond := rfl

/-! The refresh counter -/

def refreshed (x : UInt8) (fetches : Nat) : UInt8 :=
  (x &&& 0x80) ||| ((x + UInt8.ofNat fetches) &&& 0x7F)

lemma toNat_refreshed (x : UInt8) (fetches : Nat) :
    (refreshed x fetches).toNat = 128 * (x.toNat / 128) + (x.toNat + fetches) % 128 := by
  have high : x.toNat &&& 128 = 128 * (x.toNat / 128) :=
    (by decide +kernel : ∀ v < 256, v &&& 128 = 128 * (v / 128)) _ x.toNat_lt
  have low : (x + UInt8.ofNat fetches).toNat &&& 2 ^ 7 - 1 = (x.toNat + fetches) % 128 := by
    rw [Nat.and_two_pow_sub_one_eq_mod, UInt8.toNat_add, UInt8.toNat_ofNat']
    omega
  have hlt : (x.toNat + fetches) % 128 < 2 ^ 7 := Nat.mod_lt _ (by decide)
  calc (refreshed x fetches).toNat
      = (x.toNat &&& 128) ||| ((x + UInt8.ofNat fetches).toNat &&& 2 ^ 7 - 1) := by
        simp only [refreshed, UInt8.toNat_or, UInt8.toNat_and]
        rfl
    _ = 128 * (x.toNat / 128) ||| ((x.toNat + fetches) % 128) := by rw [high, low]
    _ = 128 * (x.toNat / 128) + (x.toNat + fetches) % 128 := (Nat.two_pow_add_eq_or_of_lt hlt _).symm

lemma refreshed_refreshed (x : UInt8) (m n : Nat) : refreshed (refreshed x m) n = refreshed x (m + n) := by
  have hx : x.toNat < 256 := x.toNat_lt
  apply UInt8.toNat_inj.mp
  simp only [toNat_refreshed]
  omega

@[simp] lemma refreshed_zero (x : UInt8) : refreshed x 0 = x := by
  have hx : x.toNat < 256 := x.toNat_lt
  apply UInt8.toNat_inj.mp
  rw [toNat_refreshed]
  omega

end Registers

variable (r : Registers) (x : UInt8) (p q : Bool)

@[simp] lemma Operand.load_veil (o : Operand) : o.load (r.veil x p q) = o.load r := by
  cases o <;> simp [load]

@[simp] lemma Operand.store_veil (o : Operand) (v : UInt8) :
    o.store v (r.veil x p q) = (o.store v r).bind fun s => .done (s.veil x p q) := by
  cases o <;> simp [store]

lemma Stack.push_veil (w : UInt16) :
    Stack.push w (r.veil x p q) = (Stack.push w r).bind fun s => .done (s.veil x p q) := by
  unfold push
  by_cases h : r.sp < 2 <;> simp [h, Registers.veil]

lemma Stack.pop_veil :
    Stack.pop (r.veil x p q) = (Stack.pop r).bind fun s => .done (s.1, s.2.veil x p q) := by
  unfold pop
  by_cases h : r.sp > 0xFFFD <;> simp [h, Registers.veil]

lemma Block.round_veil (op : BlockOp) (dir : Direction) :
    Block.round op dir (r.veil x p q) = (Block.round op dir r).bind fun s => .done (s.1.veil x p q, s.2) := by
  cases op <;> rfl

namespace Op

lemma change_veil (target : Operand) (copy : Option Register) (f : UInt8 → UInt8 × Flags) :
    change target copy (r.veil x p q) f = (change target copy r f).bind fun s => .done (s.veil x p q) := by
  cases copy <;> simp [change]

lemma changeBit_veil (target : Operand) (copy : Option Register) (f : UInt8 → UInt8) :
    changeBit target copy (r.veil x p q) f = (changeBit target copy r f).bind fun s => .done (s.veil x p q) := by
  cases copy <;> simp [changeBit]

theorem onRegisters_veil {op : Op} (address : UInt16) (hop : op.disturbs = false) (hq : op = .loadAI → q = r.iff2) :
    op.onRegisters address (r.veil x p q) =
      (op.onRegisters address r).bind fun s => .done (s.1.veil x p q, s.2) := by
  cases op
  case loadAI =>
    rw [hq rfl]
    rfl
  case push pair => simp [onRegisters, Stack.push_veil]
  case pop pair => simp [onRegisters, Stack.pop_veil]
  case ret cond =>
    by_cases h : r.meets cond
    · simp [onRegisters, h, Stack.pop_veil]
      rfl
    · simp [onRegisters, h]
  case jp cond addr =>
    by_cases h : r.meets cond
    · simp [onRegisters, h]
      rfl
    · simp [onRegisters, h]
  case jr cond offset => by_cases h : r.meets cond <;> simp [onRegisters, h]
  case djnz offset =>
    by_cases h : r.b - 1 = 0
    · simp [onRegisters, h, Registers.veil]
    · simp [onRegisters, h, Registers.veil]
      rfl
  case block op dir repeating =>
    simp only [onRegisters, Block.round_veil, Dialogue.bind_eq, Dialogue.bind_assoc, Dialogue.done_bind]
    congr 1
    funext s
    split <;> rfl
  case inc target => simp [onRegisters, change_veil]
  case dec target => simp [onRegisters, change_veil]
  case shift op target copy => simp [onRegisters, change_veil]
  case res n target copy => simp [onRegisters, changeBit_veil]
  case set n target copy => simp [onRegisters, changeBit_veil]
  case inC reg => cases reg <;> simp [onRegisters]
  all_goals first
    | contradiction
    | rfl
    | simp [onRegisters]

end Op

end Z80Machine
