import Z80Machine.Word

/-! 64 KB of memory cells, one for each word. -/

namespace Z80Machine

structure Ram where
  cells : Vector UInt8 65536

namespace Ram

def filled (byte : UInt8) : Ram :=
  ⟨.replicate 65536 byte⟩

def empty : Ram :=
  filled 0

def get (m : Ram) (addr : UInt16) : UInt8 :=
  have _ := addr.toNat_lt
  m.cells[addr.toNat]

def set (m : Ram) (addr : UInt16) (byte : UInt8) : Ram :=
  ⟨m.cells.set addr.toNat byte addr.toNat_lt⟩

@[simp] theorem get_filled (byte : UInt8) (addr : UInt16) : (filled byte).get addr = byte := by
  simp [filled, get]

theorem get_set (m : Ram) (a b : UInt16) (byte : UInt8) :
    (m.set a byte).get b = if a = b then byte else m.get b := by
  simp [set, get, Vector.getElem_set, UInt16.toNat_inj]

@[simp] theorem get_set_self (m : Ram) (a : UInt16) (byte : UInt8) : (m.set a byte).get a = byte := by
  simp [get_set]

@[ext] theorem ext {m n : Ram} (h : ∀ a, m.get a = n.get a) : m = n := by
  obtain ⟨m⟩ := m
  obtain ⟨n⟩ := n
  congr 1
  apply Vector.ext
  intro i hi
  have h := h (UInt16.ofNat i)
  simpa [get, UInt16.toNat_ofNat, Nat.mod_eq_of_lt hi] using h

def setAll (m : Ram) (addr : UInt16) : List UInt8 → Ram
  | [] => m
  | b :: bs => (m.set addr b).setAll (addr + 1) bs

def range (m : Ram) (addr : UInt16) (n : Nat) : List UInt8 :=
  (List.range n).map fun k => m.get (addr + UInt16.ofNat k)

def clearFrom (m : Ram) (first : Nat) : Ram :=
  ⟨.ofFn fun i => if i.val < first then m.cells[i] else 0⟩

def toList (m : Ram) : List UInt8 :=
  m.cells.toList

end Ram

end Z80Machine
