import Mathlib.Data.List.Basic
import Z80Machine.Computer
import Z80Machine.Proofs.Detector

/-! Loading. An image that was accepted goes into memory whole, into its own cells and no others, and nothing can stop
it on the way. So a cell holds the byte of the last image that covers it. -/

namespace Z80Machine

namespace Ram

def copy? (m : Ram) (first past : Nat) (bytes : List UInt8) : Option Ram :=
  if first ≤ past ∧ past ≤ 65536 ∧ bytes.length = past - first then
    some ⟨.ofFn fun k => if first ≤ k.val then bytes[k.val - first]?.getD (m.cells.get k) else m.cells.get k⟩
  else none

lemma get_setAll_ofNat (m : Ram) {n : Nat} {bytes : List UInt8} (h : n + bytes.length ≤ 65536) (a : UInt16) :
    (m.setAll (UInt16.ofNat n) bytes).get a = if n ≤ a.toNat then bytes[a.toNat - n]?.getD (m.get a) else m.get a := by
  induction bytes generalizing m n with
  | nil => simp [setAll]
  | cons b bs ih =>
    rw [List.length_cons] at h
    have hn : (UInt16.ofNat n).toNat = n := UInt16.toNat_ofNat_of_lt (show n < 65536 by omega)
    have hset : (m.set (UInt16.ofNat n) b).get a = if n = a.toNat then b else m.get a := by
      simp only [get_set, ← UInt16.toNat_inj, hn]
    rw [setAll, show UInt16.ofNat n + 1 = UInt16.ofNat (n + 1) from (UInt16.ofNat_add n 1).symm, ih _ (by omega), hset]
    rcases Nat.lt_trichotomy n a.toNat with hlt | heq | hgt
    · have hk : a.toNat - n = a.toNat - (n + 1) + 1 := by omega
      rw [if_pos (Nat.succ_le_of_lt hlt), if_neg (Nat.ne_of_lt hlt), if_pos (Nat.le_of_lt hlt), hk,
        List.getElem?_cons_succ]
    · simp [heq]
    · rw [if_neg (by omega), if_neg (Nat.ne_of_gt hgt), if_neg (Nat.not_le.mpr hgt)]

lemma get_setAll (m : Ram) {addr : UInt16} {bytes : List UInt8} (h : addr.toNat + bytes.length ≤ 65536) (a : UInt16) :
    (m.setAll addr bytes).get a =
      if addr.toNat ≤ a.toNat then bytes[a.toNat - addr.toNat]?.getD (m.get a) else m.get a := by
  have hget := m.get_setAll_ofNat h a
  rwa [UInt16.ofNat_toNat] at hget

lemma copy_eq_setAll (m : Ram) {addr : UInt16} {bytes : List UInt8} (h : addr.toNat + bytes.length ≤ 65536) :
    m.copy? addr.toNat (addr.toNat + bytes.length) bytes = some (m.setAll addr bytes) := by
  rw [copy?, if_pos ⟨Nat.le_add_right _ _, h, (Nat.add_sub_cancel_left _ _).symm⟩]
  refine congrArg some (Ram.ext fun a => ?_)
  rw [get_setAll m h]
  exact Vector.getElem_ofFn _

end Ram

namespace Image

def byteAt? (i : Image) (addr : UInt16) : Option UInt8 :=
  if i.address.toNat ≤ addr.toNat then i.bytes[addr.toNat - i.address.toNat]? else none

def lastAt? (images : List Image) (addr : UInt16) : Option UInt8 :=
  images.reverse.findSome? (·.byteAt? addr)

variable {bytes : List UInt8} {address : UInt16}

lemma ofBytes_eq_ok (i : Image) : ofBytes bytes address = .ok i ↔ i.bytes = bytes ∧ i.address = address := by
  constructor
  · intro h
    simp only [ofBytes] at h
    split at h
    · cases h
    · split at h
      · cases h
        exact ⟨rfl, rfl⟩
      · cases h
  · rintro ⟨rfl, rfl⟩
    rw [ofBytes, dif_neg i.nonempty, dif_pos i.fits]

lemma exists_ofBytes : (∃ i, ofBytes bytes address = .ok i) ↔ bytes ≠ [] ∧ address.toNat + bytes.length ≤ 65536 := by
  simp only [ofBytes_eq_ok]
  constructor
  · rintro ⟨i, rfl, rfl⟩
    exact ⟨i.nonempty, i.fits⟩
  · rintro ⟨nonempty, fits⟩
    exact ⟨{ bytes, address, nonempty, fits }, rfl, rfl⟩

lemma lastAt_cons (i : Image) (images : List Image) (addr : UInt16) :
    lastAt? (i :: images) addr = (lastAt? images addr).or (i.byteAt? addr) := by
  simp [lastAt?, List.findSome?_append]

end Image

namespace Memory

/-- Takes bytes of which nothing is known. Those that reach beyond the top are refused, and a copy into cells that do not
suit it breaks off. -/
def checkedLoad (m : Memory) (address : UInt16) (bytes : List UInt8) : Except ImageError (Option Memory) :=
  let past := address.toNat + bytes.length
  if past > 65536 then .error (.tooLarge bytes.length address)
  else .ok ((m.ram.copy? address.toNat past bytes).map fun ram => { m with ram })

structure Loaded (m : Memory) (i : Image) (m' : Memory) : Prop where
  peek (addr : UInt16) : m'.peek addr = (i.byteAt? addr).getD (m.peek addr)
  rest : m' = { m with ram := m'.ram }

lemma checkedLoad_eq (m : Memory) (i : Image) : m.checkedLoad i.address i.bytes = .ok (some (m.load i)) := by
  rw [checkedLoad, if_neg (Nat.not_lt.mpr i.fits), m.ram.copy_eq_setAll i.fits]
  rfl

lemma loaded_load (m : Memory) (i : Image) : m.Loaded i (m.load i) where
  peek addr := by
    rw [Memory.peek, load, Ram.get_setAll _ i.fits, Image.byteAt?]
    split <;> rfl
  rest := rfl

lemma peek_foldl_load (m : Memory) (images : List Image) (addr : UInt16) :
    (images.foldl load m).peek addr = (Image.lastAt? images addr).getD (m.peek addr) := by
  induction images generalizing m with
  | nil => rfl
  | cons i images ih =>
    rw [List.foldl_cons, ih, (m.loaded_load i).peek, Image.lastAt_cons]
    cases Image.lastAt? images addr <;> rfl

end Memory

namespace Computer

variable {P : Type}

def checkedLoad (c : Computer P) (address : UInt16) (bytes : List UInt8) : Except ImageError (Option (Computer P)) := do
  let loaded ← c.cpu.bus.memory.checkedLoad address bytes
  return loaded.map fun memory =>
    let cpu := c.cpu.editMemory (Board.mapMemory fun _ => memory)
    let cpu := cpu.note (.imageStored bytes.length address (Crc32.ofBytes bytes))
    { c with cpu := cpu.setRegs { cpu.regs with pc := address } }

structure Loaded (c : Computer P) (i : Image) (c' : Computer P) : Prop where
  memory : c.cpu.bus.memory.Loaded i c'.cpu.bus.memory
  machine : c'.cpu.machine = { c.cpu.machine with
    core := { c.cpu.core with regs := { c.cpu.regs with pc := i.address } }
    bus := { c.cpu.bus with memory := c'.cpu.bus.memory } }
  idle : c'.cpu.idle.Empty
  rest : c' = { c with cpu := c'.cpu }

lemma checkedLoad_eq (c : Computer P) (i : Image) : c.checkedLoad i.address i.bytes = .ok (some (c.load i)) := by
  rw [checkedLoad, Memory.checkedLoad_eq]
  rfl

lemma loaded_load (c : Computer P) (i : Image) : c.Loaded i (c.load i) where
  memory := Memory.loaded_load _ i
  machine := rfl
  idle := ⟨rfl, rfl⟩
  rest := rfl

lemma memory_foldl_load (c : Computer P) (images : List Image) :
    (images.foldl load c).cpu.bus.memory = images.foldl Memory.load c.cpu.bus.memory := by
  induction images generalizing c with
  | nil => rfl
  | cons i images ih => exact ih (c.load i)

/-- The bytes of an image are judged once, when it is made. Memory, which looks at their number again, takes every image
there is, and so does the machine. -/
theorem load_exact (P : Type) (bytes : List UInt8) (address : UInt16) :
    ((∃ i, Image.ofBytes bytes address = .ok i) ↔ bytes ≠ [] ∧ address.toNat + bytes.length ≤ 65536) ∧
      (∀ i, Image.ofBytes bytes address = .ok i ↔ i.bytes = bytes ∧ i.address = address) ∧
      (∀ (m : Memory) (i : Image), m.checkedLoad i.address i.bytes = .ok (some (m.load i)) ∧ m.Loaded i (m.load i)) ∧
      (∀ (c : Computer P) (i : Image),
        c.checkedLoad i.address i.bytes = .ok (some (c.load i)) ∧ c.Loaded i (c.load i)) ∧
      ∀ (images : List Image) (addr : UInt16),
        (∀ m : Memory, (images.foldl Memory.load m).peek addr = (Image.lastAt? images addr).getD (m.peek addr)) ∧
        ∀ c : Computer P, (images.foldl load c).cpu.bus.memory.peek addr =
          (Image.lastAt? images addr).getD (c.cpu.bus.memory.peek addr) := by
  refine ⟨Image.exists_ofBytes, Image.ofBytes_eq_ok, fun m i => ⟨m.checkedLoad_eq i, m.loaded_load i⟩,
    fun c i => ⟨c.checkedLoad_eq i, c.loaded_load i⟩, fun images addr => ⟨fun m => m.peek_foldl_load images addr, ?_⟩⟩
  intro c
  rw [memory_foldl_load, Memory.peek_foldl_load]

end Computer

end Z80Machine
