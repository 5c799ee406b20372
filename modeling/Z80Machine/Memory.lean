import Z80Machine.Image
import Z80Machine.Log
import Z80Machine.Ram

/-! The memory of the machine. Its lowest part keeps its contents whatever the processor writes, and a window of it is
shown on the screen. -/

namespace Z80Machine

def Image.stored (i : Image) : Event :=
  .imageStored i.size i.address i.crc

structure Memory where
  ram : Ram := .empty
  romSize : Nat := 0
  windowFirst : UInt16 := 0
  windowPast : UInt16 := 0
  romWrites : Nat := 0

namespace Memory

def ofLayout (romSize : Nat) (windowFirst windowPast : UInt16) : Logged Memory :=
  { value := { romSize := min romSize 65536, windowFirst, windowPast := max windowPast windowFirst }
    events := if windowPast < windowFirst then [.windowInverted windowFirst windowPast] else [] }

def isRom (m : Memory) (addr : UInt16) : Bool :=
  addr.toNat < m.romSize

def inWindow (m : Memory) (addr : UInt16) : Bool :=
  m.windowFirst ≤ addr && addr < m.windowPast

def peek (m : Memory) (addr : UInt16) : UInt8 :=
  m.ram.get addr

def poke (m : Memory) (addr : UInt16) (byte : UInt8) : Memory :=
  { m with ram := m.ram.set addr byte }

def write (m : Memory) (addr : UInt16) (byte : UInt8) : Memory :=
  if m.isRom addr then { m with romWrites := m.romWrites + 1 } else m.poke addr byte

def load (m : Memory) (i : Image) : Memory :=
  { m with ram := m.ram.setAll i.address i.bytes }

def clear (m : Memory) : Memory :=
  { m with ram := m.ram.clearFrom m.romSize, romWrites := 0 }

def window (m : Memory) : List UInt8 :=
  m.ram.range m.windowFirst (m.windowPast.toNat - m.windowFirst.toNat)

end Memory

end Z80Machine
