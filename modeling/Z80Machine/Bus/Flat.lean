import Z80Machine.Bus
import Z80Machine.Ram

/-! The plainest bus: 64 KB of writable memory, part of which may be video memory, and a queue of bytes that answers
reads of any port. Writes to ports go nowhere. -/

namespace Z80Machine

structure FlatBus where
  ram : Ram := .empty
  videoFirst : Nat := 0
  videoPast : Nat := 0
  queue : List UInt8 := []
  dry : UInt8 := 0xFF
  floating : Bool := false

namespace FlatBus

def isVideo (b : FlatBus) (addr : UInt16) : Bool :=
  b.videoFirst ≤ addr.toNat && addr.toNat < b.videoPast

instance : Bus FlatBus where
  read b addr := (b.ram.get addr, b)
  write b addr byte := { b with ram := b.ram.set addr byte }
  input b _ :=
    if b.floating then (0xFF, b)
    else match b.queue with
      | [] => (b.dry, b)
      | byte :: queue => (byte, { b with queue })
  output b _ _ := b
  deviceClass b addr := if b.isVideo addr then .video else .memory

end FlatBus

end Z80Machine
