import Z80Machine.Bus
import Z80Machine.Memory
import Z80Machine.Ports

/-! The board: memory and ports as the processor sees them. -/

namespace Z80Machine

structure Board where
  memory : Memory := {}
  ports : Ports := {}

namespace Board

instance : Bus Board where
  read b addr := (b.memory.peek addr, b)
  write b addr byte := { b with memory := b.memory.write addr byte }
  input b port := (b.ports.read port, b)
  output b port byte := { b with ports := b.ports.write port byte }
  deviceClass b addr := if b.memory.inWindow addr then .video else .memory
  writeRemark b addr byte := if b.memory.isRom addr then some (.romWrite addr byte) else none
  inputRemark b port := if b.ports.input? port = none then some (.unmappedRead port) else none

def mapMemory (f : Memory → Memory) (b : Board) : Board :=
  { b with memory := f b.memory }

def mapPorts (f : Ports → Ports) (b : Board) : Board :=
  { b with ports := f b.ports }

end Board

end Z80Machine
