import Z80Machine.Bus.Dialogue
import Z80Machine.Instruction.Encoding

/-! Fetching an instruction over the bus: its bytes are read from consecutive addresses, each once and in order. -/

namespace Z80Machine

def Encoding.fetch {α : Type} : Encoding α → UInt16 → List UInt8 → Dialogue (α × List UInt8)
  | complete value, _, seen => .done (value, seen)
  | more next, addr, seen => .read addr fun b => (next b).fetch (addr + 1) (seen ++ [b])

namespace Instruction

def decode (opcode : UInt8) (pc : UInt16) : Dialogue Instruction := do
  let (encoded, bytes) ← (Encoding.ofOpcode opcode).fetch (pc + 1) [opcode]
  return encoded.toInstruction pc bytes

end Instruction

end Z80Machine
