/-! The ports of the machine. The host sets what can be read from a port, and the last byte written to one stays
there. -/

namespace Z80Machine

structure Ports where
  inputs : Vector (Option UInt8) 256 := .replicate 256 none
  outputs : Vector UInt8 256 := .replicate 256 0
  writes : Nat := 0

namespace Ports

def input? (p : Ports) (port : UInt8) : Option UInt8 :=
  have _ := port.toNat_lt
  p.inputs[port.toNat]

def read (p : Ports) (port : UInt8) : UInt8 :=
  (p.input? port).getD 0xFF

def setInput (p : Ports) (port : UInt8) (byte : Option UInt8) : Ports :=
  { p with inputs := p.inputs.set port.toNat byte port.toNat_lt }

def output (p : Ports) (port : UInt8) : UInt8 :=
  have _ := port.toNat_lt
  p.outputs[port.toNat]

def write (p : Ports) (port : UInt8) (byte : UInt8) : Ports :=
  { p with outputs := p.outputs.set port.toNat byte port.toNat_lt, writes := p.writes + 1 }

def reset (p : Ports) : Ports :=
  { p with outputs := .replicate 256 0, writes := 0 }

@[simp] theorem output_write (p : Ports) (port q : UInt8) (byte : UInt8) :
    (p.write port byte).output q = if port = q then byte else p.output q := by
  simp [write, output, Vector.getElem_set, UInt8.toNat_inj]

@[simp] theorem input?_setInput (p : Ports) (port q : UInt8) (byte : Option UInt8) :
    (p.setInput port byte).input? q = if port = q then byte else p.input? q := by
  simp [setInput, input?, Vector.getElem_set, UInt8.toNat_inj]

end Ports

end Z80Machine
