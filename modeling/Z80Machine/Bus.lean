import Z80Machine.Clock.Mode
import Z80Machine.Log

/-! What a processor is wired to: memory cells and ports that answer reads and take writes. A read may change what it
reads from, and an access may be worth a remark in the log. -/

namespace Z80Machine

class Bus (B : Type) where
  read : B → UInt16 → UInt8 × B
  write : B → UInt16 → UInt8 → B
  input : B → UInt8 → UInt8 × B
  output : B → UInt8 → UInt8 → B
  deviceClass : B → UInt16 → DeviceClass := fun _ _ => .memory
  writeRemark : B → UInt16 → UInt8 → Option Event := fun _ _ _ => none
  inputRemark : B → UInt8 → Option Event := fun _ _ => none

inductive Access where
  | read (addr : UInt16) (byte : UInt8)
  | write (addr : UInt16) (byte : UInt8)
  | input (port : UInt8) (byte : UInt8)
  | output (port : UInt8) (byte : UInt8)
  deriving DecidableEq, Repr

namespace Access

def isPort : Access → Bool
  | input _ _ => true
  | output _ _ => true
  | _ => false

def text (port : UInt8 → String) : Access → String
  | read addr byte => "r " ++ Hex.lowerWord addr ++ " " ++ Hex.lowerByte byte
  | write addr byte => "w " ++ Hex.lowerWord addr ++ " " ++ Hex.lowerByte byte
  | input p byte => "i " ++ port p ++ " " ++ Hex.lowerByte byte
  | output p byte => "o " ++ port p ++ " " ++ Hex.lowerByte byte

end Access

structure Traffic where
  video : Nat := 0
  ports : Nat := 0
  deriving DecidableEq, Repr

namespace Traffic

def atAddress {B : Type} [Bus B] (t : Traffic) (bus : B) (addr : UInt16) : Traffic :=
  if Bus.deviceClass bus addr = .video then { t with video := t.video + 1 } else t

def atPort (t : Traffic) : Traffic :=
  { t with ports := t.ports + 1 }

end Traffic

end Z80Machine
