import Z80Machine.Bus

/-! A bus that keeps a record of the accesses made over it. -/

namespace Z80Machine

structure Recorded (B : Type) where
  bus : B
  accesses : Array Access := #[]

namespace Recorded

instance {B : Type} [Bus B] : Bus (Recorded B) where
  read r addr :=
    let (byte, bus) := Bus.read r.bus addr
    (byte, { bus, accesses := r.accesses.push (.read addr byte) })
  write r addr byte :=
    { bus := Bus.write r.bus addr byte, accesses := r.accesses.push (.write addr byte) }
  input r port :=
    let (byte, bus) := Bus.input r.bus port
    (byte, { bus, accesses := r.accesses.push (.input port byte) })
  output r port byte :=
    { bus := Bus.output r.bus port byte, accesses := r.accesses.push (.output port byte) }
  deviceClass r addr := Bus.deviceClass r.bus addr
  writeRemark r addr byte := Bus.writeRemark r.bus addr byte
  inputRemark r port := Bus.inputRemark r.bus port

def drain {B : Type} (r : Recorded B) : Array Access × Recorded B :=
  (r.accesses, { r with accesses := #[] })

end Recorded

end Z80Machine
