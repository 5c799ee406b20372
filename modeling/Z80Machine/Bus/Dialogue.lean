import Z80Machine.Bus

/-! A dialogue with the bus: the accesses something makes before it has its result, where each access may depend on
the answers to the earlier ones and on nothing else of the bus. -/

namespace Z80Machine

inductive Dialogue (α : Type) where
  | done (result : α)
  | read (addr : UInt16) (next : UInt8 → Dialogue α)
  | write (addr : UInt16) (byte : UInt8) (next : Dialogue α)
  | input (port : UInt8) (next : UInt8 → Dialogue α)
  | output (port : UInt8) (byte : UInt8) (next : Dialogue α)
  | note (event : Event) (next : Dialogue α)

structure Talk (α B : Type) where
  result : α
  bus : B
  log : Log
  traffic : Traffic

namespace Dialogue

variable {α β B : Type}

def bind : Dialogue α → (α → Dialogue β) → Dialogue β
  | done a, f => f a
  | read addr next, f => read addr fun b => (next b).bind f
  | write addr byte next, f => write addr byte (next.bind f)
  | input port next, f => input port fun b => (next b).bind f
  | output port byte next, f => output port byte (next.bind f)
  | note event next, f => note event (next.bind f)

instance : Monad Dialogue where
  pure := done
  bind := bind

def readByte (addr : UInt16) : Dialogue UInt8 :=
  read addr done

def writeByte (addr : UInt16) (byte : UInt8) : Dialogue Unit :=
  write addr byte (done ())

def inputByte (port : UInt8) : Dialogue UInt8 :=
  input port done

def outputByte (port : UInt8) (byte : UInt8) : Dialogue Unit :=
  output port byte (done ())

def remark (event : Event) : Dialogue Unit :=
  note event (done ())

def readWord (addr : UInt16) : Dialogue UInt16 := do
  let low ← readByte addr
  let high ← readByte (addr + 1)
  return Word.ofBytes high low

def writeWord (addr : UInt16) (word : UInt16) : Dialogue Unit := do
  writeByte addr (Word.low word)
  writeByte (addr + 1) (Word.high word)

def run [Bus B] : Dialogue α → B → Log → Traffic → Talk α B
  | done result, bus, log, traffic => { result, bus, log, traffic }
  | read addr next, bus, log, traffic =>
    let traffic := traffic.atAddress bus addr
    let (byte, bus) := Bus.read bus addr
    (next byte).run bus log traffic
  | write addr byte next, bus, log, traffic =>
    let traffic := traffic.atAddress bus addr
    let log := log.addAll (Bus.writeRemark bus addr byte).toList
    next.run (Bus.write bus addr byte) log traffic
  | input port next, bus, log, traffic =>
    let log := log.addAll (Bus.inputRemark bus port).toList
    let (byte, bus) := Bus.input bus port
    (next byte).run bus log traffic.atPort
  | output port byte next, bus, log, traffic => next.run (Bus.output bus port byte) log traffic.atPort
  | note event next, bus, log, traffic => next.run bus (log.add event) traffic

theorem run_bind [Bus B] (d : Dialogue α) (f : α → Dialogue β) (bus : B) (log : Log) (traffic : Traffic) :
    (d.bind f).run bus log traffic =
      let t := d.run bus log traffic
      (f t.result).run t.bus t.log t.traffic := by
  induction d generalizing bus log traffic with
  | done => rfl
  | read addr next ih => simp only [bind, run, ih]
  | write addr byte next ih => simp only [bind, run, ih]
  | input port next ih => simp only [bind, run, ih]
  | output port byte next ih => simp only [bind, run, ih]
  | note event next ih => simp only [bind, run, ih]

end Dialogue

end Z80Machine
