import Z80Machine.Bus.Flat
import Z80Machine.Bus.Recorded
import Z80Machine.Cpu.Run

/-! States of single-step test vectors: a register file in bytes and words, and the memory bytes that matter. -/

namespace Z80Machine.TestVector

/-- The flip-flops are bytes here, and any byte but zero counts as set. -/
structure State where
  pc : UInt16 := 0
  sp : UInt16 := 0
  a : UInt8 := 0
  b : UInt8 := 0
  c : UInt8 := 0
  d : UInt8 := 0
  e : UInt8 := 0
  f : UInt8 := 0
  h : UInt8 := 0
  l : UInt8 := 0
  i : UInt8 := 0
  r : UInt8 := 0
  ix : UInt16 := 0
  iy : UInt16 := 0
  shadowAf : UInt16 := 0
  shadowBc : UInt16 := 0
  shadowDe : UInt16 := 0
  shadowHl : UInt16 := 0
  im : UInt8 := 0
  iff1 : UInt8 := 0
  iff2 : UInt8 := 0
  ram : List (UInt16 × UInt8) := []
  deriving DecidableEq, Repr

namespace State

def flipFlop (on : Bool) : UInt8 :=
  if on then 1 else 0

def toRegisters (s : State) : Registers where
  a := s.a
  f := s.f
  b := s.b
  c := s.c
  d := s.d
  e := s.e
  h := s.h
  l := s.l
  shadow := {
    a := Word.high s.shadowAf, f := Word.low s.shadowAf
    b := Word.high s.shadowBc, c := Word.low s.shadowBc
    d := Word.high s.shadowDe, e := Word.low s.shadowDe
    h := Word.high s.shadowHl, l := Word.low s.shadowHl }
  ix := s.ix
  iy := s.iy
  sp := s.sp
  pc := s.pc
  i := s.i
  r := s.r
  iff1 := s.iff1 != 0
  iff2 := s.iff2 != 0
  im := s.im

def ofRegisters (r : Registers) : State where
  pc := r.pc
  sp := r.sp
  a := r.a
  b := r.b
  c := r.c
  d := r.d
  e := r.e
  f := r.f
  h := r.h
  l := r.l
  i := r.i
  r := r.r
  ix := r.ix
  iy := r.iy
  shadowAf := Word.ofBytes r.shadow.a r.shadow.f
  shadowBc := Word.ofBytes r.shadow.b r.shadow.c
  shadowDe := Word.ofBytes r.shadow.d r.shadow.e
  shadowHl := Word.ofBytes r.shadow.h r.shadow.l
  im := r.im
  iff1 := flipFlop r.iff1
  iff2 := flipFlop r.iff2

def memory (s : State) : Ram :=
  s.ram.foldl (fun m (addr, byte) => m.set addr byte) .empty

end State

def address? : Access → Option UInt16
  | .read addr _ => some addr
  | .write addr _ => some addr
  | _ => none

def touched (accesses : List Access) : List UInt16 :=
  ((accesses.filterMap address?).mergeSort (· ≤ ·)).eraseReps

def bus (memory : Ram) (answers : List UInt8) : Recorded FlatBus :=
  { bus := { ram := memory, queue := answers } }

structure Replay where
  cycles : Nat
  halted : Bool
  final : State
  accesses : List Access

def State.replay (s : State) (answers : List UInt8) : Replay :=
  let cpu : Cpu (Recorded FlatBus) := { core := { regs := s.toRegisters }, bus := bus s.memory answers }
  let (cycles, cpu) := cpu.step Cpu.unbounded
  let accesses := cpu.bus.accesses.toList
  let ram := (touched accesses).map fun addr => (addr, cpu.bus.bus.ram.get addr)
  { cycles, halted := cpu.isHalted, final := { State.ofRegisters cpu.regs with ram }, accesses }

end Z80Machine.TestVector
