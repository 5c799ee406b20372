import Z80Machine.Computer
import Z80Machine.Decimal.Fixed

/-! Running a machine for some frames, and what is said of it afterwards. Spans of time are in nanoseconds. -/

namespace Z80Machine

structure Summary where
  frames : Nat
  cycles : UInt64
  elapsed : Nat
  emulated : Nat
  halted : Bool
  idle : Idle.Stats

namespace Summary

def seconds (nanos : Nat) : Float :=
  Float.ofNat (nanos / 1000000000) + Float.ofNat (nanos % 1000000000) / 1000000000.0

def megahertz (s : Summary) : Float :=
  let micros := seconds s.elapsed * 1000000.0
  if micros == 0.0 then 0.0 else s.cycles.toFloat / micros

def lines (s : Summary) : List String :=
  ["frames:      " ++ toString s.frames,
   "cycles:      " ++ toString s.cycles.toNat,
   "time:        " ++ Decimal.fixed 3 (seconds s.emulated) ++ "s emulated in " ++
     Decimal.fixed 3 (seconds s.elapsed) ++ "s (" ++ Decimal.fixed 2 s.megahertz ++ " MHz effective)",
   "idle:        " ++ toString s.idle.loops ++ " loops, " ++ toString s.idle.iterations ++ " iterations, " ++
     toString s.idle.cycles ++ " T skipped",
   "halted:      " ++ if s.halted then "yes" else "no"]

def text (s : Summary) : String :=
  "\n".intercalate s.lines

def nanos (seconds : Float) : Nat :=
  match Decimal.Parts.ofBits seconds.toBits with
  | .finite _ mantissa exponent =>
    let (num, den) := Decimal.power 2 exponent
    Decimal.roundDiv (mantissa * num * 1000000000) den
  | _ => 0

def ofRun {P : Type} (frames : Nat) (elapsed : Nat) (before after : Computer P) : Summary :=
  let cycles := after.cpu.total - before.cpu.total
  let clock := after.cpu.clock
  { frames, cycles, elapsed
    emulated := nanos (clock.toMicros cycles * clock.multiplier / 1000000.0)
    halted := after.cpu.isHalted
    idle := after.cpu.idle.stats }

end Summary

end Z80Machine
