import Z80Machine.Cpu.Step

/-! Letting the processor run for some time, in chunks between which the host may act. -/

namespace Z80Machine.Cpu

variable {B : Type} [Bus B] {S : Type}

def steps (c : Cpu B) (target : Nat) : Nat → Nat → Nat × Cpu B
  | ran, 0 => (ran, c)
  | ran, fuel + 1 =>
    if target ≤ ran then (ran, c)
    else
      let (cycles, c) := c.step (target - ran)
      c.steps target (ran + cycles) fuel

/-- Steps that a run may take beyond one for each T-state asked for. Every step takes time, so it never comes to
that. -/
def stepMargin : Nat :=
  1000

def runFor (c : Cpu B) (target : Nat) : Nat × Cpu B :=
  if c.lifecycle = .paused then (0, c)
  else
    let limit := min (target + stepMargin) unbounded
    let (ran, c) := c.steps target 0 limit
    if ran < target then (ran, c.note (.noProgress limit c.regs.pc)) else (ran, c)

/-- Runs until at least `cycles` T-states are done, `chunk` at a time, and lets `act` see the T-states just run, the
processor, and a state of its own after each chunk. A chunk that takes no time ends the run. -/
def runChunks (cycles chunk : Nat) (act : Nat → Cpu B × S → Cpu B × S) (done : Nat) (c : Cpu B) (s : S) :
    Nat × Cpu B × S :=
  if cycles ≤ done then (done, c, s)
  else
    let (ran, c) := c.runFor (min (cycles - done) chunk)
    if ran = 0 then (done, c, s)
    else
      let (c, s) := act ran (c, s)
      runChunks cycles chunk act (done + ran) c s
termination_by cycles - done

def runChunked (c : Cpu B) (cycles chunk : Nat) (act : Nat → Cpu B × S → Cpu B × S) (s : S) : Nat × Cpu B × S :=
  runChunks cycles (max chunk 1) act 0 c s

def run (c : Cpu B) (cycles : Nat) : Nat × Cpu B :=
  let (ran, c, _) := c.runChunked cycles c.chunkCycles (fun _ => id) ()
  (ran, c)

def stepTimes (c : Cpu B) (n : Nat) : Array Nat × Cpu B :=
  n.fold (fun _ _ (times, c) =>
    let (cycles, c) := c.step unbounded
    (times.push cycles, c)) (#[], c)

end Z80Machine.Cpu
