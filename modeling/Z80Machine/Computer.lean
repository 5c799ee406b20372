import Z80Machine.Board
import Z80Machine.Cpu.Run

/-! The whole machine: a processor on its board, and peripherals that are told how much time passes. It runs one video
frame at a time. -/

namespace Z80Machine

class Peripheral (P : Type) where
  name : P → String
  update : P → Nat → P

structure Computer (P : Type) where
  cpu : Cpu Board
  peripherals : List P := []
  config : BoardConfig := {}
  chunkCycles : Nat := 10000
  frames : Nat := 0

namespace Computer

variable {P : Type}

def note (c : Computer P) (e : Event) : Computer P :=
  { c with cpu := c.cpu.note e }

def boot (c : Computer P) : Computer P :=
  let cpu := c.cpu.start
  { c with cpu := cpu.setRegs { cpu.regs with pc := c.config.loadAddress }, frames := 0 }

def ofConfig (config : BoardConfig) (cpuConfig : CpuConfig) (log : Log) : Except ConfigError (Computer P) := do
  let memory := Memory.ofLayout config.romSize config.videoStart (max config.videoEnd config.videoStart)
  let cpu ← Cpu.withConfig { memory := memory.value } cpuConfig (log.addAll memory.events)
  let c : Computer P := { cpu, config, chunkCycles := cpuConfig.chunkCycles }
  return c.boot.note (.computerReady cpu.clock.mode config.frameRate config.romSize)

def load (c : Computer P) (i : Image) : Computer P :=
  let cpu := c.cpu.editMemory (Board.mapMemory (·.load i))
  let cpu := cpu.note i.stored
  { c with cpu := cpu.setRegs { cpu.regs with pc := i.address } }

def cyclesPerFrame (c : Computer P) : Nat :=
  c.cpu.clock.cyclesPerFrame c.config.frameRate

variable [Peripheral P]

def attach (c : Computer P) (p : P) : Computer P :=
  { c with peripherals := c.peripherals ++ [p] }.note (.peripheralAttached (Peripheral.name p))

/-- Runs one frame and returns its T-states. Every peripheral hears of each chunk, and the vertical blank at the end
requests an interrupt. -/
def runFrame (c : Computer P) : Nat × Computer P :=
  let update (ran : Nat) (s : Cpu Board × List P) := (s.1, s.2.map (Peripheral.update · ran))
  let (ran, cpu, peripherals) := c.cpu.runChunked c.cyclesPerFrame c.chunkCycles update c.peripherals
  let cpu := if c.config.vblankInterrupt then cpu.requestInterrupt .maskable else cpu
  let frames := c.frames + 1
  (ran, { c with cpu := cpu.note (.frameDone frames ran), peripherals, frames })

def runFrames (c : Computer P) (n : Nat) : Array Nat × Computer P :=
  n.fold (fun _ _ (ran, c) =>
    let (cycles, c) := c.runFrame
    (ran.push cycles, c)) (#[], c)

def runPaced {m : Type → Type} [Monad m] (pace : Computer P → m (Computer P)) (c : Computer P) : Nat → m (Computer P)
  | 0 => pure c
  | n + 1 => do (← pace c.runFrame.2).runPaced pace n

omit [Peripheral P] in
/-- Back to the state after power-on, but for the contents of memory and what the host set the ports to. -/
def reset (c : Computer P) : Computer P :=
  let cpu := c.cpu.reset.editPorts (Board.mapPorts Ports.reset)
  { c with cpu }.boot.note .computerReset

end Computer

structure Meter where
  name : String
  updates : Nat := 0
  cycles : Nat := 0
  deriving DecidableEq, Repr

instance : Peripheral Meter where
  name m := m.name
  update m ran := { m with updates := m.updates + 1, cycles := m.cycles + ran }

end Z80Machine
