import Z80Machine.Proofs.Peripherals
import Z80Machine.Proofs.Protection
import Z80Machine.Proofs.Twins

/-! A reset forgets. Of all that machines have been through, only what their hosts have set up and what is in their
memories makes a difference after it. -/

namespace Z80Machine

namespace Memory

def layout (m : Memory) : Nat × UInt16 × UInt16 :=
  (m.romSize, m.windowFirst, m.windowPast)

@[simp] lemma layout_write (m : Memory) (addr : UInt16) (byte : UInt8) : (m.write addr byte).layout = m.layout := by
  simp only [layout, write_romSize, write_windowFirst, write_windowPast]

end Memory

lemma Dialogue.run_layout {α : Type} (d : Dialogue α) (b : Board) (log : Log) (traffic : Traffic) :
    (d.run b log traffic).bus.memory.layout = b.memory.layout := by
  induction d generalizing b log traffic with
  | done => rfl
  | read addr next ih => exact ih _ _ _ _
  | write addr byte next ih => exact (ih _ _ _).trans (b.memory.layout_write addr byte)
  | input port next ih => exact ih _ _ _ _
  | output port byte next ih => exact ih _ _ _
  | note event next ih => exact ih _ _ _

namespace Cpu

lemma Stepped.layout {c : Cpu Board} {budget t : Nat} {k : StepKind} {m : Machine Board} {d : Idle.Detector}
    (h : c.Stepped budget k t m d) : m.bus.memory.layout = c.bus.memory.layout := by
  cases h with
  | paused => rfl
  | response _ _ ht =>
    rw [ht]
    exact Dialogue.run_layout _ _ _ _
  | halted => rfl
  | skipped => rfl
  | instruction => exact Dialogue.run_layout _ _ _ _

lemma runChunked_layout {S : Type} (c : Cpu Board) (cycles chunk : Nat) (hear : Nat → S → S) (s : S) :
    (c.runChunked cycles chunk (listening hear) s).2.1.bus.memory.layout = c.bus.memory.layout := by
  have hstep (e : Cpu Board) (budget : Nat) (he : e.bus.memory.layout = c.bus.memory.layout) :
      (e.step budget).2.bus.memory.layout = c.bus.memory.layout := (e.stepped budget).layout.trans he
  exact runChunks_closed (P := fun e : Cpu Board => e.bus.memory.layout = c.bus.memory.layout) hstep
    (fun _ _ he => he) (listening hear) (fun _ _ _ he => he) rfl _ _ _ _

end Cpu

def Board.Same (b b' : Board) : Prop :=
  ∃ n, b' = b.mapMemory fun m => { m with romWrites := n }

lemma Board.same_twins : Bus.Twins Same where
  deviceClass := by
    rintro b _ ⟨n, rfl⟩ addr
    rfl
  read := by
    rintro b _ ⟨n, rfl⟩ addr
    exact ⟨rfl, n, rfl⟩
  write := by
    rintro b _ ⟨n, rfl⟩ addr byte
    by_cases hrom : addr.toNat < b.memory.romSize
    · exact ⟨n + 1, by simp [Bus.write, Memory.write, Memory.isRom, mapMemory, hrom]⟩
    · exact ⟨n, by simp [Bus.write, Memory.write, Memory.isRom, Memory.poke, mapMemory, hrom]⟩
  input := by
    rintro b _ ⟨n, rfl⟩ port
    exact ⟨rfl, n, rfl⟩
  output := by
    rintro b _ ⟨n, rfl⟩ port byte
    exact ⟨n, rfl⟩

def HostOp.Blind (op : HostOp Board) : Prop :=
  ∀ b b', b.Same b' → (op.onBus b).Same (op.onBus b')

def HostOp.KeepsLayout (op : HostOp Board) : Prop :=
  ∀ b, (op.onBus b).memory.layout = b.memory.layout

lemma HostOp.blind_mapMemory {f : Memory → Memory}
    (hf : ∀ m n, ∃ n', f { m with romWrites := n } = { f m with romWrites := n' }) :
    (editMemory (Board.mapMemory f)).Blind := by
  rintro b _ ⟨n, rfl⟩
  obtain ⟨n', hn⟩ := hf b.memory n
  exact ⟨n', congrArg (fun memory => { b with memory }) hn⟩

namespace Computer

inductive Command (P : Type) where
  | frame
  | run (cycles : Nat)
  | step
  | host (op : HostOp Board) (blind : op.Blind)
  | setInterruptEnabled (on : Bool)
  | editRegs (f : Registers → Registers)
  | load (image : Image)
  | attach (p : P)
  | reset

variable {P : Type}

def onCpu (c : Computer P) (x : Nat × Cpu Board) : Nat × Computer P :=
  (x.1, { c with cpu := x.2 })

section

variable [Peripheral P]

def perform (c : Computer P) : Command P → Nat × Computer P
  | .frame => c.runFrame
  | .run cycles => c.onCpu (c.cpu.run cycles)
  | .step => c.onCpu (c.cpu.step Cpu.unbounded)
  | .host op _ => c.onCpu (0, op.apply c.cpu)
  | .setInterruptEnabled on => c.onCpu (0, c.cpu.setInterruptEnabled on)
  | .editRegs f => c.onCpu (0, c.cpu.setRegs (f c.cpu.regs))
  | .load image => (0, c.load image)
  | .attach p => (0, c.attach p)
  | .reset => (0, c.reset)

def performAll (c : Computer P) : List (Command P) → List Nat × Computer P
  | [] => ([], c)
  | command :: commands =>
    let (cycles, c) := c.perform command
    let (rest, c) := c.performAll commands
    (cycles :: rest, c)

def heard (ps : List P) : Command P × List Nat → List P
  | (.attach p, _) => ps ++ [p]
  | (_, amounts) => ps.map fun p => amounts.foldl Peripheral.update p

end

def LaidOut (c : Computer P) : Prop :=
  c.cpu.bus.memory.layout =
    (Memory.ofLayout c.config.romSize c.config.videoStart (max c.config.videoEnd c.config.videoStart)).value.layout

section

variable {c : Computer P}

lemma boot_bus (c : Computer P) : c.boot.cpu.bus = c.cpu.bus := by
  simp only [boot, Cpu.start]
  split <;> rfl

lemma reset_bus (c : Computer P) : c.reset.cpu.bus = c.cpu.bus.mapPorts Ports.reset := by
  refine (boot_bus _).trans (congrArg (Board.mapPorts Ports.reset) ?_)
  exact HostOp.reset.apply_bus c.cpu

lemma blanked_bus (c : Computer P) : c.blanked.bus = c.untilBlank.2.bus := by
  unfold blanked
  split
  · exact congrArg Machine.bus (Cpu.machine_requestInterrupt _ _)
  · rfl

theorem laidOut_ofConfig {config : BoardConfig} {cpuConfig : CpuConfig} {log : Log}
    (h : ofConfig config cpuConfig log = .ok c) : c.LaidOut := by
  simp only [ofConfig, Cpu.withConfig, bind, Except.bind] at h
  cases hv : cpuConfig.validated with
  | error => simp [hv] at h
  | ok cpuConfig' =>
    rw [hv] at h
    cases h
    rfl

variable [Peripheral P]

theorem LaidOut.perform (h : c.LaidOut) (command : Command P)
    (hkeeps : ∀ op blind, command = .host op blind → op.KeepsLayout) : (c.perform command).2.LaidOut := by
  have hlayout : (c.perform command).2.cpu.bus.memory.layout = c.cpu.bus.memory.layout := by
    cases command with
    | frame =>
      obtain ⟨_, -, heard⟩ := c.runFrame_heard
      obtain ⟨-, -, halike⟩ := heard P c (.refl c)
      rw [Computer.perform, show c.runFrame.2.cpu.bus = c.blanked.bus from congrArg Machine.bus halike.machine.symm,
        blanked_bus]
      exact c.cpu.runChunked_layout _ _ _ _
    | run cycles => exact c.cpu.runChunked_layout _ _ (fun _ s => s) ()
    | step => exact (c.cpu.stepped _).layout
    | host op blind => exact (congrArg (·.memory.layout) (op.apply_bus c.cpu)).trans (hkeeps op blind rfl _)
    | setInterruptEnabled on => rfl
    | editRegs f => rfl
    | load image => rfl
    | attach p => rfl
    | reset => exact congrArg (·.memory.layout) c.reset_bus
  have hconfig : (c.perform command).2.config = c.config := by
    cases command <;> rfl
  rw [LaidOut, hlayout, hconfig]
  exact h

end

/-- What hosts have set up alike: the configuration, what is in memory, and what can be read from ports. -/
structure SetUpAlike (c d : Computer P) : Prop where
  config : d.config = c.config
  chunkCycles : d.chunkCycles = c.chunkCycles
  cpuChunkCycles : d.cpu.chunkCycles = c.cpu.chunkCycles
  mode : d.cpu.clock.mode = c.cpu.clock.mode
  idle : d.cpu.idle.config = c.cpu.idle.config
  vectorByte : d.cpu.vectorByte = c.cpu.vectorByte
  memory : ∀ addr, d.cpu.bus.memory.peek addr = c.cpu.bus.memory.peek addr
  inputs : d.cpu.bus.ports.inputs = c.cpu.bus.ports.inputs

/-- Machines that no one can tell apart by what a program does on them. -/
structure Twins (c d : Computer P) : Prop where
  cpu : Cpu.Twins Board.Same c.cpu d.cpu
  config : d.config = c.config
  chunkCycles : d.chunkCycles = c.chunkCycles
  frames : d.frames = c.frames

lemma reset_cpu (c : Computer P) :
    c.reset.cpu.machine = {
      core := { regs := { ({} : Registers) with pc := c.config.loadAddress } }
      bus := c.cpu.bus.mapPorts Ports.reset
      lifecycle := .running
      pending := none
      vectorByte := c.cpu.vectorByte
      total := 0
      clock := c.cpu.clock } ∧
      c.reset.cpu.idle = c.cpu.idle.forget ∧ c.reset.cpu.chunkCycles = c.cpu.chunkCycles := by
  obtain ⟨⟨_, _, lifecycle, _, _, _, _, _, _, _, _⟩, _, _, _, _⟩ := c
  cases lifecycle <;> exact ⟨rfl, rfl, rfl⟩

section

variable {c d : Computer P}

lemma reset_twins (hbus : (c.cpu.bus.mapPorts Ports.reset).Same (d.cpu.bus.mapPorts Ports.reset))
    (hconfig : d.config = c.config) (hchunk : d.chunkCycles = c.chunkCycles)
    (hchunk' : d.cpu.chunkCycles = c.cpu.chunkCycles) (hmode : d.cpu.clock.mode = c.cpu.clock.mode)
    (hidle : d.cpu.idle.config = c.cpu.idle.config) (hvector : d.cpu.vectorByte = c.cpu.vectorByte) :
    Twins c.reset d.reset := by
  obtain ⟨hc, hci, hcc⟩ := c.reset_cpu
  obtain ⟨hd, hdi, hdc⟩ := d.reset_cpu
  refine ⟨⟨?_, ?_, by rw [hcc, hdc, hchunk']⟩, hconfig, hchunk, rfl⟩
  · rw [hc, hd, hconfig]
    exact ⟨rfl, hbus, rfl, rfl, hvector, rfl, hmode⟩
  · rw [hci, hdi]
    simp only [Idle.Detector.uncounted, Idle.Detector.forget, hidle]

theorem SetUpAlike.reset (h : SetUpAlike c d) (hc : c.LaidOut) (hd : d.LaidOut) : Twins c.reset d.reset := by
  refine reset_twins ?_ h.config h.chunkCycles h.cpuChunkCycles h.mode h.idle h.vectorByte
  have hlayout : d.cpu.bus.memory.layout = c.cpu.bus.memory.layout := by
    rw [LaidOut] at hc hd
    rw [hc, hd, h.config]
  have hram : d.cpu.bus.memory.ram = c.cpu.bus.memory.ram := Ram.ext h.memory
  have hinputs := h.inputs
  generalize c.cpu.bus = b at hlayout hram hinputs ⊢
  generalize d.cpu.bus = b' at hlayout hram hinputs ⊢
  obtain ⟨⟨ram, romSize, first, past, n⟩, ⟨inputs, outputs, writes⟩⟩ := b
  obtain ⟨⟨ram', romSize', first', past', n'⟩, ⟨inputs', outputs', writes'⟩⟩ := b'
  cases hlayout
  cases hram
  cases hinputs
  exact ⟨n', rfl⟩

namespace Twins

lemma onCpu (h : Twins c d) {x y : Nat × Cpu Board} (hx : y.1 = x.1 ∧ Cpu.Twins Board.Same x.2 y.2) :
    (d.onCpu y).1 = (c.onCpu x).1 ∧ Twins (c.onCpu x).2 (d.onCpu y).2 :=
  ⟨hx.1, hx.2, h.config, h.chunkCycles, h.frames⟩

protected lemma reset (h : Twins c d) : Twins c.reset d.reset := by
  refine reset_twins ?_ h.config h.chunkCycles h.cpu.chunkCycles h.cpu.machine.mode (congrArg (·.config) h.cpu.idle)
    h.cpu.machine.vectorByte
  obtain ⟨n, hn⟩ := h.cpu.bus
  exact ⟨n, by rw [hn]; rfl⟩

variable [Peripheral P]

lemma runFrame (h : Twins c d) : d.runFrame.1 = c.runFrame.1 ∧ Twins c.runFrame.2 d.runFrame.2 ∧
    ∃ amounts : List Nat,
      c.runFrame.2.peripherals = c.peripherals.map (fun p => amounts.foldl Peripheral.update p) ∧
      d.runFrame.2.peripherals = d.peripherals.map (fun p => amounts.foldl Peripheral.update p) := by
  have hcycles : d.cyclesPerFrame = c.cyclesPerFrame := by
    have hmode : d.cpu.clock.mode = c.cpu.clock.mode := h.cpu.machine.mode
    simp only [cyclesPerFrame, Clock.cyclesPerFrame, Clock.hertz, hmode, h.config]
  obtain ⟨amounts, e, e', he, hrun⟩ := h.cpu.runChunks Board.same_twins c.cyclesPerFrame (max c.chunkCycles 1) 0
  obtain ⟨hc, -⟩ := hrun (List P) (fun ran ps => ps.map (Peripheral.update · ran)) c.peripherals
  obtain ⟨-, hd⟩ := hrun (List P) (fun ran ps => ps.map (Peripheral.update · ran)) d.peripherals
  rw [runFrame_eq, runFrame_eq, hcycles, h.chunkCycles, h.config, h.frames, hc, hd]
  refine ⟨rfl, ⟨?_, rfl, rfl, rfl⟩, amounts, foldl_map_update _ _, foldl_map_update _ _⟩
  have hblank : Cpu.Twins Board.Same (if c.config.vblankInterrupt then e.requestInterrupt .maskable else e)
      (if c.config.vblankInterrupt then e'.requestInterrupt .maskable else e') := by
    split
    · exact HostOp.apply_twins (.requestInterrupt .maskable) (fun _ _ hb => hb) he
    · exact he
  exact hblank.note _ _

theorem perform (h : Twins c d) (command : Command P) :
    (d.perform command).1 = (c.perform command).1 ∧ Twins (c.perform command).2 (d.perform command).2 ∧
      ∃ amounts : List Nat, (c.perform command).2.peripherals = heard c.peripherals (command, amounts) ∧
        (d.perform command).2.peripherals = heard d.peripherals (command, amounts) := by
  have hquiet {command : Command P} {x y : Nat × Computer P} (hx : y.1 = x.1 ∧ Twins x.2 y.2)
      (hc : x.2.peripherals = heard c.peripherals (command, []))
      (hd : y.2.peripherals = heard d.peripherals (command, [])) :
      y.1 = x.1 ∧ Twins x.2 y.2 ∧ ∃ amounts : List Nat,
        x.2.peripherals = heard c.peripherals (command, amounts) ∧
          y.2.peripherals = heard d.peripherals (command, amounts) :=
    ⟨hx.1, hx.2, [], hc, hd⟩
  have hsame (ps : List P) : ps = ps.map fun p => p := (List.map_id' ps).symm
  cases command with
  | frame => exact h.runFrame
  | run cycles => exact hquiet (h.onCpu (h.cpu.run Board.same_twins cycles)) (hsame _) (hsame _)
  | step => exact hquiet (h.onCpu (h.cpu.step Board.same_twins _)) (hsame _) (hsame _)
  | host op blind => exact hquiet (h.onCpu ⟨rfl, op.apply_twins blind h.cpu⟩) (hsame _) (hsame _)
  | setInterruptEnabled on => exact hquiet (h.onCpu ⟨rfl, h.cpu.editRegs (·.setInterrupts on)⟩) (hsame _) (hsame _)
  | editRegs f => exact hquiet (h.onCpu ⟨rfl, h.cpu.editRegs f⟩) (hsame _) (hsame _)
  | load image =>
    have hloaded : Cpu.Twins Board.Same (c.cpu.editMemory (Board.mapMemory (·.load image)))
        (d.cpu.editMemory (Board.mapMemory (·.load image))) :=
      HostOp.apply_twins (.editMemory (Board.mapMemory (·.load image))) 
        (HostOp.blind_mapMemory fun _ n => ⟨n, rfl⟩) h.cpu
    have hcpu := (hloaded.note image.stored image.stored).editRegs fun regs => { regs with pc := image.address }
    exact hquiet ⟨rfl, hcpu, h.config, h.chunkCycles, h.frames⟩ (hsame _) (hsame _)
  | attach p =>
    exact ⟨rfl, ⟨h.cpu.note _ _, h.config, h.chunkCycles, h.frames⟩, [], rfl, rfl⟩
  | reset => exact hquiet ⟨rfl, h.reset⟩ (hsame _) (hsame _)

theorem performAll (h : Twins c d) (commands : List (Command P)) :
    (d.performAll commands).1 = (c.performAll commands).1 ∧
      Twins (c.performAll commands).2 (d.performAll commands).2 ∧
      ∃ amounts : List (List Nat), amounts.length = commands.length ∧
        (c.performAll commands).2.peripherals = (commands.zip amounts).foldl heard c.peripherals ∧
        (d.performAll commands).2.peripherals = (commands.zip amounts).foldl heard d.peripherals := by
  induction commands generalizing c d with
  | nil => exact ⟨rfl, h, [], rfl, rfl, rfl⟩
  | cons command commands ih =>
    obtain ⟨hcycles, hnext, amounts, hc, hd⟩ := h.perform command
    obtain ⟨hrest, htwins, later, hlength, hc', hd'⟩ := ih hnext
    refine ⟨congrArg₂ List.cons hcycles hrest, htwins, amounts :: later, congrArg (· + 1) hlength, ?_, ?_⟩
    · rw [List.zip_cons_cons, List.foldl_cons, ← hc]
      exact hc'
    · rw [List.zip_cons_cons, List.foldl_cons, ← hd]
      exact hd'

end Twins

/-- After a reset, machines that are set up alike do the same for the same commands, wherever they have been. -/
theorem reset_forgets [Peripheral P] (hc : c.LaidOut) (hd : d.LaidOut) (h : SetUpAlike c d)
    (commands : List (Command P)) :
    let x := c.reset.performAll commands
    let y := d.reset.performAll commands
    y.1 = x.1 ∧ y.2.cpu.regs = x.2.cpu.regs ∧ y.2.cpu.isHalted = x.2.cpu.isHalted ∧
      (∀ addr, y.2.cpu.bus.memory.peek addr = x.2.cpu.bus.memory.peek addr) ∧
      (∀ port, y.2.cpu.bus.ports.output port = x.2.cpu.bus.ports.output port) ∧
      y.2.cpu.total = x.2.cpu.total ∧ y.2.frames = x.2.frames ∧
      ∃ amounts : List (List Nat), amounts.length = commands.length ∧
        x.2.peripherals = (commands.zip amounts).foldl heard c.peripherals ∧
        y.2.peripherals = (commands.zip amounts).foldl heard d.peripherals := by
  intro x y
  obtain ⟨hcycles, htwins, hheard⟩ := (h.reset hc hd).performAll commands
  obtain ⟨n, hbus⟩ := htwins.cpu.bus
  have hmemory (addr : UInt16) : y.2.cpu.bus.memory.peek addr = x.2.cpu.bus.memory.peek addr := by
    rw [show y.2.cpu.bus = _ from hbus]
    rfl
  have hports (port : UInt8) : y.2.cpu.bus.ports.output port = x.2.cpu.bus.ports.output port := by
    rw [show y.2.cpu.bus = _ from hbus]
    rfl
  exact ⟨hcycles, htwins.cpu.regs, congrArg Core.halted htwins.cpu.core, hmemory, hports, htwins.cpu.machine.total,
    htwins.frames, hheard⟩

theorem reset_forgets_halted :
    let memory := (Memory.ofLayout 0 0xC000 0xE000).value.poke 1 0xC3
    let c : Computer Meter := { cpu := { bus := { memory } }, peripherals := [{ name := "" }] }
    let cpu := ((c.cpu.halt.requestInterrupt .nonMaskable).setRegs { a := 7, r := 0x81 }).editPorts
      (Board.mapPorts (·.write 3 9))
    let d : Computer Meter := { c with cpu, peripherals := [], frames := 5 }
    d.cpu.isHalted = true ∧ d.cpu.bus.ports.output 3 = 9 ∧
      (d.reset.performAll [.frame, .frame]).1 = (c.reset.performAll [.frame, .frame]).1 ∧
      (d.reset.performAll [.frame, .frame]).2.cpu.regs = (c.reset.performAll [.frame, .frame]).2.cpu.regs := by
  intro memory c cpu d
  have h : SetUpAlike c d := ⟨rfl, rfl, rfl, rfl, rfl, rfl, fun _ => rfl, rfl⟩
  obtain ⟨hcycles, hregs, -⟩ := reset_forgets (c := c) (d := d) rfl rfl h [.frame, .frame]
  exact ⟨rfl, by decide +kernel, hcycles, hregs⟩

end

end Computer

end Z80Machine
