import Z80Machine.Proofs.Detector

/-! What the host may do to a processor between its steps. Nothing of it can make the detector wrong. -/

namespace Z80Machine

open Idle

/-- Every operation of the host but to let the processor run, to set its registers, and to enable interrupts. -/
inductive HostOp (B : Type) where
  | setUp
  | start
  | pause
  | resume
  | stop
  | reset
  | requestInterrupt (kind : Interrupt)
  | setVectorByte (byte : UInt8)
  | halt
  | setClockMode (mode : ClockMode)
  | setSpeedMultiplier (x : Float)
  | setIdleDetection (on : Bool)
  | setIdleThreshold (n : Nat)
  | setIdleSleep (micros : Nat)
  | setTrace (on : Bool) (maxEntries : Nat)
  | editMemory (f : B → B)
  | editPorts (f : B → B)

namespace HostOp

variable {B : Type}

def apply (c : Cpu B) : HostOp B → Cpu B
  | setUp => c.setUp
  | start => c.start
  | pause => c.pause
  | resume => c.resume
  | stop => c.stop
  | reset => c.reset
  | requestInterrupt kind => c.requestInterrupt kind
  | setVectorByte byte => c.setVectorByte byte
  | halt => c.halt
  | setClockMode mode => c.setClockMode mode
  | setSpeedMultiplier x =>
    match c.setSpeedMultiplier x with
    | .ok c => c
    | .error _ => c
  | setIdleDetection on => c.setIdleDetection on
  | setIdleThreshold n => c.setIdleThreshold n
  | setIdleSleep micros => c.setIdleSleep micros
  | setTrace on maxEntries => c.setTrace on maxEntries
  | editMemory f => c.editMemory f
  | editPorts f => c.editPorts f

lemma apply_cpu (c : Cpu B) (op : HostOp B) : (op.apply c.machine.cpu).machine = (op.apply c).machine := by
  obtain ⟨_, _, lifecycle, pending, _, _, clock, _, _, _, _⟩ := c
  cases op
  case start => cases lifecycle <;> rfl
  case pause => cases lifecycle <;> rfl
  case resume => cases lifecycle <;> rfl
  case stop => cases lifecycle <;> rfl
  case reset => cases lifecycle <;> rfl
  case requestInterrupt kind => rcases pending with _ | ⟨_ | _⟩ <;> cases kind <;> rfl
  case setClockMode mode =>
    simp only [apply, Cpu.setClockMode, Clock.setMode, Machine.cpu, Cpu.machine]
    cases clock.mode != mode <;> rfl
  case setSpeedMultiplier x =>
    simp only [apply, Cpu.setSpeedMultiplier, Machine.cpu, Cpu.machine]
    cases clock.setMultiplier x <;> rfl
  all_goals rfl

theorem apply_machine {c d : Cpu B} (op : HostOp B) (h : c.machine = d.machine) :
    (op.apply c).machine = (op.apply d).machine := by
  rw [← op.apply_cpu c, ← op.apply_cpu d, h]

def onBus : HostOp B → B → B
  | editMemory f | editPorts f => f
  | _ => id

lemma apply_bus (c : Cpu B) (op : HostOp B) : (op.apply c).bus = op.onBus c.bus := by
  obtain ⟨_, _, lifecycle, _, _, _, clock, _, _, _, _⟩ := c
  cases op
  case start => cases lifecycle <;> rfl
  case pause => cases lifecycle <;> rfl
  case resume => cases lifecycle <;> rfl
  case stop => cases lifecycle <;> rfl
  case reset => cases lifecycle <;> rfl
  case requestInterrupt kind => exact congrArg Machine.bus (Cpu.machine_requestInterrupt _ kind)
  case setClockMode mode =>
    simp only [apply, Cpu.setClockMode, Clock.setMode]
    cases clock.mode != mode <;> rfl
  case setSpeedMultiplier x =>
    simp only [apply, Cpu.setSpeedMultiplier]
    cases clock.setMultiplier x <;> rfl
  all_goals rfl

structure Kept (c d : Cpu B) : Prop where
  core : d.core = c.core
  bus : d.bus = c.bus
  mode : d.clock.mode = c.clock.mode
  history : d.idle.history = c.idle.history
  active : d.idle.active = c.idle.active
  enabled : d.idle.config.enabled = false → c.idle.config.enabled = false

lemma Kept.refl (c : Cpu B) : Kept c c :=
  ⟨rfl, rfl, rfl, rfl, rfl, id⟩

theorem kept_or_empty (c : Cpu B) (op : HostOp B) : Kept c (op.apply c) ∨ (op.apply c).idle.Empty := by
  cases op
  case start =>
    simp only [apply, Cpu.start]
    split
    · exact .inr ⟨rfl, rfl⟩
    · exact .inl ⟨rfl, rfl, rfl, rfl, rfl, id⟩
  case pause =>
    simp only [apply, Cpu.pause]
    split
    · exact .inl ⟨rfl, rfl, rfl, rfl, rfl, id⟩
    · exact .inl (.refl c)
  case resume =>
    simp only [apply, Cpu.resume]
    split
    · exact .inl ⟨rfl, rfl, rfl, rfl, rfl, id⟩
    · exact .inl (.refl c)
  case stop =>
    simp only [apply, Cpu.stop]
    split
    · exact .inl (.refl c)
    · exact .inl ⟨rfl, rfl, rfl, rfl, rfl, id⟩
  case reset =>
    simp only [apply, Cpu.reset, Cpu.stop]
    split <;> exact .inr ⟨rfl, rfl⟩
  case setClockMode mode =>
    simp only [apply, Cpu.setClockMode, Clock.setMode]
    cases c.clock.mode != mode with
    | false => exact .inl (.refl c)
    | true => exact .inr ⟨rfl, rfl⟩
  case setSpeedMultiplier x =>
    simp only [apply, Cpu.setSpeedMultiplier, Clock.setMultiplier]
    split
    case h_1 c' hc =>
      split at hc <;> cases hc
      exact .inl ⟨rfl, rfl, rfl, rfl, rfl, id⟩
    case h_2 => exact .inl (.refl c)
  case setIdleDetection on =>
    cases on with
    | false => exact .inr ⟨rfl, rfl⟩
    | true => exact .inl ⟨rfl, rfl, rfl, rfl, rfl, fun h => Bool.noConfusion h⟩
  case setVectorByte byte => exact .inl ⟨rfl, rfl, rfl, rfl, rfl, id⟩
  case setIdleSleep micros => exact .inl ⟨rfl, rfl, rfl, rfl, rfl, id⟩
  case setTrace on maxEntries => exact .inl ⟨rfl, rfl, rfl, rfl, rfl, id⟩
  all_goals exact .inr ⟨rfl, rfl⟩

lemma apply_iff2 (c : Cpu B) (op : HostOp B) : (op.apply c).regs.iff2 = c.regs.iff2 ∨ (op.apply c).idle.Empty :=
  (op.kept_or_empty c).imp_left fun h => congrArg (·.regs.iff2) h.core

variable [Bus B] {q : Bool}

theorem apply_sound {c : Cpu B} (op : HostOp B) (h : Detector.Sound q c.machine c.idle) :
    Detector.Sound q (op.apply c).machine (op.apply c).idle := by
  rcases op.kept_or_empty c with hk | hempty
  · refine h.congr hk.core hk.bus hk.mode hk.history hk.active fun he => ?_
    rw [Detector.Empty, hk.history, hk.active]
    exact h.off (hk.enabled he)
  · exact hempty.sound

end HostOp

theorem Cpu.Sound.apply {B : Type} [Bus B] {c : Cpu B} (h : c.Sound) (op : HostOp B) : (op.apply c).Sound :=
  (op.apply_sound h).settle (op.apply_iff2 c)

end Z80Machine
