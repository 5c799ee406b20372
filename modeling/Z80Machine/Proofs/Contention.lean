import Z80Machine.Board
import Z80Machine.Proofs.Timing

/-! The clock changes how long things take and nothing else. The same steps on the faster crystal leave everything as
on the slower one, but for the wait states of the accesses that instructions make. -/

namespace Z80Machine

namespace Access

variable {B : Type} [Bus B]

def atVideo (bus : B) : Access → Bool
  | read addr _ | write addr _ => Bus.deviceClass bus addr = .video
  | input _ _ | output _ _ => false

end Access

namespace Dialogue

variable {α β B : Type} [Bus B]

/-- The accesses that a dialogue makes, in order, each with the bus as it meets it. -/
def meetings : Dialogue α → B → List (B × Access)
  | done _, _ => []
  | read addr next, bus => (bus, .read addr (Bus.read bus addr).1) ::
      (next (Bus.read bus addr).1).meetings (Bus.read bus addr).2
  | write addr byte next, bus => (bus, .write addr byte) :: next.meetings (Bus.write bus addr byte)
  | input port next, bus => (bus, .input port (Bus.input bus port).1) ::
      (next (Bus.input bus port).1).meetings (Bus.input bus port).2
  | output port byte next, bus => (bus, .output port byte) :: next.meetings (Bus.output bus port byte)
  | note _ next, bus => next.meetings bus

lemma map_snd_meetings (d : Dialogue α) (bus : B) : (d.meetings bus).map Prod.snd = d.accesses bus := by
  induction d generalizing bus with
  | done => rfl
  | read addr next ih => simp only [meetings, accesses, List.map_cons, ih]
  | write addr byte next ih => simp only [meetings, accesses, List.map_cons, ih]
  | input port next ih => simp only [meetings, accesses, List.map_cons, ih]
  | output port byte next ih => simp only [meetings, accesses, List.map_cons, ih]
  | note event next ih => exact ih _

lemma meetings_bind (d : Dialogue α) (f : α → Dialogue β) (bus : B) (log : Log) (traffic : Traffic) :
    (d.bind f).meetings bus =
      d.meetings bus ++ (f (d.run bus log traffic).result).meetings (d.run bus log traffic).bus := by
  induction d generalizing bus log traffic with
  | done => rfl
  | read addr next ih => simp only [bind, meetings, run, List.cons_append, ← ih]
  | write addr byte next ih => simp only [bind, meetings, run, List.cons_append, ← ih]
  | input port next ih => simp only [bind, meetings, run, List.cons_append, ← ih]
  | output port byte next ih => simp only [bind, meetings, run, List.cons_append, ← ih]
  | note event next ih => simp only [bind, meetings, run, ← ih]

lemma silent_meetings (d : Dialogue α) (bus : B) : d.silent.meetings bus = d.meetings bus := by
  induction d generalizing bus with
  | done => rfl
  | read addr next ih => simp only [silent, meetings, ih]
  | write addr byte next ih => simp only [silent, meetings, ih]
  | input port next ih => simp only [silent, meetings, ih]
  | output port byte next ih => simp only [silent, meetings, ih]
  | note event next ih => exact ih _

lemma run_traffic_video (d : Dialogue α) (bus : B) (log : Log) (traffic : Traffic) :
    (d.run bus log traffic).traffic.video = traffic.video + (d.meetings bus).countP fun m => m.2.atVideo m.1 := by
  have atAddress (t : Traffic) (bus : B) (addr : UInt16) (n : Nat) : (t.atAddress bus addr).video + n =
      t.video + (n + if decide (Bus.deviceClass bus addr = .video) = true then 1 else 0) := by
    by_cases h : Bus.deviceClass bus addr = .video <;> simp [Traffic.atAddress, h, Nat.add_assoc, Nat.add_comm 1]
  induction d generalizing bus log traffic with
  | done => rfl
  | read addr next ih => simp only [run, meetings, ih, List.countP_cons, Access.atVideo, atAddress]
  | write addr byte next ih => simp only [run, meetings, ih, List.countP_cons, Access.atVideo, atAddress]
  | input port next ih => simp [run, meetings, ih, Access.atVideo]
  | output port byte next ih => simp [run, meetings, ih, Access.atVideo]
  | note event next ih => exact ih _ _ _

end Dialogue

def waits {B : Type} [Bus B] (made : List (B × Access)) : Nat :=
  made.countP (fun m => m.2.atVideo m.1) + 2 * made.countP (fun m => m.2.isPort)

lemma waits_append {B : Type} [Bus B] (made more : List (B × Access)) :
    waits (made ++ more) = waits made + waits more := by
  simp only [waits, List.countP_append]
  omega

lemma ClockMode.contention_high (video ports : Nat) : high.contention video ports = video + 2 * ports := by
  simp [contention, waitStates, accessQuarters, accessTime]

namespace Core

variable {B : Type} [Bus B]

lemma cycle_meetings (c : Core) (trace : Trace) (bus : B) :
    (c.cycle trace).meetings bus = c.untraced.meetings bus := by
  have h := congrArg (·.meetings bus) (c.cycle_silent trace)
  simpa only [Dialogue.silent_meetings, Dialogue.meetings_bind _ _ bus {} {}, Dialogue.meetings, List.append_nil]
    using h

lemma contention_untraced (c : Core) (bus : B) :
    let t := c.untraced.run bus {} {}
    ClockMode.high.contention t.traffic.video t.traffic.ports = waits (c.untraced.meetings bus) := by
  have hp : (c.untraced.meetings bus).countP (fun m => m.2.isPort) =
      (c.untraced.accesses bus).countP Access.isPort := by
    rw [← Dialogue.map_snd_meetings, List.countP_map]
    rfl
  simp only [ClockMode.contention_high, Dialogue.run_traffic_video, Dialogue.run_traffic_ports, waits, hp, Nat.zero_add]

theorem outcome_high (c : Core) (bus : B) : c.outcome .high bus = { c.outcome .standard bus with
    cycles := (c.outcome .standard bus).cycles + waits (c.untraced.meetings bus) } := by
  simp only [outcome, ClockMode.contention_standard, Nat.add_zero, c.contention_untraced]

end Core

structure Idle.Detector.Off (d : Detector) : Prop where
  enabled : d.config.enabled = false
  active : d.active = none

namespace Idle.Detector.Off

variable {d : Detector}

lemma forget (h : d.Off) : d.forget.Off :=
  ⟨h.enabled, rfl⟩

lemma observe (h : d.Off) (step : Step) (safe : Bool) (after : Registers) : (d.observe step safe after).value.Off := by
  simpa [Detector.observe, h.enabled] using h

end Idle.Detector.Off

inductive Stimulus where
  | request (kind : Interrupt)
  | vectorByte (byte : UInt8)
  | step
  deriving DecidableEq, Repr

namespace Cpu

variable {B : Type} [Bus B]

def drive (c : Cpu B) : Stimulus → Nat × Cpu B
  | .request kind => (0, c.requestInterrupt kind)
  | .vectorByte byte => (0, c.setVectorByte byte)
  | .step => c.step unbounded

def driveAll (c : Cpu B) : List Stimulus → Nat × Cpu B
  | [] => (0, c)
  | s :: stimuli =>
    let (cycles, c) := c.drive s
    let (rest, c) := c.driveAll stimuli
    (cycles + rest, c)

def meetings (c : Cpu B) : Stimulus → List (B × Access)
  | .step => if c.stepKind unbounded = .instruction then (c.core.cycle c.trace).meetings c.bus else []
  | _ => []

def meetingsAll (c : Cpu B) : List Stimulus → List (B × Access)
  | [] => []
  | s :: stimuli => c.meetings s ++ (c.drive s).2.meetingsAll stimuli

end Cpu

def Machine.late {B : Type} (m : Machine B) (w : Nat) : Machine B :=
  { m with clock := { m.clock with mode := .high }, total := m.total + UInt64.ofNat w }

namespace Cpu

variable {B : Type}

lemma machine_setClockMode (c : Cpu B) (mode : ClockMode) : (c.setClockMode mode).machine =
    { c.machine with clock := { c.clock with mode } } := by
  obtain ⟨_, _, _, _, _, _, ⟨old, _⟩, _, _, _, _⟩ := c
  cases old <;> cases mode <;> rfl

lemma off_setClockMode {c : Cpu B} (h : c.idle.Off) (mode : ClockMode) : (c.setClockMode mode).idle.Off := by
  unfold setClockMode
  split
  · exact h
  · exact h.forget

structure Lags (w : Nat) (c d : Cpu B) : Prop where
  machine : c.machine = d.machine.late w
  standard : d.clock.mode = .standard
  off : c.idle.Off
  off' : d.idle.Off

namespace Lags

variable {w : Nat} {c d : Cpu B}

lemma core (h : Lags w c d) : c.core = d.core :=
  congrArg Machine.core h.machine

lemma bus (h : Lags w c d) : c.bus = d.bus :=
  congrArg Machine.bus h.machine

lemma lifecycle (h : Lags w c d) : c.lifecycle = d.lifecycle :=
  congrArg Machine.lifecycle h.machine

lemma pending (h : Lags w c d) : c.pending = d.pending :=
  congrArg Machine.pending h.machine

lemma vectorByte (h : Lags w c d) : c.vectorByte = d.vectorByte :=
  congrArg Machine.vectorByte h.machine

lemma mode (h : Lags w c d) : c.clock.mode = .high :=
  congrArg (·.clock.mode) h.machine

lemma total (h : Lags w c d) : c.total = d.total + UInt64.ofNat w :=
  congrArg Machine.total h.machine

lemma after (h : Lags w c d) (core : Core) (bus : B) (cycles extra : Nat) :
    c.after core bus (cycles + extra) = (d.after core bus cycles).late (w + extra) := by
  have htotal : d.total + UInt64.ofNat w + UInt64.ofNat (cycles + extra) =
      d.total + UInt64.ofNat cycles + UInt64.ofNat (w + extra) := by
    simp only [UInt64.ofNat_add]
    ac_rfl
  simp only [Cpu.after, Machine.late, h.machine, h.lifecycle, h.total, htotal]

lemma response (h : Lags w c d) (kind : Interrupt) : c.response kind = d.response kind :=
  response_congr h.core h.vectorByte kind

lemma stepKind (h : Lags w c d) : c.stepKind unbounded = d.stepKind unbounded := by
  refine stepKind_congr h.core h.lifecycle h.pending ?_
  simp only [skippable?, h.off.active, h.off'.active, Option.filter_none]

variable [Bus B]

lemma outcome (h : Lags w c d) : c.outcome = { d.outcome with
    cycles := d.outcome.cycles + waits (d.core.untraced.meetings d.bus) } := by
  simp only [Cpu.outcome, h.mode, h.standard, h.core, h.bus, Core.outcome_high]

variable {k : StepKind} {t t' : Nat} {m m' : Machine B} {i i' : Idle.Detector}

lemma stepped (h : Lags w c d) (hc : c.Stepped unbounded k t m i) (hd : d.Stepped unbounded k t' m' i') :
    let extra := if k = .instruction then waits (d.core.untraced.meetings d.bus) else 0
    t = t' + extra ∧ m = m'.late (w + extra) ∧ m'.clock.mode = .standard ∧ i.Off ∧ i'.Off := by
  have hregs : c.regs = d.regs := congrArg Core.regs h.core
  cases hc with
  | paused =>
    cases hd
    exact ⟨rfl, h.machine, h.standard, h.off, h.off'⟩
  | response _ _ ht =>
    obtain ⟨-, rfl, rfl, rfl⟩ := hd.of_response
    rw [h.response, h.bus] at ht
    subst ht
    -- a response is never metered, so the lag stays as it is
    simp only [reduceCtorEq, if_false, h.core]
    refine ⟨rfl, ?_, h.standard, h.off.forget, h.off'.forget⟩
    exact congrArg (fun m : Machine B => { m with pending := none }) (h.after _ _ _ 0)
  | halted =>
    cases hd
    simp only [reduceCtorEq, if_false, h.core, h.bus, hregs]
    exact ⟨rfl, h.after _ _ _ 0, h.standard, h.off, h.off'⟩
  | skipped _ _ _ hs => simp [skippable?, h.off.active] at hs
  | instruction =>
    obtain ⟨rfl, rfl, rfl⟩ := hd.of_instruction
    simp only [if_true, h.outcome]
    exact ⟨trivial, h.after _ _ _ _, h.standard, h.off.observe _ _ _, h.off'.observe _ _ _⟩

lemma meetings (h : Lags w c d) (s : Stimulus) : c.meetings s = d.meetings s := by
  cases s <;> simp only [Cpu.meetings, h.stepKind, h.core, h.bus, Core.cycle_meetings]

omit [Bus B] in
lemma requestInterrupt (h : Lags w c d) (kind : Interrupt) :
    Lags w (c.requestInterrupt kind) (d.requestInterrupt kind) := by
  refine ⟨?_, ?_, ?_, ?_⟩
  · rw [machine_requestInterrupt, machine_requestInterrupt, h.machine, h.pending]
    rfl
  · exact (congrArg (·.clock.mode) (d.machine_requestInterrupt kind)).trans h.standard
  · rw [idle_requestInterrupt]
    exact h.off.forget
  · rw [idle_requestInterrupt]
    exact h.off'.forget

theorem drive (h : Lags w c d) (s : Stimulus) :
    (c.drive s).1 = (d.drive s).1 + waits (d.meetings s) ∧
      Lags (w + waits (d.meetings s)) (c.drive s).2 (d.drive s).2 := by
  cases s with
  | request kind => exact ⟨rfl, h.requestInterrupt kind⟩
  | vectorByte byte =>
    exact ⟨rfl, congrArg (fun m : Machine B => { m with vectorByte := byte }) h.machine, h.standard, h.off, h.off'⟩
  | step =>
    have hc := c.stepped unbounded
    rw [h.stepKind] at hc
    obtain ⟨ht, hm, hmode, hoff, hoff'⟩ := h.stepped hc (d.stepped unbounded)
    have hmade : waits (d.meetings .step) =
        if d.stepKind unbounded = .instruction then waits (d.core.untraced.meetings d.bus) else 0 := by
      simp only [Cpu.meetings, Core.cycle_meetings]
      split <;> rfl
    rw [hmade]
    exact ⟨ht, hm, hmode, hoff, hoff'⟩

theorem driveAll (h : Lags w c d) (stimuli : List Stimulus) :
    c.meetingsAll stimuli = d.meetingsAll stimuli ∧
      (c.driveAll stimuli).1 = (d.driveAll stimuli).1 + waits (d.meetingsAll stimuli) ∧
      Lags (w + waits (d.meetingsAll stimuli)) (c.driveAll stimuli).2 (d.driveAll stimuli).2 := by
  -- both stay one lag apart, and the rest starts from a lag that the first stimulus has made longer
  induction stimuli generalizing w c d with
  | nil => exact ⟨rfl, rfl, h⟩
  | cons s stimuli ih =>
    obtain ⟨htime, hlags⟩ := h.drive s
    obtain ⟨hmade, hrest, hlags'⟩ := ih hlags
    simp only [Cpu.meetingsAll, Cpu.driveAll, h.meetings, hmade, waits_append]
    refine ⟨trivial, by omega, ?_⟩
    rwa [← Nat.add_assoc]

end Lags

lemma lags_setClockMode (c : Cpu B) (h : c.idle.Off) : Lags 0 (c.setClockMode .high) (c.setClockMode .standard) := by
  refine ⟨?_, congrArg (·.clock.mode) (c.machine_setClockMode .standard), off_setClockMode h _, off_setClockMode h _⟩
  rw [machine_setClockMode, machine_setClockMode, Machine.late]
  simp [machine]

/-- The clock changes how long things take and nothing else. From any state in which the detector is off, through any
steps and any requests between them, the faster crystal leaves the machine that the slower one leaves, later by one
T-state for each access of an instruction to video memory and by two for each one to a port. -/
theorem clock_delays [Bus B] (c : Cpu B) (he : c.idle.config.enabled = false) (ha : c.idle.active = none)
    (stimuli : List Stimulus) :
    let high := (c.setClockMode .high).driveAll stimuli
    let standard := (c.setClockMode .standard).driveAll stimuli
    let made := (c.setClockMode .standard).meetingsAll stimuli
    let delay := made.countP (fun m => m.2.atVideo m.1) + 2 * made.countP (fun m => m.2.isPort)
    high.2.machine = { standard.2.machine with
      clock := { standard.2.clock with mode := .high }, total := standard.2.total + UInt64.ofNat delay } ∧
    high.1 = standard.1 + delay ∧
    (c.setClockMode .high).meetingsAll stimuli = made := by
  obtain ⟨hmade, htime, hlags⟩ := (c.lags_setClockMode ⟨he, ha⟩).driveAll stimuli
  rw [Nat.zero_add] at hlags
  exact ⟨hlags.machine, htime, hmade⟩

/-- `OUT` in video memory, with a non-maskable interrupt behind it. Two fetches and an output are to be paid for, the
return address on the stack is not. -/
theorem clock_delays_output :
    let memory : Memory := { ram := Ram.empty.set 0 0xD3, windowPast := 2 }
    let c : Cpu Board := Cpu.setIdleDetection { bus := { memory } } false
    let stimuli : List Stimulus := [.step, .request .nonMaskable, .step]
    c.idle.config.enabled = false ∧ c.idle.active = none ∧
      ((c.setClockMode .high).driveAll stimuli).1 = ((c.setClockMode .standard).driveAll stimuli).1 + 4 := by
  intro memory c stimuli
  have hdelay : waits ((c.setClockMode .standard).meetingsAll stimuli) = 4 := by decide +kernel
  exact ⟨rfl, rfl, (clock_delays c rfl rfl stimuli).2.1.trans (congrArg _ hdelay)⟩

end Cpu

end Z80Machine
