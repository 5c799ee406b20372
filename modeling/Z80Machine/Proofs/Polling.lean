import Z80Machine.Proofs.Accounting
import Z80Machine.Proofs.Genuine
import Z80Machine.Proofs.Stack
import Z80Machine.Proofs.Timing

/-! The detector over ports that need not answer twice alike. What it has seen of a loop that reads a port says nothing
about the next round. A loop that reads none hangs on the memory alone, and there the detector is right. -/

namespace Z80Machine

open Finset Idle Idle.Detector

namespace Access

def looks : Access → Bool
  | read _ _ => true
  | _ => false

lemma looks_of_readsFrom {addr : UInt16} {bytes : List UInt8} {a : Access} (h : a ∈ readsFrom addr bytes) :
    a.looks := by
  induction bytes generalizing addr with
  | nil => simp [readsFrom] at h
  | cons b bs ih =>
    rcases List.mem_cons.mp h with rfl | h
    · rfl
    · exact ih h

lemma looks_of_inputs {as : List Access} (h : (Tally.of as).inputs = 0) (ha : ∀ a ∈ as, a.asks) :
    ∀ a ∈ as, a.looks := by
  induction as with
  | nil => simp
  | cons a as ih =>
    obtain ⟨hasks, hrest⟩ := List.forall_mem_cons.mp ha
    have hsum : (Tally.ofAccess a).inputs + (Tally.of as).inputs = 0 := h
    have hlooks : a.looks := by
      cases a with
      | read => rfl
      | write => exact hasks
      | input => simp [Tally.ofAccess] at hsum
      | output => exact hasks
    exact List.forall_mem_cons.mpr ⟨hlooks, ih (by omega) hrest⟩

end Access

structure Bus.SameMemory {B : Type} [Bus B] (b b' : B) : Prop where
  peek : ∀ addr, Bus.peek b' addr = Bus.peek b addr
  deviceClass : ∀ addr, Bus.deviceClass b' addr = Bus.deviceClass b addr

class ApartBus (B : Type) [Bus B] : Prop where
  input : ∀ (b : B) (port : UInt8), Bus.SameMemory b (Bus.input b port).2

namespace Bus.SameMemory

variable {B : Type} [Bus B] {b b' b'' : B}

lemma refl (b : B) : SameMemory b b :=
  ⟨fun _ => rfl, fun _ => rfl⟩

lemma trans (h : SameMemory b b') (h' : SameMemory b' b'') : SameMemory b b'' :=
  ⟨fun addr => (h'.peek addr).trans (h.peek addr), fun addr => (h'.deviceClass addr).trans (h.deviceClass addr)⟩

end Bus.SameMemory

lemma Core.inputs_of_portless {B : Type} [Bus B] {c : Core} {b : B}
    (h : ∀ a ∈ c.untraced.accesses b, a.isPort = false) : (c.upcoming b).shape.inputs = 0 := by
  have hports : (Tally.of (c.untraced.accesses b)).ports = 0 := by
    rw [← Tally.countP_isPort, List.countP_eq_zero]
    simpa using h
  rw [← c.inputs_untraced b]
  exact (Nat.add_eq_zero_iff.mp hports).1

/-! A history in which ports may have had a say -/

namespace Idle.Ground

variable {B : Type} [Bus B] (g : Ground B)

def Mute (y : Registers) : Prop :=
  (g.outcome y).instruction.shape.inputs = 0

def Linked (older newer : Entry) : Prop :=
  (g.outcome (g.mask older.after)).safe = true ∧ (g.Mute (g.mask older.after) → g.Follows older newer)

structure Still (y : Registers) (loop : Loop) : Prop where
  orbit : g.Orbit y loop
  mute : ∀ i < loop.length, g.Mute (g.next^[i] y)

def Found (y : Registers) (loop : Loop) : Prop :=
  ∃ history threshold, (history.IsChain fun newer older => g.Linked older newer) ∧
    Detector.find? history threshold = some loop ∧ ∃ last ∈ history.head?, g.mask last.after = y

variable {g}

lemma mute_iff {y : Registers} : g.Mute y ↔ (Core.upcoming { regs := y } g.bus).shape.inputs = 0 := by
  rw [Mute, outcome, Core.outcome_instruction]

lemma mute_mask {c : Core} : g.Mute (g.mask c.regs) ↔ (c.upcoming g.bus).shape.inputs = 0 := by
  rw [Mute, instruction_mask, Core.outcome_instruction]

lemma Still.next {y : Registers} {loop : Loop} (h : g.Still y loop) : g.Still (g.next y) loop where
  orbit := h.orbit.next
  mute i hi := by
    rw [← Function.iterate_succ_apply]
    rcases Nat.lt_or_ge (i + 1) loop.length with hlt | hge
    · exact h.mute _ hlt
    · have hi' : i.succ = loop.length := by omega
      rw [hi', h.orbit.back]
      exact h.mute 0 h.orbit.pos

section

variable {history : List Entry} (hc : history.IsChain fun newer older => g.Linked older newer) {n : Nat}
  (hn : n < history.length)

include hc

lemma linked_iterate {i k : Nat} (hi : i + k = n) (hm : ∀ j < i, g.Mute (g.next^[j] (g.mask history[n].after))) :
    g.next^[i] (g.mask history[n].after) = g.mask history[k].after := by
  induction i generalizing k with
  | zero => simp only [show n = k by omega, Function.iterate_zero_apply]
  | succ i ih =>
    have hlast := ih (k := k + 1) (by omega) fun j hj => hm j (by omega)
    have hmute := hm i (by omega)
    rw [hlast] at hmute
    rw [Function.iterate_succ_apply', hlast]
    exact ((hc.getElem k (by omega)).2 hmute).2.2

lemma linked_safe {i : Nat} (hi : i < n) (hm : ∀ j < i, g.Mute (g.next^[j] (g.mask history[n].after))) :
    (g.outcome (g.next^[i] (g.mask history[n].after))).safe = true := by
  obtain ⟨k, hk⟩ := Nat.exists_eq_add_of_lt hi
  rw [linked_iterate hc hn (k := k + 1) (by omega) hm]
  exact (hc.getElem k (by omega)).1

lemma linked_follows (hm : ∀ i < n, g.Mute (g.next^[i] (g.mask history[n].after))) :
    (history.take (n + 1)).IsChain fun newer older => g.Follows older newer := by
  rw [List.isChain_iff_getElem]
  intro k hk
  rw [List.length_take] at hk
  obtain ⟨i, hi⟩ := Nat.exists_eq_add_of_lt (show k < n by omega)
  have hmute := hm i (by omega)
  rw [linked_iterate hc hn (k := k + 1) (by omega) fun j hj => hm j (by omega)] at hmute
  simp only [List.getElem_take]
  exact (hc.getElem k (by omega)).2 hmute

end

theorem Found.still {y : Registers} {loop : Loop} (h : g.Found y loop)
    (hm : (∀ i < loop.length, (∀ j < i, g.Mute (g.next^[j] y)) → (g.outcome (g.next^[i] y)).safe = true) →
      ∀ i < loop.length, g.Mute (g.next^[i] y)) : g.Still y loop := by
  obtain ⟨history, threshold, hc, hfind, last, hlast, rfl⟩ := h
  obtain ⟨n, hn2, hrepeats, _, -, rfl⟩ := Detector.find_eq_some hfind
  obtain ⟨hn, hmask⟩ := g.mask_of_repeats (by omega) hrepeats
  have hlast' : history[0] = last := by
    rw [List.head?_eq_getElem?, List.getElem?_eq_getElem (by omega)] at hlast
    exact Option.some.inj hlast
  rw [← hlast', ← hmask] at hm ⊢
  have hmute := hm fun i hi => linked_safe hc hn hi
  refine ⟨?_, hmute⟩
  rw [hmask]
  exact orbit_of_back (by omega) hn (linked_follows hc hn hmute) hmask _

lemma Found.start {y : Registers} {loop : Loop} (h : g.Found y loop) : y.pc = loop.start := by
  obtain ⟨history, threshold, -, hfind, last, hlast, rfl⟩ := h
  obtain ⟨n, -, -, last', hlast', rfl⟩ := Detector.find_eq_some hfind
  rw [hlast] at hlast'
  cases hlast'
  rfl

end Idle.Ground

namespace Machine

variable {B : Type} (m : Machine B)

def footing : Ground B :=
  m.ground m.core.regs.iff2

def masked : Registers :=
  m.footing.mask m.core.regs

end Machine

section

variable {B : Type} [Bus B]

/-- What a detector knows of a machine when ports may change behind its back. -/
structure Idle.Detector.Wary (m : Machine B) (d : Detector) : Prop where
  trail : d.history.IsChain fun newer older => m.footing.Linked older newer
  latest : ∀ e ∈ d.history.head?, m.footing.mask e.after = m.masked
  active : ∀ loop ∈ d.active, m.footing.Found m.masked loop ∨ m.footing.Still m.masked loop
  awake : d.history ≠ [] ∨ d.active ≠ none → m.core.halted = false ∧ m.core.eiDelay = false
  alone : d.active ≠ none → d.history = []
  off : d.config.enabled = false → d.Empty

lemma Idle.Detector.Empty.wary {m : Machine B} {d : Detector} (h : d.Empty) : d.Wary m where
  trail := by simp [h.1]
  latest := by simp [h.1]
  active := by simp [h.2]
  awake := by simp [h.1, h.2]
  alone := by simp [h.2]
  off := fun _ => h

/-- If the loop that may be skipped starts here, its instructions, run for real, use no port. -/
def Cpu.Portless (c : Cpu B) : Prop :=
  ∀ loop ∈ c.idle.active, c.regs.pc = loop.start → ∀ a ∈ (c.instructions loop.length).1.2, a.isPort = false

instance (c : Cpu B) : Decidable c.Portless :=
  match h : c.idle.active with
  | none => .isTrue (by simp [Cpu.Portless, h])
  | some loop => decidable_of_iff
      (c.regs.pc = loop.start → ∀ a ∈ (c.instructions loop.length).1.2, a.isPort = false) (by simp [Cpu.Portless, h])

namespace Cpu

variable {c : Cpu B}

lemma wary_skip {loop : Loop} {cycles : Nat} (h : c.idle.Wary c.machine)
    (hstill : ∀ loop ∈ c.idle.active, c.machine.footing.Still c.machine.masked loop) :
    (c.idle.skip loop).value.Wary (c.after { c.core with regs := c.regs.refresh loop.fetches } c.bus cycles) := by
  simp only [Detector.skip]
  split
  · exact ⟨h.trail, h.latest, fun loop hl => .inr (hstill loop hl), h.awake, h.alone, h.off⟩
  · exact (empty_forget _).wary

lemma footing_after (hs : c.outcome.safe) (cycles : Nat) :
    (c.after c.outcome.core c.outcome.bus cycles).footing = { c.machine.footing with bus := c.outcome.bus } := by
  rw [Machine.footing, Machine.footing]
  exact congrArg (Ground.mk c.clock.mode c.outcome.bus) (c.core.outcome_iff2 _ _ hs)

end Cpu

end

/-! On steady memory -/

section

variable {B : Type} [Bus B] [SteadyBus B] {b b' : B}

namespace Dialogue

variable {α : Type} (d : Dialogue α) (log log' : Log) (traffic : Traffic)

lemma run_of_looks (h : Bus.SameMemory b b') (ha : ∀ a ∈ d.accesses b, a.looks) :
    (d.run b' log' traffic).result = (d.run b log traffic).result ∧
      (d.run b' log' traffic).traffic = (d.run b log traffic).traffic ∧ (d.run b' log' traffic).bus = b' := by
  induction d generalizing log log' traffic with
  | done => exact ⟨rfl, rfl, rfl⟩
  | read addr next ih =>
    have hbyte : (Bus.read b' addr).1 = (Bus.read b addr).1 := h.peek addr
    have htraffic : traffic.atAddress b' addr = traffic.atAddress b addr := by
      rw [Traffic.atAddress, Traffic.atAddress, h.deviceClass]
    simp only [accesses, List.forall_mem_cons, SteadyBus.bus_read] at ha
    simp only [run, SteadyBus.bus_read, hbyte, htraffic]
    exact ih _ _ _ _ ha.2
  | write addr byte next ih => simp [accesses, Access.looks] at ha
  | input port next ih => simp [accesses, Access.looks] at ha
  | output port byte next ih => simp [accesses, Access.looks] at ha
  | note event next ih => exact ih _ _ _ ha

lemma sameMemory_of_asks [ApartBus B] (ha : ∀ a ∈ d.accesses b, a.asks) :
    Bus.SameMemory b (d.run b log traffic).bus := by
  induction d generalizing b log traffic with
  | done => exact .refl b
  | read addr next ih =>
    simp only [accesses, List.forall_mem_cons, SteadyBus.bus_read] at ha
    simp only [run, SteadyBus.bus_read]
    exact ih _ _ _ ha.2
  | write addr byte next ih => simp [accesses, Access.asks] at ha
  | input port next ih =>
    simp only [accesses, List.forall_mem_cons] at ha
    exact (ApartBus.input b port).trans (ih _ _ _ ha.2)
  | output port byte next ih => simp [accesses, Access.asks] at ha
  | note event next ih => exact ih _ _ ha

end Dialogue

namespace Core

lemma upcoming_congr (c : Core) (h : Bus.SameMemory b b') : c.upcoming b' = c.upcoming b := by
  obtain ⟨e, bytes, hf⟩ := (Instruction.always_fetched c.regs.pc).run b {} {}
  have hlooks : ∀ a ∈ (Instruction.fetchAt c.regs.pc).accesses b, a.looks := by
    intro a ha
    rw [show (Instruction.fetchAt c.regs.pc).accesses b = _ from hf.made] at ha
    exact Access.looks_of_readsFrom ha
  exact congrArg Prod.snd (Dialogue.run_of_looks _ {} {} {} h hlooks).1

variable {c : Core} {mode : ClockMode} (hs : (c.outcome mode b).safe)

include hs

theorem outcome_congr (h : Bus.SameMemory b b') (hm : (c.upcoming b).shape.inputs = 0) :
    c.outcome mode b' = { c.outcome mode b with bus := b' } := by
  rw [← c.inputs_untraced b] at hm
  have hlooks := Access.looks_of_inputs hm ((c.outcome_runs mode b).asks hs)
  obtain ⟨hresult, htraffic, hbus⟩ := c.untraced.run_of_looks {} {} {} h hlooks
  simp only [outcome, hresult, htraffic, hbus]

lemma outcome_bus_of_mute (hm : (c.upcoming b).shape.inputs = 0) : (c.outcome mode b).bus = b :=
  congrArg Outcome.bus (outcome_congr hs (.refl b) hm)

lemma outcome_sameMemory [ApartBus B] : Bus.SameMemory b (c.outcome mode b).bus :=
  c.untraced.sameMemory_of_asks {} {} ((c.outcome_runs mode b).asks hs)

end Core

namespace Idle.Ground

variable {g : Ground B}

lemma Mute.bus {y : Registers} (h : g.Mute y) (hs : (g.outcome y).safe) : (g.outcome y).bus = g.bus :=
  Core.outcome_bus_of_mute hs (mute_iff.mp h)

lemma Linked.onBus (h : Bus.SameMemory g.bus b) {older newer : Entry} (hl : g.Linked older newer) :
    ({ g with bus := b } : Ground B).Linked older newer := by
  obtain ⟨hs, hf⟩ := hl
  generalize hy : g.mask older.after = y at hs hf
  have hy' : ({ g with bus := b } : Ground B).mask older.after = y := hy
  have hi : (({ g with bus := b } : Ground B).outcome y).instruction = (g.outcome y).instruction := by
    simp only [outcome, Core.outcome_instruction]
    exact Core.upcoming_congr _ h
  refine ⟨?_, fun hm => ?_⟩
  · rw [hy', Outcome.safe, hi]
    exact hs
  · have hm' : g.Mute y := by
      rw [hy', Mute, hi] at hm
      exact hm
    have ho : ({ g with bus := b } : Ground B).outcome y = { g.outcome y with bus := b } :=
      Core.outcome_congr hs h (mute_iff.mp hm')
    have hfollows := hf hm'
    rw [Follows, hy] at hfollows
    rw [Follows, hy', next, ho]
    exact hfollows

end Idle.Ground

namespace Cpu

variable {c : Cpu B} {g : Ground B} {m : Machine B}

lemma mute_of_instructions (hmode : m.clock.mode = g.mode) (hbus : m.bus = g.bus) (n : Nat) {y : Registers}
    (hy : y.iff2 = g.iff2) {r : UInt8} (hc : c.machine = { m with core := g.core y r m.core.regs.iff1 })
    (hs : ∀ i < n, (∀ j < i, g.Mute (g.next^[j] y)) → (g.outcome (g.next^[i] y)).safe = true)
    (hp : ∀ a ∈ (c.instructions n).1.2, a.isPort = false) : ∀ i < n, g.Mute (g.next^[i] y) := by
  induction n generalizing c y r with
  | zero => simp
  | succ n ih =>
    simp only [instructions, List.forall_mem_append, Core.cycle_accesses] at hp
    have hsafe := hs 0 (by omega) (by simp)
    have hmute : g.Mute y := by
      have hcore : c.core = g.core y r m.core.regs.iff1 := congrArg Machine.core hc
      have hb : c.bus = g.bus := (congrArg Machine.bus hc).trans hbus
      have hinputs := Core.inputs_of_portless hp.1
      rwa [← c.core.outcome_instruction c.bus g.mode, hcore, hb, Ground.outcome_core hy hsafe] at hinputs
    obtain ⟨-, -, hnext⟩ := runInstruction_on hmode hbus hy hsafe (hmute.bus hsafe) hc
    have hrest := ih rfl hnext (fun i hi hj => hs (i + 1) (by omega) fun j hj' => ?_) hp.2
    · intro i hi
      cases i with
      | zero => exact hmute
      | succ i => exact hrest i (by omega)
    · cases j with
      | zero => exact hmute
      | succ j => exact hj j (by omega)

lemma still_of_portless (h : c.idle.Wary c.machine) (hp : c.Portless) :
    ∀ loop ∈ c.idle.active, c.machine.footing.Still c.machine.masked loop := by
  intro loop ha
  rcases h.active loop ha with hfound | hstill
  -- It has just been found, so the registers stand at its start, and what its instructions do from here decides.
  · obtain ⟨hh, he⟩ := h.awake (.inr (by rw [ha]; exact nofun))
    refine hfound.still fun hs => ?_
    have hcore := c.machine.footing.core_mask hh he rfl
    have hc := congrArg (fun core => ({ c.machine with core } : Machine B)) hcore.symm
    exact mute_of_instructions rfl rfl loop.length rfl hc hs (hp loop ha hfound.start)
  · exact hstill

/-! Step by step -/

lemma wary_active {loop : Loop} {cycles : Nat} (h : c.idle.Wary c.machine) (ha : c.idle.active = some loop)
    (hstill : c.machine.footing.Still c.machine.masked loop) :
    c.idle.Wary (c.after c.outcome.core c.outcome.bus cycles) := by
  have hh := h.alone (by simp [ha])
  have hawake := h.awake (by simp [ha])
  have hs : c.outcome.safe = true :=
    (c.machine.footing.safe_mask c.core).symm.trans (hstill.orbit.safe 0 hstill.orbit.pos)
  have hmute : (c.core.upcoming c.bus).shape.inputs = 0 := Ground.mute_mask.mp (hstill.mute 0 hstill.orbit.pos)
  have hbus : c.outcome.bus = c.bus := Core.outcome_bus_of_mute hs hmute
  have hnext := (Ground.outcome_mask (g := c.machine.footing) hawake.1 hs fun _ => rfl).2
  have hg : (c.after c.outcome.core c.outcome.bus cycles).footing = c.machine.footing := by
    rw [footing_after hs, hbus]
    rfl
  refine ⟨by simp [hh], by simp [hh], fun loop' hl => .inr ?_, fun _ => ?_, h.alone, h.off⟩
  · rw [ha] at hl
    cases hl
    rw [Machine.masked, hg]
    exact hnext ▸ hstill.next
  · exact ⟨(c.core.outcome_halted _ _ hs).trans hawake.1, c.core.outcome_eiDelay _ _ hs⟩

section

variable [ApartBus B]

lemma wary_trail (h : c.idle.Wary c.machine) (hh : c.core.halted = false) (hs : c.outcome.safe = true) (cycles : Nat) :
    ({ step := c.outcome.step, after := c.outcome.core.regs } :: c.idle.history).IsChain
      fun newer older => (c.after c.outcome.core c.outcome.bus cycles).footing.Linked older newer := by
  have hmemory : Bus.SameMemory c.machine.footing.bus c.outcome.bus := Core.outcome_sameMemory hs
  simp only [footing_after hs]
  refine (h.trail.cons fun e he => ?_).imp fun newer older hl => hl.onBus hmemory
  -- On the bus as it was, the step does follow.
  obtain ⟨hstep, hnext⟩ := Ground.outcome_mask (g := c.machine.footing) hh hs fun _ => rfl
  rw [Ground.Linked, Ground.Follows, h.latest e he]
  have hsafe := (c.machine.footing.safe_mask c.core).trans hs
  exact ⟨hsafe, fun _ => ⟨hsafe, hstep, hnext⟩⟩

lemma wary_observe {cycles : Nat} (h : c.idle.Wary c.machine)
    (hstill : ∀ loop ∈ c.idle.active, c.machine.footing.Still c.machine.masked loop) (hh : c.core.halted = false) :
    (c.idle.observe c.outcome.step c.outcome.safe c.outcome.core.regs).value.Wary
      (c.after c.outcome.core c.outcome.bus cycles) := by
  simp only [Detector.observe]
  split
  case isTrue hidle =>
    cases ha : c.idle.active with
    | some loop => exact wary_active h ha (hstill loop ha)
    | none => exact (h.off (by simpa [ha] using hidle)).wary
  case isFalse hidle =>
    obtain ⟨hon, ha⟩ : c.idle.config.enabled = true ∧ c.idle.active = none := by simpa using hidle
    cases hs : c.outcome.safe with
    | false => exact Empty.wary ⟨rfl, ha⟩
    | true =>
      have htrail := (wary_trail h hh hs cycles).take (2 * c.idle.config.threshold)
      have hlatest : ∀ e ∈ (({ step := c.outcome.step, after := c.outcome.core.regs } :: c.idle.history).take
          (2 * c.idle.config.threshold)).head?, e.after = c.outcome.core.regs :=
        fun e he => congrArg Entry.after (newest_of_take he)
      have hawake := And.intro ((c.core.outcome_halted _ _ hs).trans hh) (c.core.outcome_eiDelay _ _ hs)
      simp only [Bool.not_true, Bool.false_eq_true, if_false]
      split
      case h_1 hfind =>
        refine ⟨htrail, fun e he => by rw [hlatest e he]; rfl, by simp [ha], fun _ => hawake, by simp [ha], ?_⟩
        simp [hon]
      case h_2 loop hfind =>
        obtain ⟨n, -, -, last, hlast, -⟩ := find_eq_some hfind
        refine ⟨by simp, by simp, fun loop' hl => .inl ?_, fun _ => hawake, by simp, by simp [hon]⟩
        cases hl
        refine ⟨_, _, htrail, hfind, last, hlast, ?_⟩
        rw [hlatest last hlast]
        rfl

theorem Stepped.wary {budget : Nat} {k : StepKind} {t : Nat} {d : Detector} (h : c.Stepped budget k t m d)
    (hw : c.idle.Wary c.machine) (hp : c.Portless) : d.Wary m := by
  have hstill := still_of_portless hw hp
  cases h with
  | paused => exact hw
  | response => exact (empty_forget _).wary
  | halted _ _ hh =>
    have hempty : c.idle.history = [] ∧ c.idle.active = none := by
      by_contra hne
      have hawake := hw.awake (Decidable.not_and_iff_or_not.mp hne)
      exact absurd hh (by rw [show c.core.halted = false from hawake.1]; exact Bool.noConfusion)
    exact Empty.wary hempty
  | skipped => exact wary_skip hw hstill
  | instruction _ _ hh => exact wary_observe hw hstill hh

end

theorem wary_ticks (hw : c.idle.Wary c.machine) (hp : c.Portless) (hl : c.lifecycle ≠ .paused) (budget : Nat) :
    ∃ n, 0 < n ∧ c.machine.ticks n = ((c.step budget).1, (c.step budget).2.machine) ∧
      (n = 1 ∨ (c.step budget).1 ≤ budget) := by
  refine ticks_of_skip budget fun loop hpending ha => ?_
  have hstill := still_of_portless hw hp loop ha
  obtain ⟨hh, he⟩ := hw.awake (.inr (by rw [ha]; exact nofun))
  have hticks := orbit_ticks hl hpending hh he rfl hstill.orbit fun i hi =>
    (hstill.mute i hi).bus (hstill.orbit.safe i hi)
  exact ⟨hstill.orbit.pos, hticks⟩

end Cpu

end

end Z80Machine
