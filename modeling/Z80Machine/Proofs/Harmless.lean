import Z80Machine.Bus.Flat
import Z80Machine.Proofs.Footprint
import Z80Machine.Proofs.Nearly

/-! What an instruction that may stand in an idle loop leaves alone, and what it cannot see. Its shape is that of the path
on which nothing is taken, and still it says enough: whatever writes on another path is refused by name. -/

namespace Z80Machine

lemma Registers.eq_counting {r s : Registers} (h : r.sameButRefresh s = true) : s = r.counting s.r := by
  have hzero : ({ r with r := 0 } : Registers) = { s with r := 0 } := eq_of_beq h
  calc s = ({ s with r := 0 } : Registers).counting s.r := rfl
    _ = ({ r with r := 0 } : Registers).counting s.r := by rw [hzero]
    _ = r.counting s.r := rfl

lemma Op.ne_of_disturbs {op other : Op} (h : op.disturbs = false) (h' : other.disturbs = true) : op ≠ other := by
  rintro rfl
  rw [h] at h'
  contradiction

namespace Core

structure SameButRefresh (c d : Core) : Prop where
  regs : c.regs.sameButRefresh d.regs = true
  halted : d.halted = c.halted
  eiDelay : d.eiDelay = c.eiDelay

def counting (c : Core) (x : UInt8) : Core :=
  { c with regs := c.regs.counting x }

variable {c d : Core}

lemma sameButRefresh_counting (c : Core) (x : UInt8) : c.SameButRefresh (c.counting x) :=
  ⟨beq_self_eq_true _, rfl, rfl⟩

lemma SameButRefresh.eq_counting (h : c.SameButRefresh d) : d = c.counting d.regs.r := by
  obtain ⟨regs, halted, eiDelay⟩ := d
  obtain ⟨hregs, rfl, rfl⟩ := h
  rw [counting, ← Registers.eq_counting hregs]

lemma veil_eq_counting {iff1 iff2 : Bool} (h1 : c.regs.iff1 = iff1) (h2 : c.regs.iff2 = iff2) (x : UInt8) :
    c.veil x iff1 iff2 = c.counting x := by
  subst h1 h2
  rfl

end Core

namespace Instruction

variable {B : Type} [Bus B] {i : Instruction}

/-! Writes -/

structure Declares (i : Instruction) : Prop where
  writes : i.shape.writes = (i.op.tally false).writes
  outputs : i.shape.outputs = (i.op.tally false).outputs

lemma declares_decode (opcode : UInt8) (pc : UInt16) (b : B) (log : Log) (traffic : Traffic) :
    ((decode opcode pc).run b log traffic).result.Declares := by
  obtain ⟨bytes, e, hb, hr⟩ := (Encoding.ofOpcode opcode).exists_answers b (pc + 1)
  have he := (Encoding.ofOpcode_faithful opcode).of_read hr
  rw [(decode_of_answers hb hr log traffic).1]
  exact ⟨he.writes, he.outputs⟩

lemma tally_execute (i : Instruction) (c : Core) (bus : B) :
    Tally.of ((i.execute c).accesses bus) = i.op.tally (i.op.taken c.regs) := by
  have htaken : i.op.taken { c.regs with pc := i.address + i.size } = i.op.taken c.regs := by
    cases i.op <;> rfl
  have h := ((i.op.always_onRegisters i.address { c.regs with pc := i.address + i.size } []).run bus {} {}).1
  rw [htaken, List.nil_append] at h
  simp only [execute, Dialogue.bind_eq, Dialogue.pure_eq, Dialogue.accesses_bind _ _ _ {} {}, Dialogue.accesses,
    List.append_nil]
  rw [h]
  exact Tally.zeros_add _

lemma Declares.silent_iff (h : i.Declares) (hd : i.op.disturbs = false) (c : Core) (bus : B) :
    i.shape.writesOutside = false ↔ ∀ a ∈ (i.execute c).accesses bus, a.asks := by
  obtain ⟨hwrites, houtputs⟩ := Op.tally_of_not_disturbs hd (i.op.taken c.regs)
  rw [Tally.asks_iff, tally_execute, hwrites, houtputs, ← h.writes, ← h.outputs]
  simp [CycleShape.writesOutside]

lemma Declares.idleSafe_iff (h : i.Declares) (c : Core) (bus : B) :
    i.idleSafe = true ↔ i.op.disturbs = false ∧ ∀ a ∈ (i.execute c).accesses bus, a.asks := by
  rw [idleSafe, Bool.and_eq_true, Bool.not_eq_true', Bool.not_eq_true', and_comm]
  exact and_congr_right fun hd => h.silent_iff hd c bus

/-! Control and the refresh counter -/

variable (hd : i.op.disturbs = false) (c : Core)

include hd

lemma always_undisturbed : (i.execute c).Always
    (fun s _ => s.1.halted = c.halted ∧ s.1.eiDelay = c.eiDelay ∧ s.1.regs.control = c.regs.control) [] := by
  have hcontrol := Op.always_control { c.regs with pc := i.address + i.size } [] i.op i.address
  rw [Op.control_of_not_disturbs hd] at hcontrol
  refine (Dialogue.always_bind _ _ _).mpr (hcontrol.mono fun s _ hs => ⟨?_, ?_, hs⟩)
  · exact (congrArg (c.halted || ·) (i.op.isHalt_of_ne (Op.ne_of_disturbs hd rfl))).trans (Bool.or_false _)
  · exact (congrArg (c.eiDelay || ·) (i.op.isEi_of_ne (Op.ne_of_disturbs hd rfl))).trans (Bool.or_false _)

lemma run_counting (x : UInt8) (bus : B) (log : Log) (traffic : Traffic) :
    (i.execute (c.counting x)).accesses bus = (i.execute c).accesses bus ∧
      (i.execute (c.counting x)).run bus log traffic =
        let t := (i.execute c).run bus log traffic
        { t with result := (t.result.1.counting x, t.result.2) } := by
  have hveil := c.execute_veil i x c.regs.iff1 c.regs.iff2 hd fun _ => rfl
  obtain ⟨-, -, hcontrol⟩ := (always_undisturbed hd c).run bus log traffic
  have h1 : ((i.execute c).run bus log traffic).result.1.regs.iff1 = c.regs.iff1 := congrArg Control.iff1 hcontrol
  have h2 : ((i.execute c).run bus log traffic).result.1.regs.iff2 = c.regs.iff2 := congrArg Control.iff2 hcontrol
  rw [Core.veil_eq_counting rfl rfl] at hveil
  rw [hveil, Dialogue.accesses_bind _ _ _ {} {}, Dialogue.run_bind, Dialogue.accesses, List.append_nil]
  refine ⟨rfl, ?_⟩
  simp only [Dialogue.run]
  rw [Core.veil_eq_counting h1 h2]

lemma run_r (bus : B) (log : Log) (traffic : Traffic) :
    ((i.execute c).run bus log traffic).result.1.regs.r = c.regs.r :=
  congrArg (·.result.1.regs.r) (run_counting hd c c.regs.r bus log traffic).2

omit hd

/-- An instruction is harmless as far as its shape says exactly if none of its own accesses, on whichever path it takes,
writes. It then leaves control and the refresh counter as they were and sees nothing of the latter. -/
theorem decoded_harmless {B' : Type} [Bus B'] (opcode : UInt8) (pc : UInt16) (b : B) (log : Log) (traffic : Traffic)
    (c : Core) (bus : B') (log' : Log) (traffic' : Traffic) :
    let i := ((decode opcode pc).run b log traffic).result
    let t := (i.execute c).run bus log' traffic'
    (i.idleSafe = true ↔ i.op.disturbs = false ∧ ∀ a ∈ (i.execute c).accesses bus, a.asks) ∧
      (i.idleSafe = true →
        (∀ a ∈ (i.execute c).accesses bus, a.asks) ∧
        t.result.1.halted = c.halted ∧ t.result.1.eiDelay = c.eiDelay ∧
        t.result.1.regs.control = c.regs.control ∧ t.result.1.regs.r = c.regs.r ∧
        ∀ d, c.SameButRefresh d →
          let u := (i.execute d).run bus log' traffic'
          (i.execute d).accesses bus = (i.execute c).accesses bus ∧ u.result.2 = t.result.2 ∧
            t.result.1.SameButRefresh u.result.1 ∧ u.bus = t.bus ∧ u.traffic = t.traffic ∧ u.log = t.log) := by
  intro i t
  have hsafe : i.idleSafe = true ↔ i.op.disturbs = false ∧ ∀ a ∈ (i.execute c).accesses bus, a.asks :=
    (declares_decode opcode pc b log traffic).idleSafe_iff c bus
  refine ⟨hsafe, fun h => ?_⟩
  obtain ⟨hd, hasks⟩ := hsafe.mp h
  obtain ⟨hhalted, hei, hcontrol⟩ := (always_undisturbed hd c).run bus log' traffic'
  refine ⟨hasks, hhalted, hei, hcontrol, run_r hd c bus log' traffic', fun d hcd => ?_⟩
  obtain ⟨haccesses, hrun⟩ := run_counting hd c d.regs.r bus log' traffic'
  rw [← hcd.eq_counting] at haccesses hrun
  intro u
  have hu : u = { t with result := (t.result.1.counting d.regs.r, t.result.2) } := hrun
  rw [hu]
  exact ⟨haccesses, rfl, t.result.1.sameButRefresh_counting d.regs.r, rfl, rfl, rfl⟩

/-- `RET NZ`, taken from the top of the stack, for two values of the refresh counter. -/
theorem decoded_harmless_returning :
    let i := ((decode 0xC0 0x0200).run ({} : FlatBus) {} {}).result
    let c : Core := { regs := Registers.powerOn }
    let d : Core := { regs := { c.regs with r := 0x42 } }
    let bus : FlatBus := { ram := Ram.filled 0x12 }
    i.idleSafe = true ∧ i.op.taken c.regs = true ∧ c.SameButRefresh d ∧ (∀ a ∈ (i.execute c).accesses bus, a.asks) ∧
      ((i.execute c).run bus {} {}).result.1.SameButRefresh ((i.execute d).run bus {} {}).result.1 := by
  intro i c d bus
  have hs : i.idleSafe = true := rfl
  have hop : i.op = .ret (some .nz) := rfl
  have htaken : i.op.taken c.regs = true := by
    rw [hop]
    exact (rfl : Registers.powerOn.meets (some .nz) = true)
  have hcd : c.SameButRefresh d := ⟨rfl, rfl, rfl⟩
  obtain ⟨hasks, -, -, -, -, hsame⟩ := (decoded_harmless 0xC0 0x0200 ({} : FlatBus) {} {} c bus {} {}).2 hs
  exact ⟨hs, htaken, hcd, hasks, (hsame d hcd).2.2.1⟩

end Instruction

end Z80Machine
