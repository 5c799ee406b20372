import Mathlib.Tactic.Lemma
import Z80Machine.Bus.Dialogue
import Z80Machine.Bus.Recorded

/-! Dialogues as a monad, the accesses that a run of one makes, and what holds of a run whatever the bus answers. The
log has no part in any of it. -/

namespace Z80Machine

def Talk.unlogged {α B : Type} (t : Talk α B) : α × B × Traffic :=
  (t.result, t.bus, t.traffic)

/-- Asking a bus changes nothing about it. -/
class QuietBus (B : Type) [Bus B] : Prop where
  bus_read : ∀ (b : B) (addr : UInt16), (Bus.read b addr).2 = b
  bus_input : ∀ (b : B) (port : UInt8), (Bus.input b port).2 = b

namespace Access

def asks : Access → Bool
  | read _ _ => true
  | input _ _ => true
  | _ => false

@[simp] lemma isPort_read (addr : UInt16) (byte : UInt8) : (read addr byte).isPort = false := rfl
@[simp] lemma isPort_write (addr : UInt16) (byte : UInt8) : (write addr byte).isPort = false := rfl
@[simp] lemma isPort_input (port byte : UInt8) : (input port byte).isPort = true := rfl
@[simp] lemma isPort_output (port byte : UInt8) : (output port byte).isPort = true := rfl

end Access

namespace Traffic

variable {B : Type} [Bus B]

@[simp] lemma atAddress_ports (t : Traffic) (bus : B) (addr : UInt16) : (t.atAddress bus addr).ports = t.ports := by
  unfold atAddress
  split <;> rfl

lemma atAddress_video_le (t : Traffic) (bus : B) (addr : UInt16) : (t.atAddress bus addr).video ≤ t.video + 1 := by
  unfold atAddress
  split <;> simp

@[simp] lemma atPort_ports (t : Traffic) : t.atPort.ports = t.ports + 1 := rfl
@[simp] lemma atPort_video (t : Traffic) : t.atPort.video = t.video := rfl

end Traffic

namespace Dialogue

variable {α β γ B : Type}

@[simp] lemma bind_eq (d : Dialogue α) (f : α → Dialogue β) : d >>= f = d.bind f := rfl

@[simp] lemma pure_eq (a : α) : (pure a : Dialogue α) = .done a := rfl

@[simp] lemma done_bind (a : α) (f : α → Dialogue β) : (done a).bind f = f a := rfl

@[simp] lemma bind_assoc (d : Dialogue α) (f : α → Dialogue β) (g : β → Dialogue γ) :
    (d.bind f).bind g = d.bind fun a => (f a).bind g := by
  induction d with
  | done => rfl
  | read addr next ih => simp only [bind, ih]
  | write addr byte next ih => simp only [bind, ih]
  | input port next ih => simp only [bind, ih]
  | output port byte next ih => simp only [bind, ih]
  | note event next ih => simp only [bind, ih]

def accesses [Bus B] : Dialogue α → B → List Access
  | done _, _ => []
  | read addr next, bus =>
    let (byte, bus) := Bus.read bus addr
    .read addr byte :: (next byte).accesses bus
  | write addr byte next, bus => .write addr byte :: next.accesses (Bus.write bus addr byte)
  | input port next, bus =>
    let (byte, bus) := Bus.input bus port
    .input port byte :: (next byte).accesses bus
  | output port byte next, bus => .output port byte :: next.accesses (Bus.output bus port byte)
  | note _ next, bus => next.accesses bus

theorem accesses_run_recorded [Bus B] (d : Dialogue α) (r : Recorded B) (log : Log) (traffic : Traffic) :
    (d.run r log traffic).bus.accesses.toList = r.accesses.toList ++ d.accesses r.bus := by
  induction d generalizing r log traffic with
  | done => simp [run, accesses]
  | read addr next ih => simp [run, accesses, ih, Bus.read]
  | write addr byte next ih => simp [run, accesses, ih, Bus.write]
  | input port next ih => simp [run, accesses, ih, Bus.input]
  | output port byte next ih => simp [run, accesses, ih, Bus.output]
  | note event next ih => simp [run, accesses, ih]

lemma accesses_recorded [Bus B] (d : Dialogue α) (r : Recorded B) : d.accesses r = d.accesses r.bus := by
  induction d generalizing r with
  | done => rfl
  | read addr next ih => simp [accesses, ih, Bus.read]
  | write addr byte next ih => simp [accesses, ih, Bus.write]
  | input port next ih => simp [accesses, ih, Bus.input]
  | output port byte next ih => simp [accesses, ih, Bus.output]
  | note event next ih => exact ih r

lemma accesses_bind [Bus B] (d : Dialogue α) (f : α → Dialogue β) (bus : B) (log : Log) (traffic : Traffic) :
    (d.bind f).accesses bus =
      d.accesses bus ++ (f (d.run bus log traffic).result).accesses (d.run bus log traffic).bus := by
  induction d generalizing bus log traffic with
  | done => rfl
  | read addr next ih => simp only [bind, accesses, run, List.cons_append, ← ih]
  | write addr byte next ih => simp only [bind, accesses, run, List.cons_append, ← ih]
  | input port next ih => simp only [bind, accesses, run, List.cons_append, ← ih]
  | output port byte next ih => simp only [bind, accesses, run, List.cons_append, ← ih]
  | note event next ih => simp only [bind, accesses, run, ← ih]

lemma read_of_accesses [Bus B] {d : Dialogue α} {bus : B} {addr : UInt16} {byte : UInt8} {later : List Access}
    (h : d.accesses bus = .read addr byte :: later) :
    (Bus.read bus addr).1 = byte ∧ ∃ d' : Dialogue α, d'.accesses (Bus.read bus addr).2 = later := by
  induction d with
  | done => simp [accesses] at h
  | read a next ih =>
    simp only [accesses, List.cons.injEq, Access.read.injEq] at h
    obtain ⟨⟨rfl, rfl⟩, rfl⟩ := h
    exact ⟨rfl, _, rfl⟩
  | write a b next ih => simp [accesses] at h
  | input port next ih => simp [accesses] at h
  | output port b next ih => simp [accesses] at h
  | note event next ih => exact ih h

/-! Remarks -/

def silent : Dialogue α → Dialogue α
  | done a => done a
  | read addr next => read addr fun b => (next b).silent
  | write addr byte next => write addr byte next.silent
  | input port next => input port fun b => (next b).silent
  | output port byte next => output port byte next.silent
  | note _ next => next.silent

@[simp] lemma silent_done (a : α) : (done a).silent = done a := rfl

@[simp] lemma silent_bind (d : Dialogue α) (f : α → Dialogue β) :
    (d.bind f).silent = d.silent.bind fun a => (f a).silent := by
  induction d with
  | done => rfl
  | read addr next ih => simp only [bind, silent, ih]
  | write addr byte next ih => simp only [bind, silent, ih]
  | input port next ih => simp only [bind, silent, ih]
  | output port byte next ih => simp only [bind, silent, ih]
  | note event next ih => simp only [bind, silent, ih]

@[simp] lemma silent_remarks (events : List Event) : (events.forM remark).silent = done () := by
  induction events with
  | nil => rfl
  | cons e es ih => exact ih

lemma silent_run [Bus B] (d : Dialogue α) (bus : B) (log other : Log) (traffic : Traffic) :
    (d.silent.run bus log traffic).unlogged = (d.run bus other traffic).unlogged := by
  induction d generalizing bus log other traffic with
  | done => rfl
  | read addr next ih => exact ih _ _ _ _ _
  | write addr byte next ih => exact ih _ _ _ _
  | input port next ih => exact ih _ _ _ _ _
  | output port byte next ih => exact ih _ _ _ _
  | note event next ih => exact ih _ _ _ _

lemma unlogged_run [Bus B] (d : Dialogue α) (bus : B) (log other : Log) (traffic : Traffic) :
    (d.run bus log traffic).unlogged = (d.run bus other traffic).unlogged :=
  (silent_run d bus {} log traffic).symm.trans (silent_run d bus {} other traffic)

lemma run_fresh [Bus B] (d : Dialogue α) (bus : B) (log other : Log) (traffic traffic' : Traffic) :
    (d.run bus log traffic).result = (d.run bus other traffic').result ∧
      (d.run bus log traffic).bus = (d.run bus other traffic').bus := by
  induction d generalizing bus log other traffic traffic' with
  | done => exact ⟨rfl, rfl⟩
  | read addr next ih => exact ih _ _ _ _ _ _
  | write addr byte next ih => exact ih _ _ _ _ _
  | input port next ih => exact ih _ _ _ _ _ _
  | output port byte next ih => exact ih _ _ _ _ _
  | note event next ih => exact ih _ _ _ _ _

@[simp] lemma silent_accesses [Bus B] (d : Dialogue α) (bus : B) : d.silent.accesses bus = d.accesses bus := by
  induction d generalizing bus with
  | done => rfl
  | read addr next ih => simp only [silent, accesses, ih]
  | write addr byte next ih => simp only [silent, accesses, ih]
  | input port next ih => simp only [silent, accesses, ih]
  | output port byte next ih => simp only [silent, accesses, ih]
  | note event next ih => exact ih _

/-! Whatever the bus answers -/

/-- `p` holds of the result and of all accesses, those in `seen` coming first, whatever the answers are. -/
def Always (p : α → List Access → Prop) : Dialogue α → List Access → Prop
  | done a, seen => p a seen
  | read addr next, seen => ∀ b, (next b).Always p (seen ++ [.read addr b])
  | write addr byte next, seen => next.Always p (seen ++ [.write addr byte])
  | input port next, seen => ∀ b, (next b).Always p (seen ++ [.input port b])
  | output port byte next, seen => next.Always p (seen ++ [.output port byte])
  | note _ next, seen => next.Always p seen

@[simp] lemma always_bind {p : β → List Access → Prop} (d : Dialogue α) (f : α → Dialogue β) (seen : List Access) :
    (d.bind f).Always p seen ↔ d.Always (fun a seen => (f a).Always p seen) seen := by
  induction d generalizing seen with
  | done => rfl
  | read addr next ih => simp only [bind, Always, ih]
  | write addr byte next ih => simp only [bind, Always, ih]
  | input port next ih => simp only [bind, Always, ih]
  | output port byte next ih => simp only [bind, Always, ih]
  | note event next ih => simp only [bind, Always, ih]

section

variable {p : α → List Access → Prop} {seen : List Access}

@[simp] lemma always_done (a : α) : (done a).Always p seen ↔ p a seen := Iff.rfl

@[simp] lemma always_readByte {p : UInt8 → List Access → Prop} (addr : UInt16) :
    (readByte addr).Always p seen ↔ ∀ b, p b (seen ++ [.read addr b]) := Iff.rfl

@[simp] lemma always_writeByte {p : Unit → List Access → Prop} (addr : UInt16) (byte : UInt8) :
    (writeByte addr byte).Always p seen ↔ p () (seen ++ [.write addr byte]) := Iff.rfl

@[simp] lemma always_inputByte {p : UInt8 → List Access → Prop} (port : UInt8) :
    (inputByte port).Always p seen ↔ ∀ b, p b (seen ++ [.input port b]) := Iff.rfl

@[simp] lemma always_outputByte {p : Unit → List Access → Prop} (port byte : UInt8) :
    (outputByte port byte).Always p seen ↔ p () (seen ++ [.output port byte]) := Iff.rfl

@[simp] lemma always_remark {p : Unit → List Access → Prop} (event : Event) :
    (remark event).Always p seen ↔ p () seen := Iff.rfl

@[simp] lemma always_ite {q : Prop} [Decidable q] {d e : Dialogue α} :
    (if q then d else e).Always p seen ↔ if q then d.Always p seen else e.Always p seen := by
  split <;> rfl

end

lemma Always.mono {p q : α → List Access → Prop} (hpq : ∀ a seen, p a seen → q a seen) {d : Dialogue α}
    {seen : List Access} (h : d.Always p seen) : d.Always q seen := by
  induction d generalizing seen with
  | done a => exact hpq a seen h
  | read addr next ih => exact fun b => ih b (h b)
  | write addr byte next ih => exact ih h
  | input port next ih => exact fun b => ih b (h b)
  | output port byte next ih => exact ih h
  | note event next ih => exact ih h

theorem Always.run [Bus B] {p : α → List Access → Prop} {d : Dialogue α} {seen : List Access}
    (h : d.Always p seen) (bus : B) (log : Log) (traffic : Traffic) :
    p (d.run bus log traffic).result (seen ++ d.accesses bus) := by
  induction d generalizing seen bus log traffic with
  | done a => simpa [Dialogue.run, accesses, Always] using h
  | read addr next ih => simpa [Dialogue.run, accesses] using ih _ (h _) _ _ _
  | write addr byte next ih => simpa [Dialogue.run, accesses] using ih h _ _ _
  | input port next ih => simpa [Dialogue.run, accesses] using ih _ (h _) _ _ _
  | output port byte next ih => simpa [Dialogue.run, accesses] using ih h _ _ _
  | note event next ih => exact ih h _ _ _

theorem run_bus_of_asks [Bus B] [QuietBus B] (d : Dialogue α) (bus : B) (log : Log) (traffic : Traffic)
    (h : ∀ a ∈ d.accesses bus, a.asks) : (d.run bus log traffic).bus = bus := by
  induction d generalizing bus log traffic with
  | done => rfl
  | read addr next ih =>
    simp only [accesses, List.forall_mem_cons, QuietBus.bus_read] at h
    simpa only [run, QuietBus.bus_read] using ih _ _ _ _ h.2
  | write addr byte next ih => simp [accesses, Access.asks] at h
  | input port next ih =>
    simp only [accesses, List.forall_mem_cons, QuietBus.bus_input] at h
    simpa only [run, QuietBus.bus_input] using ih _ _ _ _ h.2
  | output port byte next ih => simp [accesses, Access.asks] at h
  | note event next ih => exact ih _ _ _ h

/-! Traffic -/

lemma run_traffic_ports [Bus B] (d : Dialogue α) (bus : B) (log : Log) (traffic : Traffic) :
    (d.run bus log traffic).traffic.ports = traffic.ports + (d.accesses bus).countP Access.isPort := by
  induction d generalizing bus log traffic with
  | done => rfl
  | read addr next ih => simp [run, accesses, ih]
  | write addr byte next ih => simp [run, accesses, ih]
  | input port next ih => simp [run, accesses, ih, List.countP_cons, Nat.add_assoc, Nat.add_comm 1]
  | output port byte next ih => simp [run, accesses, ih, List.countP_cons, Nat.add_assoc, Nat.add_comm 1]
  | note event next ih => exact ih _ _ _

lemma run_traffic_video_le [Bus B] (d : Dialogue α) (bus : B) (log : Log) (traffic : Traffic) :
    (d.run bus log traffic).traffic.video ≤ traffic.video + (d.accesses bus).countP (!·.isPort) := by
  induction d generalizing bus log traffic with
  | done => exact Nat.le_add_right _ _
  | read addr next ih =>
    have hm := traffic.atAddress_video_le bus addr
    have hn := ih (Bus.read bus addr).1 (Bus.read bus addr).2 log (traffic.atAddress bus addr)
    simp only [run, accesses, List.countP_cons, Access.isPort_read, Bool.not_false, if_true]
    omega
  | write addr byte next ih =>
    have hm := traffic.atAddress_video_le bus addr
    have hn := ih (Bus.write bus addr byte) (log.addAll (Bus.writeRemark bus addr byte).toList)
      (traffic.atAddress bus addr)
    simp only [run, accesses, List.countP_cons, Access.isPort_write, Bool.not_false, if_true]
    omega
  | input port next ih => simpa [run, accesses] using ih _ _ _ traffic.atPort
  | output port byte next ih => simpa [run, accesses] using ih _ _ traffic.atPort
  | note event next ih => exact ih _ _ _

end Dialogue

end Z80Machine
