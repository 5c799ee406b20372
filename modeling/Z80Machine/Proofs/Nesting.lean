import Z80Machine.Proofs.Remarks
import Z80Machine.Proofs.Rounds

/-! The stack through any nesting of calls, interrupts, pushes and pops. What is popped is what the matching push put
there, wherever in memory the stack lies, and a stack pointer that wraps does so with a warning. -/

namespace Z80Machine

open Bus

inductive Transfer where
  | push (word : UInt16)
  | pop (word : UInt16)

namespace Transfer

/-- From one depth to another, by pushes and pops that stay between no words and `m` of them. -/
inductive Nested (m : Nat) : Nat → List Transfer → Nat → Prop where
  | done (n : Nat) : Nested m n [] n
  | push {n k : Nat} {ts : List Transfer} (word : UInt16) (h : n < m) (rest : Nested m (n + 1) ts k) :
      Nested m n (.push word :: ts) k
  | pop {n k : Nat} {ts : List Transfer} (word : UInt16) (rest : Nested m n ts k) : Nested m (n + 1) (.pop word :: ts) k

/-- The words that lie on a stack before and after, the last one first: each pop gives what was pushed last. -/
inductive Lifo : List UInt16 → List Transfer → List UInt16 → Prop where
  | done (stack : List UInt16) : Lifo stack [] stack
  | push {stack left : List UInt16} {ts : List Transfer} {word : UInt16} (rest : Lifo (word :: stack) ts left) :
      Lifo stack (.push word :: ts) left
  | pop {stack left : List UInt16} {ts : List Transfer} {word : UInt16} (rest : Lifo stack ts left) :
      Lifo (word :: stack) (.pop word :: ts) left

def Passes (sp : UInt16) : Transfer → Prop
  | push _ => (sp.toNat : Int) - 2 < 0
  | pop _ => 0xFFFF < sp.toNat + 2

instance (sp : UInt16) (t : Transfer) : Decidable (t.Passes sp) := by
  cases t
  · exact inferInstanceAs (Decidable (_ < _))
  · exact inferInstanceAs (Decidable (_ < _))

def warning (pc : UInt16) : Transfer → Event
  | push _ => .pushWrapped pc
  | pop _ => .popWrapped pc

def remarks (t : Transfer) (sp pc : UInt16) : List Event :=
  if t.Passes sp then [t.warning pc] else []

lemma isWrap_of_mem_remarks {t : Transfer} {sp pc : UInt16} {e : Event} (h : e ∈ t.remarks sp pc) :
    e.isWrap = true := by
  rw [remarks] at h
  split at h
  · obtain rfl := List.mem_singleton.mp h
    cases t <;> rfl
  · cases h

lemma heeds_remarks {l : Log} (hgate : l.gate.admits .warn = true) (t : Transfer) (sp pc : UInt16) :
    l.heeds (t.remarks sp pc) = t.remarks sp pc := by
  rw [Log.heeds, if_pos hgate, List.filter_eq_self]
  exact fun e => isWrap_of_mem_remarks

end Transfer

namespace Op

def pushes (r : Registers) : Op → Option UInt16
  | push pair => some (r.getPair pair)
  | call cond _ => if r.meets cond then some r.pc else none
  | rst _ => some r.pc
  | _ => none

def pops (r left : Registers) : Op → Option UInt16
  | pop pair => some (left.getPair pair)
  | ret cond => if r.meets cond then some left.pc else none
  | retn | reti => some left.pc
  | _ => none

end Op

/-! Single operations -/

section

variable {B : Type} [Bus B] (b : B) (log : Log) (traffic : Traffic) (r : Registers)

lemma Stack.notes_push (word : UInt16) : (push word r).notes b = (Transfer.push word).remarks r.sp r.pc := by
  have hpasses : (Transfer.push word).Passes r.sp ↔ r.sp < 2 := by
    simp only [Transfer.Passes, UInt16.lt_iff_toNat_lt, UInt16.reduceToNat]
    omega
  simp only [push, Transfer.remarks, hpasses]
  split <;> rfl

lemma Stack.notes_pop (word : UInt16) : (pop r).notes b = (Transfer.pop word).remarks r.sp r.pc := by
  have hpasses : (Transfer.pop word).Passes r.sp ↔ r.sp > 0xFFFD := by
    simp only [Transfer.Passes, gt_iff_lt, UInt16.lt_iff_toNat_lt, UInt16.reduceToNat]
    omega
  simp only [pop, Transfer.remarks, hpasses]
  split <;> rfl

lemma Stack.run_push_done (word : UInt16) (f : Registers → Registers) (extra : Nat) (hf : ∀ s, (f s).sp = s.sp) :
    let d := (push word r).bind fun s => .done (f s, extra)
    let t := d.run b log traffic
    t.result.1.sp = r.sp - 2 ∧ t.bus = pushed b r.sp word ∧ d.notes b = (Transfer.push word).remarks r.sp r.pc := by
  obtain ⟨hresult, hbus⟩ := Op.run_push b log traffic word r
  simp only [notes_push, Dialogue.run_bind, Dialogue.run, Dialogue.notes_bind _ _ b log traffic, Dialogue.notes,
    List.append_nil, hresult, hf]
  exact ⟨trivial, hbus, trivial⟩

lemma Stack.run_pop_done [SteadyBus B] (word : UInt16) (f : UInt16 → Registers → Registers) (extra : Nat)
    (g : Registers → UInt16) (hf : ∀ w s, (f w s).sp = s.sp) (hg : ∀ w s, g (f w s) = w) :
    let d := (pop r).bind fun s => .done (f s.1 s.2, extra)
    let t := d.run b log traffic
    t.result.1.sp = r.sp + 2 ∧ t.bus = b ∧ d.notes b = (Transfer.pop word).remarks r.sp r.pc ∧
      g t.result.1 = Word.ofBytes (peek b (r.sp + 1)) (peek b r.sp) := by
  obtain ⟨hresult, hbus⟩ := Op.run_pop b log traffic r
  simp only [notes_pop b r word, Dialogue.run_bind, Dialogue.run, Dialogue.notes_bind _ _ b log traffic,
    Dialogue.notes, List.append_nil, hresult, hf, hg]
  exact ⟨trivial, hbus, trivial, trivial⟩

variable {op : Op} {word : UInt16} (address : UInt16)

lemma Op.run_pushes (h : op.pushes r = some word) :
    let d := op.onRegisters address r
    let t := d.run b log traffic
    t.result.1.sp = r.sp - 2 ∧ t.bus = pushed b r.sp word ∧ d.notes b = (Transfer.push word).remarks r.sp r.pc := by
  cases op with
  | push pair =>
    obtain rfl : _ = word := Option.some.inj h
    exact Stack.run_push_done b log traffic r _ id 0 fun _ => rfl
  | call cond addr =>
    cases hcond : r.meets cond with
    | false => simp [pushes, hcond] at h
    | true =>
      obtain rfl : r.pc = word := by simpa [pushes, hcond] using h
      simp only [onRegisters, hcond, if_true]
      exact Stack.run_push_done b log traffic r _ (fun s => { s with pc := addr }) _ fun _ => rfl
  | rst vector =>
    obtain rfl : _ = word := Option.some.inj h
    exact Stack.run_push_done b log traffic r _ (fun s => { s with pc := vector.toUInt16 }) 0 fun _ => rfl
  | _ => cases h

variable [SteadyBus B]

lemma Op.run_pops (hpaired : op.Paired)
    (h : op.pops r ((op.onRegisters address r).run b log traffic).result.1 = some word) :
    let d := op.onRegisters address r
    let t := d.run b log traffic
    t.result.1.sp = r.sp + 2 ∧ t.bus = b ∧ d.notes b = (Transfer.pop word).remarks r.sp r.pc ∧
      word = Word.ofBytes (peek b (r.sp + 1)) (peek b r.sp) := by
  cases op with
  | pop pair =>
    obtain rfl : _ = word := Option.some.inj h
    refine Stack.run_pop_done b log traffic r _ (fun w s => s.setPair pair w) 0 (·.getPair pair) (fun w s => ?_)
      fun w s => s.getPair_setPair pair w
    cases pair with
    | sp => exact absurd rfl hpaired
    | _ => rfl
  | ret cond =>
    cases hcond : r.meets cond with
    | false => simp [pops, hcond] at h
    | true =>
      obtain rfl : _ = word := Option.some.inj (show some _ = some word by simpa [pops, hcond] using h)
      simp only [onRegisters, hcond, if_true]
      exact Stack.run_pop_done b log traffic r _ (fun pc s => { s with pc }) _ Registers.pc (fun _ _ => rfl)
        fun _ _ => rfl
  | retn | reti =>
    obtain rfl : _ = word := Option.some.inj h
    exact Stack.run_pop_done b log traffic r _ (fun pc s => { s with pc, iff1 := s.iff2 }) 0 Registers.pc
      (fun _ _ => rfl) fun _ _ => rfl
  | _ => cases h

end

/-! Single steps -/

namespace Cpu

variable {B : Type} [Bus B]

inductive Transfers (c : Cpu B) (budget : Nat) : Transfer → Prop where
  | response {kind : Interrupt} (hk : c.stepKind budget = .response kind) : Transfers c budget (.push c.regs.pc)
  | push {word : UInt16} (hk : c.stepKind budget = .instruction)
      (hw : (c.core.upcoming c.bus).op.pushes (c.core.behind (c.core.upcoming c.bus)) = some word) :
      Transfers c budget (.push word)
  | pop {word : UInt16} (hk : c.stepKind budget = .instruction)
      (hw : (c.core.upcoming c.bus).op.pops (c.core.behind (c.core.upcoming c.bus)) (c.step budget).2.regs = some word) :
      Transfers c budget (.pop word)

def workPc (c : Cpu B) (budget : Nat) : UInt16 :=
  match c.stepKind budget with
  | .instruction => (c.core.behind (c.core.upcoming c.bus)).pc
  | _ => c.regs.pc

variable {c : Cpu B} {budget : Nat} {word : UInt16}

lemma step_operated (hk : c.stepKind budget = .instruction) :
    (c.step budget).2.regs = (c.core.operated c.bus).result.1 ∧
      (c.step budget).2.bus = (c.core.operated c.bus).bus := by
  have hstep := c.stepped budget
  rw [hk] at hstep
  obtain ⟨-, hmachine, -⟩ := hstep.of_instruction
  have hregs : (c.step budget).2.regs = c.outcome.core.regs := congrArg (·.core.regs) hmachine
  have hbus : (c.step budget).2.bus = c.outcome.bus := congrArg Machine.bus hmachine
  exact ⟨hregs.trans (congrArg Core.regs (c.core.outcome_core c.bus c.clock.mode)),
    hbus.trans (c.core.untraced_bus c.bus)⟩

variable [SteadyBus B]

lemma response_pushes (c : Cpu B) (kind : Interrupt) :
    let t := (c.response kind).run c.bus {} {}
    t.result.1.sp = c.regs.sp - 2 ∧ t.bus = pushed c.bus c.regs.sp c.regs.pc ∧
      (c.response kind).notes c.bus = (Transfer.push c.regs.pc).remarks c.regs.sp c.regs.pc := by
  cases kind with
  | nonMaskable =>
    obtain ⟨hresult, hbus⟩ := Op.run_push c.bus {} {} c.regs.pc { c.regs with iff1 := false }
    simp only [response, enterNmi, Dialogue.bind_eq, Dialogue.pure_eq, Dialogue.run_bind, Dialogue.run,
      Dialogue.notes_bind _ _ c.bus {} {}, Dialogue.notes, List.append_nil, hresult]
    exact ⟨trivial, hbus, Stack.notes_push _ _ _⟩
  | maskable =>
    obtain ⟨hresult, hbus⟩ := Op.run_push c.bus {} {} c.regs.pc (c.regs.setInterrupts false)
    have hpush := Stack.notes_push c.bus (c.regs.setInterrupts false) c.regs.pc
    simp only [response, enterMaskable, Dialogue.bind_eq, Dialogue.pure_eq, Dialogue.run_bind,
      Dialogue.notes_bind _ _ c.bus {} {}, hresult]
    split
    · simp only [Dialogue.readWord, Dialogue.readByte, Dialogue.bind_eq, Dialogue.pure_eq, Dialogue.bind, Dialogue.run,
        Dialogue.notes, SteadyBus.bus_read, List.append_nil]
      exact ⟨rfl, hbus, hpush⟩
    · simp only [Dialogue.run, Dialogue.notes, List.append_nil]
      exact ⟨rfl, hbus, hpush⟩

theorem Transfers.pushed (h : c.Transfers budget (.push word)) :
    (c.step budget).2.regs.sp = c.regs.sp - 2 ∧ (c.step budget).2.bus = Bus.pushed c.bus c.regs.sp word := by
  cases h with
  | response hk =>
    obtain ⟨hsp, hbus, -⟩ := c.response_pushes _
    have hstep := c.stepped budget
    rw [hk] at hstep
    obtain ⟨-, -, hmachine, -⟩ := hstep.of_response
    exact ⟨(congrArg (·.core.regs.sp) hmachine).trans hsp, (congrArg Machine.bus hmachine).trans hbus⟩
  | push hk hw =>
    obtain ⟨hregs, hbus⟩ := step_operated hk
    obtain ⟨hsp, hpushed, -⟩ := Op.run_pushes (c.core.fetched c.bus).bus (c.core.fetched c.bus).log
      (c.core.fetched c.bus).traffic _ (c.core.upcoming c.bus).address hw
    have hfetched := congrArg (Bus.pushed · c.regs.sp word) (c.core.fetched_bus c.bus)
    exact ⟨(congrArg Registers.sp hregs).trans hsp, (hbus.trans hpushed).trans hfetched⟩

theorem Transfers.popped (h : c.Transfers budget (.pop word)) :
    (c.step budget).2.regs.sp = c.regs.sp + 2 ∧ (c.step budget).2.bus = c.bus ∧
      word = Word.ofBytes (peek c.bus (c.regs.sp + 1)) (peek c.bus c.regs.sp) := by
  cases h with
  | pop hk hw =>
    obtain ⟨hregs, hbus⟩ := step_operated hk
    rw [hregs] at hw
    obtain ⟨hsp, hsame, -, hword⟩ := Op.run_pops (c.core.fetched c.bus).bus (c.core.fetched c.bus).log
      (c.core.fetched c.bus).traffic _ (c.core.upcoming c.bus).address (c.core.upcoming_paired c.bus) hw
    rw [Core.fetched_bus] at hword
    exact ⟨(congrArg Registers.sp hregs).trans hsp, (hbus.trans hsame).trans (c.core.fetched_bus c.bus), hword⟩

theorem Transfers.warns [TacitBus B] {t : Transfer} (h : c.Transfers budget t) : (c.step budget).2.log.wraps =
    c.log.wraps ++ c.log.heeds (t.remarks c.regs.sp (c.workPc budget)) := by
  cases h with
  | response hk =>
    obtain ⟨-, -, hnotes⟩ := c.response_pushes _
    rw [wraps_of_response hk, hnotes, workPc, hk]
  | push hk hw =>
    obtain ⟨-, -, hnotes⟩ := Op.run_pushes (c.core.fetched c.bus).bus (c.core.fetched c.bus).log
      (c.core.fetched c.bus).traffic _ (c.core.upcoming c.bus).address hw
    rw [wraps_of_instruction hk, Core.upcomingOperation, hnotes, workPc, hk]
    rfl
  | pop hk hw =>
    rw [(step_operated hk).1] at hw
    obtain ⟨-, -, hnotes, -⟩ := Op.run_pops (c.core.fetched c.bus).bus (c.core.fetched c.bus).log
      (c.core.fetched c.bus).traffic _ (c.core.upcoming c.bus).address (c.core.upcoming_paired c.bus) hw
    rw [wraps_of_instruction hk, Core.upcomingOperation, hnotes, workPc, hk]
    rfl

/-! Many steps -/

/-- Between one transfer and the next, whatever leaves the stack pointer and the memory alone. -/
structure Aside (c d : Cpu B) : Prop where
  sp : d.regs.sp = c.regs.sp
  memory : ∀ x, peek d.bus x = peek c.bus x
  flat : Flat d.bus

inductive Stacks : Cpu B → List Transfer → Cpu B → Prop where
  | done {c d : Cpu B} (aside : Aside c d) : Stacks c [] d
  | next {c d e : Cpu B} {t : Transfer} {ts : List Transfer} (aside : Aside c d) (budget : Nat)
      (h : d.Transfers budget t) (rest : Stacks (d.step budget).2 ts e) : Stacks c (t :: ts) e

end Cpu

namespace Bus

variable {B : Type} [Bus B] {b : B}

def Below (sp : UInt16) (n : Nat) (x : UInt16) : Prop :=
  (sp - 1 - x).toNat < n

def bytesOf : List UInt16 → List UInt8
  | [] => []
  | w :: ws => Word.low w :: Word.high w :: bytesOf ws

def HoldsWords (b : B) (sp : UInt16) (stack : List UInt16) : Prop :=
  Holds b sp (bytesOf stack)

lemma length_bytesOf (ws : List UInt16) : (bytesOf ws).length = 2 * ws.length := by
  induction ws with
  | nil => rfl
  | cons w ws ih => exact congrArg (· + 2) ih

lemma distance_of_mem_cells {addr x : UInt16} {n : Nat} (hn : n ≤ 65536) (h : x ∈ cells addr n) :
    (x - addr).toNat < n := by
  induction n generalizing addr with
  | zero => cases h
  | succ n ih =>
    obtain rfl | h := List.mem_cons.mp h
    · simp
    · have hlt := ih (Nat.le_of_succ_le hn) h
      rw [UInt16.toNat_sub] at hlt ⊢
      have haddr := addr.toNat_lt
      have hx := x.toNat_lt
      rw [UInt16.toNat_add] at hlt
      simp at hlt
      omega

lemma Flat.room (h : Flat b) (sp : UInt16) : Room b sp :=
  ⟨h.peek_write (sp - 1), fun byte => (h.write (sp - 1) byte).peek_write (sp - 2)⟩

lemma HoldsWords.push {sp : UInt16} {stack : List UInt16} (h : HoldsWords b sp stack) (hroom : Room b sp)
    (hlen : stack.length < 32768) (word : UInt16) : HoldsWords (pushed b sp word) (sp - 2) (word :: stack) := by
  have hbytes := length_bytesOf stack
  have hback : sp - 2 + 1 + 1 = sp := by grind
  refine holds_cons.mpr ⟨low_pushed hroom word, holds_cons.mpr ⟨high_pushed hroom word, ?_⟩⟩
  rw [hback]
  -- The words that lie there take up at most all but the two bytes below the stack pointer.
  refine Holds.pushed hroom word h fun x hx => ?_
  rw [hbytes] at hx
  have hlt := distance_of_mem_cells (by omega) hx
  constructor
  · rintro rfl
    rw [show sp - 1 - sp = 65535 by grind] at hlt
    exact absurd hlt (by simp; omega)
  · rintro rfl
    rw [show sp - 2 - sp = 65534 by grind] at hlt
    exact absurd hlt (by simp; omega)

lemma HoldsWords.pop {sp word : UInt16} {stack : List UInt16} (h : HoldsWords b sp (word :: stack)) :
    Word.ofBytes (peek b (sp + 1)) (peek b sp) = word ∧ HoldsWords b (sp + 2) stack := by
  obtain ⟨hlow, h⟩ := holds_cons.mp h
  obtain ⟨hhigh, h⟩ := holds_cons.mp h
  rw [hlow, hhigh, Word.ofBytes_high_low, show sp + 2 = sp + 1 + 1 by grind]
  exact ⟨rfl, h⟩

lemma HoldsWords.congr {b' : B} {sp : UInt16} {stack : List UInt16} (h : HoldsWords b sp stack)
    (hsame : ∀ x, peek b' x = peek b x) : HoldsWords b' sp stack :=
  Holds.congr h fun x _ => hsame x

lemma below_pushed {n m : Nat} (hn : n < m) (hm : m ≤ 32768) (base : UInt16) :
    Below base (2 * m) (base - UInt16.ofNat (2 * n) - 1) ∧ Below base (2 * m) (base - UInt16.ofNat (2 * n) - 2) := by
  have hfirst : base - 1 - (base - UInt16.ofNat (2 * n) - 1) = UInt16.ofNat (2 * n) := by grind
  have hsecond : base - 1 - (base - UInt16.ofNat (2 * n) - 2) = UInt16.ofNat (2 * n) + 1 := by grind
  rw [Below, Below, hfirst, hsecond, UInt16.toNat_add, UInt16.toNat_ofNat']
  simp
  omega

lemma sub_ofNat_succ (base : UInt16) (n : Nat) :
    base - UInt16.ofNat (2 * (n + 1)) = base - UInt16.ofNat (2 * n) - 2 := by
  rw [Nat.mul_add, UInt16.ofNat_add]
  grind

end Bus

namespace Cpu

variable {B : Type} [Bus B] [SteadyBus B] {c d : Cpu B}

open Transfer

theorem Stacks.lifo {ts : List Transfer} {stack : List UInt16} {base : UInt16} {m n k : Nat} (h : c.Stacks ts d)
    (hn : Nested m n ts k) (hlen : stack.length = n) (hm : m ≤ 32768) (hflat : Flat c.bus)
    (hsp : c.regs.sp = base - UInt16.ofNat (2 * n)) (hb : HoldsWords c.bus c.regs.sp stack) :
    ∃ left, left.length = k ∧ Lifo stack ts left ∧ d.regs.sp = base - UInt16.ofNat (2 * k) ∧
      ∀ x, ¬Below base (2 * m) x → peek d.bus x = peek c.bus x := by
  induction h generalizing stack n with
  | done aside =>
    cases hn
    exact ⟨stack, hlen, .done stack, aside.sp.trans hsp, fun x _ => aside.memory x⟩
  | @next c d e t ts aside budget h rest ih =>
    rw [← aside.sp] at hsp hb
    replace hb := hb.congr aside.memory
    cases hn with
    | push word hlt hrest =>
      obtain ⟨hsp', hbus⟩ := h.pushed
      have hroom := aside.flat.room d.regs.sp
      have hlen' : (word :: stack).length = n + 1 := congrArg (· + 1) hlen
      have hflat' : Flat (d.step budget).2.bus := hbus ▸ (aside.flat.write _ _).write _ _
      have hb' : HoldsWords (d.step budget).2.bus (d.step budget).2.regs.sp (word :: stack) := by
        rw [hbus, hsp']
        exact hb.push hroom (by omega) word
      have hbase : (d.step budget).2.regs.sp = base - UInt16.ofNat (2 * (n + 1)) := by
        rw [hsp', hsp, sub_ofNat_succ]
      obtain ⟨left, hleft, hlifo, hend, hmemory⟩ := ih hrest hlen' hflat' hbase hb'
      refine ⟨left, hleft, .push hlifo, hend, fun x hx => ?_⟩
      obtain ⟨hhigh, hlow⟩ := below_pushed hlt hm base
      rw [← hsp] at hhigh hlow
      have hne (y : UInt16) (hy : Below base (2 * m) y) : x ≠ y := fun h => hx (h ▸ hy)
      rw [hmemory x hx, hbus, peek_pushed hroom, if_neg (hne _ hlow), if_neg (hne _ hhigh), aside.memory]
    | @pop n _ _ word hrest =>
      obtain ⟨hsp', hbus, hword⟩ := h.popped
      obtain ⟨top, stack, rfl⟩ := List.exists_cons_of_length_eq_add_one hlen
      obtain ⟨htop, hb'⟩ := hb.pop
      rw [← hbus, ← hsp'] at hb'
      have hbase : (d.step budget).2.regs.sp = base - UInt16.ofNat (2 * n) := by
        rw [hsp', hsp, sub_ofNat_succ, UInt16.sub_add_cancel]
      obtain ⟨left, hleft, hlifo, hend, hmemory⟩ := ih hrest (Nat.succ.inj hlen) (hbus ▸ aside.flat) hbase hb'
      refine ⟨left, hleft, ?_, hend, fun x hx => ?_⟩
      · rw [hword.trans htop]
        exact .pop hlifo
      · rw [hmemory x hx, hbus, aside.memory]

/-- The stack is last-in first-out wherever the stack pointer starts and wherever it wraps, and up to `m` words, which may
be all of memory, it reaches no other cell. Each step that lets the stack pointer wrap says so, and no other does. -/
theorem stack_discipline [TacitBus B] {ts : List Transfer} {m k : Nat} (h : c.Stacks ts d) (hflat : Flat c.bus)
    (hm : m ≤ 32768) (hn : Nested m 0 ts k) :
    (∃ left, left.length = k ∧ Lifo [] ts left) ∧
      d.regs.sp = c.regs.sp - UInt16.ofNat (2 * k) ∧ (k = 0 → d.regs.sp = c.regs.sp) ∧
      (∀ x, ¬Below c.regs.sp (2 * m) x → peek d.bus x = peek c.bus x) ∧
      ∀ (e : Cpu B) budget t, e.Transfers budget t → e.log.gate.admits .warn = true →
        (e.step budget).2.log.wraps =
          e.log.wraps ++ if t.Passes e.regs.sp then [t.warning (e.workPc budget)] else [] := by
  have hstart : c.regs.sp = c.regs.sp - UInt16.ofNat (2 * 0) := (UInt16.sub_zero _).symm
  have hnone : HoldsWords c.bus c.regs.sp [] := rfl
  obtain ⟨left, hleft, hlifo, hend, hmemory⟩ := h.lifo hn List.length_nil hm hflat hstart hnone
  refine ⟨⟨left, hleft, hlifo⟩, hend, fun hk => ?_, hmemory, fun e budget t ht hgate => ?_⟩
  · rw [hend, hk]
    exact hstart.symm
  · rw [ht.warns, t.heeds_remarks hgate]
    rfl

theorem stack_discipline_wrapping :
    let c : Cpu FlatBus :=
      { bus := { ram := Ram.empty.setAll 0x66 [0xED, 0x45] }, core := { regs := { sp := 0, pc := 0x1234 } }
        pending := some .nonMaskable, log := { gate := .upTo .warn } }
    let inside := (c.step unbounded).2
    let back := (inside.step unbounded).2
    Flat c.bus ∧ back.regs.pc = 0x1234 ∧ back.regs.sp = 0 ∧
      (∀ x, ¬Below 0 2 x → peek back.bus x = peek c.bus x) ∧
      back.log.wraps = [.pushWrapped 0x1234, .popWrapped 0x68] := by
  intro c inside back
  have hflat : Flat c.bus := c.bus.flat
  have hresponse : c.stepKind unbounded = .response .nonMaskable := rfl
  have hinstruction : inside.stepKind unbounded = .instruction := by decide +kernel
  have hop : (inside.core.upcoming inside.bus).op = .retn := by decide +kernel
  have hpush : c.Transfers unbounded (.push 0x1234) := .response hresponse
  have hpop : inside.Transfers unbounded (.pop back.regs.pc) := .pop hinstruction (by rw [hop]; rfl)
  have hsame (d : Cpu FlatBus) : Aside d d := ⟨rfl, fun _ => rfl, d.bus.flat⟩
  have hsteps : c.Stacks [.push 0x1234, .pop back.regs.pc] back :=
    .next (hsame c) unbounded hpush (.next (hsame inside) unbounded hpop (.done (hsame back)))
  have hnested : Nested 1 0 [.push 0x1234, .pop back.regs.pc] 0 := .push _ Nat.one_pos (.pop _ (.done 0))
  obtain ⟨⟨left, -, hlifo⟩, -, hsp, hmemory, hwarns⟩ := stack_discipline hsteps hflat (by decide) hnested
  have hpc : back.regs.pc = 0x1234 := by
    generalize back.regs.pc = pc at hlifo
    obtain _ | ⟨⟨⟩⟩ := hlifo
    rfl
  have hfirst : inside.log.wraps = [.pushWrapped 0x1234] := hwarns c unbounded _ hpush rfl
  have hsecond := hwarns inside unbounded _ hpop (by decide +kernel)
  have hpasses : (Transfer.pop back.regs.pc).Passes inside.regs.sp := by
    rw [hpush.pushed.1]
    exact (by decide : 0xFFFF < 0xFFFE + 2)
  have hat : inside.workPc unbounded = 0x68 := by decide +kernel
  rw [hfirst, if_pos hpasses, hat] at hsecond
  exact ⟨hflat, hpc, hsp rfl, hmemory, hsecond⟩

end Cpu

end Z80Machine
