import Mathlib.Data.List.Infix
import Z80Machine.Proofs.Host

/-! What a detector does, newest first, whatever it is told. Its deeds come in an order: a loop is found on the strength
of steps noted since anything else was done, and is then skipped so many times at most. -/

namespace Z80Machine

namespace IdleConfig

structure InRange (c : IdleConfig) : Prop where
  threshold : 2 ≤ c.threshold ∧ c.threshold ≤ 10
  sleep : c.sleepMicros = 0 ∨ 100 ≤ c.sleepMicros

lemma clampThreshold_mem (n : Nat) : 2 ≤ clampThreshold n ∧ clampThreshold n ≤ 10 := by
  simp only [clampThreshold]
  omega

lemma inRange_normalized (c : IdleConfig) : c.normalized.InRange where
  threshold := clampThreshold_mem c.threshold
  sleep := by
    simp only [normalized, floorSleep]
    split <;> omega

lemma InRange.clampThreshold_eq {c : IdleConfig} (h : c.InRange) : clampThreshold c.threshold = c.threshold := by
  have := h.threshold
  simp only [clampThreshold]
  omega

end IdleConfig

namespace Idle

inductive Deed where
  | noted
  | found (loop : Loop)
  | skipped (loop : Loop)
  deriving DecidableEq, Repr

namespace Deed

def isFound : Deed → Bool
  | found _ => true
  | _ => false

def isSkip : Deed → Bool
  | skipped _ => true
  | _ => false

def saved : Deed → Nat
  | skipped loop => loop.cycles
  | _ => 0

/-- A loop is found right behind two rounds of noted steps, and skipped behind its finding and fewer skips than make a
burst. -/
def Orderly : List Deed → Prop
  | [] => True
  | noted :: ds => Orderly ds
  | found loop :: ds => List.replicate (2 * loop.length) noted <+: ds ∧ Orderly ds
  | skipped loop :: ds =>
    (∃ n < burstLimit, List.replicate n (skipped loop) ++ [found loop] <+: ds) ∧ Orderly ds

lemma Orderly.of_append {ds es : List Deed} (h : Orderly (ds ++ es)) : Orderly es := by
  induction ds with
  | nil => exact h
  | cons x ds ih =>
    cases x with
    | noted => exact ih h
    | found => exact ih h.2
    | skipped => exact ih h.2

lemma append_of_burst {loop : Loop} {n : Nat} {mid old ds : List Deed}
    (h : List.replicate n (skipped loop) ++ [found loop] ++ ds = mid ++ old) :
    (∃ es, List.replicate n (skipped loop) = mid ++ es ∧ old = es ++ found loop :: ds) ∨
      ∃ es, mid = List.replicate n (skipped loop) ++ found loop :: es ∧ ds = es ++ old := by
  rw [List.append_assoc, List.singleton_append] at h
  rcases List.append_eq_append_iff.mp h with ⟨es, hmid, hold⟩ | h
  · cases es with
    | nil => exact .inl ⟨[], by simpa using hmid.symm, hold.symm⟩
    | cons x es =>
      obtain ⟨rfl, hds⟩ := List.cons.inj hold
      exact .inr ⟨es, hmid, hds⟩
  · exact .inl h

lemma Orderly.countP_isSkip {mid old : List Deed} (h : Orderly (mid ++ old)) (hmid : ∀ x ∈ mid, x.isFound = false) :
    mid.countP isSkip ≤ burstLimit := by
  induction mid with
  | nil => exact Nat.zero_le _
  | cons x mid ih =>
    have hrest : ∀ x ∈ mid, x.isFound = false := fun y hy => hmid y (List.mem_cons_of_mem _ hy)
    cases x with
    | noted => exact ih h hrest
    | found loop => exact Bool.noConfusion (hmid _ List.mem_cons_self)
    | skipped loop =>
      obtain ⟨⟨n, hn, ds, hds⟩, -⟩ := h
      rcases append_of_burst hds with ⟨es, hrep, -⟩ | ⟨es, rfl, -⟩
      · have hlen := congrArg List.length hrep
        rw [List.length_replicate, List.length_append] at hlen
        have hcount := mid.countP_le_length (p := isSkip)
        rw [List.countP_cons_of_pos rfl]
        omega
      · exact Bool.noConfusion (hrest (found loop) (by simp))

lemma le_count_of_replicate {x y : Deed} (hne : y ≠ x) {n : Nat} {ds es : List Deed}
    (h : List.replicate n x <+: ds ++ y :: es) : n ≤ ds.count x := by
  induction ds generalizing n with
  | nil =>
    cases n with
    | zero => exact Nat.le_refl 0
    | succ n =>
      rw [List.replicate_succ, List.nil_append, List.cons_prefix_cons] at h
      exact absurd h.1.symm hne
  | cons z ds ih =>
    cases n with
    | zero => exact Nat.zero_le _
    | succ n =>
      rw [List.replicate_succ, List.cons_append, List.cons_prefix_cons] at h
      obtain ⟨rfl, h⟩ := h
      rw [List.count_cons_self]
      exact Nat.succ_le_succ (ih h)

lemma Orderly.renewed {loop loop' : Loop} {mid old : List Deed}
    (h : Orderly (skipped loop' :: (mid ++ skipped loop :: old))) :
    loop' = loop ∧ (∀ x ∈ mid, x.isFound = false) ∨ 2 * loop'.length ≤ mid.count noted := by
  obtain ⟨⟨n, -, ds, hds⟩, h⟩ := h
  rcases append_of_burst hds with ⟨es, hrep, hold⟩ | ⟨es, rfl, -⟩
  · have hmem : ∀ x ∈ mid ++ es, x = skipped loop' := by
      rw [← hrep]
      exact fun x => List.eq_of_mem_replicate
    cases es with
    | nil => cases hold
    | cons x es =>
      obtain ⟨rfl, -⟩ := List.cons.inj hold
      have hloop : skipped loop = skipped loop' := hmem _ (by simp)
      refine .inl ⟨(Deed.skipped.inj hloop).symm, fun x hx => ?_⟩
      rw [hmem x (List.mem_append_left _ hx)]
      rfl
  · refine .inr ?_
    rw [List.append_assoc] at h
    have hfound := h.of_append.1
    rw [List.count_append, List.count_cons_of_ne (by simp)]
    exact Nat.le_trans (le_count_of_replicate (by simp) hfound) (Nat.le_add_left _ _)

end Deed

namespace Detector

inductive Call where
  | setEnabled (on : Bool)
  | setThreshold (n : Nat)
  | setSleepMicros (micros : Nat)
  | forget
  | cancel (why : Release)
  | observe (step : Step) (safe : Bool) (after : Registers)
  | skip

def tell (d : Detector) : Call → Detector
  | .setEnabled on => (d.setEnabled on).value
  | .setThreshold n => (d.setThreshold n).value
  | .setSleepMicros micros => d.setSleepMicros micros
  | .forget => d.forget
  | .cancel why => (d.cancel why).value
  | .observe step safe after => (d.observe step safe after).value
  | .skip => d.active.elim d fun loop => (d.skip loop).value

def deeds (d : Detector) : Call → List Deed
  | .observe step safe after =>
    if d.config.enabled && d.active.isNone && safe then
      ((d.observe step safe after).value.active.map .found).toList ++ [.noted]
    else []
  | .skip => (d.active.map .skipped).toList
  | _ => []

structure Tracked (ds : List Deed) (d : Detector) : Prop where
  orderly : Deed.Orderly ds
  config : d.config.InRange
  room : d.history.length ≤ 2 * d.config.threshold
  noted : List.replicate d.history.length .noted <+: ds
  active : ∀ loop ∈ d.active, (d.config.enabled = true ∧ d.history = [] ∧ 2 ≤ loop.length ∧
    loop.length ≤ d.config.threshold) ∧ d.burst < burstLimit ∧
      List.replicate d.burst (.skipped loop) ++ [.found loop] <+: ds
  loops : d.stats.loops = ds.countP Deed.isFound
  iterations : d.stats.iterations = ds.countP Deed.isSkip
  cycles : d.stats.cycles = (ds.map Deed.saved).sum

lemma tracked_ofConfig (config : IdleConfig) : Tracked [] (ofConfig config) where
  orderly := trivial
  config := config.inRange_normalized
  room := Nat.zero_le _
  noted := List.nil_prefix
  active := nofun
  loops := rfl
  iterations := rfl
  cycles := rfl

lemma length_of_find {history : List Entry} {threshold : Nat} {loop : Loop} (h : find? history threshold = some loop) :
    2 ≤ loop.length ∧ loop.length ≤ threshold ∧ 2 * loop.length ≤ history.length := by
  simp only [find?, Option.bind_eq_bind, Option.bind_eq_some_iff, Option.pure_def, Option.some.injEq] at h
  obtain ⟨n, hfind, last, -, rfl⟩ := h
  have hmem := List.mem_of_find?_eq_some hfind
  have hrepeats := List.find?_some hfind
  rw [List.mem_range'_1] at hmem
  simp only [repeats, Bool.and_eq_true, decide_eq_true_eq] at hrepeats
  exact ⟨hmem.1, by dsimp only [loopOf]; omega, hrepeats.1⟩

namespace Tracked

variable {ds : List Deed} {d : Detector} (h : Tracked ds d)
include h

lemma of_empty {d' : Detector} (he : d'.Empty) (hc : d'.config.InRange) (hs : d'.stats = d.stats) : Tracked ds d' where
  orderly := h.orderly
  config := hc
  room := by simp [he.1]
  noted := by simp [he.1]
  active := by simp [he.2]
  loops := by rw [hs, h.loops]
  iterations := by rw [hs, h.iterations]
  cycles := by rw [hs, h.cycles]

lemma forget : Tracked ds d.forget :=
  h.of_empty (empty_forget d) h.config rfl

lemma setEnabled (on : Bool) : Tracked ds (d.setEnabled on).value := by
  cases on with
  | false => exact h.of_empty ⟨rfl, rfl⟩ ⟨h.config.threshold, h.config.sleep⟩ rfl
  | true =>
    exact { h with
      config := ⟨h.config.threshold, h.config.sleep⟩
      active := fun loop hl =>
        have ha := h.active loop hl
        ⟨⟨rfl, ha.1.2⟩, ha.2⟩ }

lemma setSleepMicros (micros : Nat) : Tracked ds (d.setSleepMicros micros) := by
  have hc : (d.setSleepMicros micros).config.threshold = d.config.threshold := h.config.clampThreshold_eq
  exact { h with
    config := IdleConfig.inRange_normalized _
    room := by rw [hc]; exact h.room
    active := fun loop hl => by rw [hc]; exact h.active loop hl }

lemma skip {loop : Loop} (ha : d.active = some loop) : Tracked (.skipped loop :: ds) (d.skip loop).value := by
  obtain ⟨hshape, hburst, hback⟩ := h.active loop ha
  have orderly : Deed.Orderly (.skipped loop :: ds) := ⟨⟨d.burst, hburst, hback⟩, h.orderly⟩
  have loops : d.stats.loops = (Deed.skipped loop :: ds).countP Deed.isFound := by
    rw [List.countP_cons_of_neg (by simp [Deed.isFound]), h.loops]
  have iterations : d.stats.iterations + 1 = (Deed.skipped loop :: ds).countP Deed.isSkip := by
    rw [List.countP_cons_of_pos rfl, h.iterations]
  have cycles : d.stats.cycles + loop.cycles = ((Deed.skipped loop :: ds).map Deed.saved).sum := by
    rw [List.map_cons, List.sum_cons, h.cycles, Nat.add_comm, Deed.saved]
  have hnoted : d.history = [] := hshape.2.1
  unfold Detector.skip
  dsimp only
  split
  case isTrue hlt =>
    refine ⟨orderly, h.config, h.room, by simp [hnoted], fun loop' hl => ?_, loops, iterations, cycles⟩
    obtain rfl : loop = loop' := Option.some.inj (ha.symm.trans hl)
    exact ⟨hshape, hlt, List.cons_prefix_cons.mpr ⟨rfl, hback⟩⟩
  case isFalse =>
    exact ⟨orderly, h.config, Nat.zero_le _, List.nil_prefix, nofun, loops, iterations, cycles⟩

lemma replicate_note (step : Step) (after : Registers) :
    List.replicate ((⟨step, after⟩ :: d.history).take (2 * d.config.threshold)).length Deed.noted <+: .noted :: ds := by
  have hlen : ((⟨step, after⟩ :: d.history).take (2 * d.config.threshold)).length ≤ d.history.length + 1 :=
    List.length_take_le' _ _
  refine List.IsPrefix.trans ?_ (List.cons_prefix_cons.mpr ⟨rfl, h.noted⟩)
  rw [← List.replicate_succ]
  exact List.prefix_replicate_iff.mpr ⟨by rwa [List.length_replicate], by rw [List.length_replicate]⟩

lemma stepNoted (ha : d.active = none) {history : List Entry} (hroom : history.length ≤ 2 * d.config.threshold)
    (hnoted : List.replicate history.length Deed.noted <+: .noted :: ds) :
    Tracked (.noted :: ds) { d with history } where
  orderly := h.orderly
  config := h.config
  room := hroom
  noted := hnoted
  active := by simp [ha]
  loops := by rw [List.countP_cons_of_neg (by simp [Deed.isFound]), h.loops]
  iterations := by rw [List.countP_cons_of_neg (by simp [Deed.isSkip]), h.iterations]
  cycles := by simpa [Deed.saved] using h.cycles

lemma loopFound (hon : d.config.enabled = true) {loop : Loop} (h2 : 2 ≤ loop.length)
    (hle : loop.length ≤ d.config.threshold) (hrounds : List.replicate (2 * loop.length) Deed.noted <+: ds) :
    Tracked (.found loop :: ds)
      { d with
        history := [], active := some loop, burst := 0
        stats := { d.stats with loops := d.stats.loops + 1 } } where
  orderly := ⟨hrounds, h.orderly⟩
  config := h.config
  room := Nat.zero_le _
  noted := List.nil_prefix
  active := by
    rintro loop' ⟨⟩
    exact ⟨⟨hon, rfl, h2, hle⟩, Nat.succ_pos _, List.prefix_append _ _⟩
  loops := by rw [List.countP_cons_of_pos rfl, h.loops]
  iterations := by rw [List.countP_cons_of_neg (by simp [Deed.isSkip]), h.iterations]
  cycles := by simpa [Deed.saved] using h.cycles

lemma observe (step : Step) (safe : Bool) (after : Registers) :
    Tracked (d.deeds (.observe step safe after) ++ ds) (d.observe step safe after).value := by
  by_cases hon : d.config.enabled = true ∧ d.active = none
  case neg =>
    rw [not_and_or, Bool.not_eq_true, ← ne_eq, Option.ne_none_iff_exists'] at hon
    rcases hon with hoff | ⟨loop, ha⟩
    · simpa [deeds, Detector.observe, hoff] using h
    · simpa [deeds, Detector.observe, ha] using h
  obtain ⟨hon, ha⟩ := hon
  cases safe with
  | false =>
    have hempty : Empty { d with history := [] } := ⟨rfl, ha⟩
    simpa [deeds, Detector.observe, hon, ha] using h.of_empty hempty h.config rfl
  | true =>
    have hnoted := h.replicate_note step after
    have htracked := h.stepNoted ha (List.length_take_le _ _) hnoted
    cases hfind : find? ((⟨step, after⟩ :: d.history).take (2 * d.config.threshold)) d.config.threshold with
    | none => simpa [deeds, Detector.observe, hon, ha, hfind] using htracked
    | some loop =>
      obtain ⟨h2, hle, hlen⟩ := length_of_find hfind
      have hrounds : List.replicate (2 * loop.length) Deed.noted <+: .noted :: ds :=
        (List.prefix_replicate_iff.mpr ⟨by rwa [List.length_replicate], by rw [List.length_replicate]⟩).trans hnoted
      simpa [deeds, Detector.observe, hon, ha, hfind] using htracked.loopFound hon h2 hle hrounds

lemma tell (x : Call) : Tracked (d.deeds x ++ ds) (d.tell x) := by
  cases x with
  | setEnabled on => exact h.setEnabled on
  | setThreshold n =>
    exact h.of_empty (empty_forget _) ⟨IdleConfig.clampThreshold_mem n, h.config.sleep⟩ rfl
  | setSleepMicros micros => exact h.setSleepMicros micros
  | forget => exact h.forget
  | cancel why => exact h.forget
  | observe step safe after => exact h.observe step safe after
  | skip =>
    cases ha : d.active with
    | none => simpa [deeds, Detector.tell, ha] using h
    | some loop => simpa [deeds, Detector.tell, ha] using h.skip ha

end Tracked

end Detector

end Idle

end Z80Machine
