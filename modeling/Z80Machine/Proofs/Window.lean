import Mathlib.Algebra.Order.BigOperators.Group.List
import Z80Machine.Proofs.Deeds
import Z80Machine.Proofs.Orbit
import Z80Machine.Proofs.Widths

/-! The detector's window, oldest step first, with every index checked. The search for a loop goes by positions from its
beginning; that it sees what the search from its end sees, and no position outside, hangs on how long it may get. -/

namespace Z80Machine.Idle

open Width

structure Stats.Fits (s : Stats) : Prop where
  loops : s.loops < 2 ^ 64
  iterations : s.iterations < 2 ^ 64
  cycles : s.cycles < 2 ^ 64

namespace Detector

def slice (past : List Entry) (i j : Nat) : Option (List Entry) :=
  if i ≤ j ∧ j ≤ past.length then some ((past.drop i).take (j - i)) else none

/-- The first of these lengths that the window ends with two equal rounds of, as a loop. Sums of T-states have 32 bits
and sums of fetches 8. -/
def checkedSeek (past : List Entry) (after : Registers) : List Nat → Option (Option Loop)
  | [] => some none
  | len :: lens => do
    if past.length < (← times 64 len 2) then return none
    let first ← minus past.length len
    let start ← past[first]?
    if after.pc != start.step.pc then checkedSeek past after lens
    else
      let recent ← slice past first past.length
      let previous ← slice past (← minus past.length (← times 64 2 len)) first
      if recent.map Entry.step != previous.map Entry.step then checkedSeek past after lens
      else
        let before ← past[← minus (← minus past.length 1) len]?
        if !before.after.sameButRefresh after then checkedSeek past after lens
        else
          let cycles ← (recent.map (·.step.cycles)).foldlM (plus 32) 0
          let fetches ← (recent.map (·.step.fetches)).foldlM (plus 8) 0
          return some { start := start.step.pc, length := len, cycles, fetches }

def checkedObserve (d : Detector) (step : Step) (safe : Bool) (after : Registers) : Option (Logged Detector) := do
  if !d.config.enabled || d.active.isSome then return { value := d }
  else if !safe then return { value := { d with history := [] } }
  else
    let room ← times 64 d.config.threshold 2
    let history := ({ step, after } :: d.history).take room
    match ← checkedSeek history.reverse after (List.range' 2 (d.config.threshold - 1)) with
    | none => return { value := { d with history } }
    | some loop =>
      let loops ← plus 64 d.stats.loops 1
      return {
        value := { d with history := [], active := some loop, burst := 0, stats := { d.stats with loops } }
        events := [.loopFound loop.start loop.length loop.cycles] }

def checkedSkip (d : Detector) (loop : Loop) : Option (Logged Detector) := do
  let iterations ← plus 64 d.stats.iterations 1
  let cycles ← plus 64 d.stats.cycles loop.cycles
  let burst ← plus 32 d.burst 1
  let d := { d with burst, stats := { d.stats with iterations, cycles } }
  if d.burst < burstLimit then return { value := d }
  else return { value := d.forget, events := [.burstDone loop.start] }

def Light (history : List Entry) : Prop :=
  ∀ e ∈ history, e.step.cycles ≤ 29 ∧ e.step.fetches ≤ 7

lemma Light.note {history : List Entry} (h : Light history) {step : Step} (hcycles : step.cycles ≤ 29)
    (hfetches : step.fetches ≤ 7) (after : Registers) (room : Nat) : Light ((⟨step, after⟩ :: history).take room) := by
  intro e he
  rcases List.mem_cons.mp (List.mem_of_mem_take he) with rfl | he
  · exact ⟨hcycles, hfetches⟩
  · exact h e he

lemma Light.observe {d : Detector} (h : Light d.history) {step : Step} (hcycles : step.cycles ≤ 29)
    (hfetches : step.fetches ≤ 7) (safe : Bool) (after : Registers) :
    Light (d.observe step safe after).value.history := by
  unfold Detector.observe
  split
  · exact h
  split
  · exact nofun
  dsimp only
  split
  · exact h.note hcycles hfetches after _
  · exact nofun

structure Narrow (d : Detector) : Prop where
  threshold : d.config.threshold ≤ 10
  light : Light d.history
  burst : ∀ loop ∈ d.active, d.burst < burstLimit

section

variable {history : List Entry} {after : Registers} {len : Nat}

lemma slice_recent (h : len ≤ history.length) :
    slice history.reverse (history.length - len) history.length = some (history.take len).reverse := by
  rw [slice, if_pos ⟨Nat.sub_le _ _, by simp⟩, List.drop_reverse, Nat.sub_sub_self h, List.take_of_length_le (by simp)]

lemma slice_previous (h : 2 * len ≤ history.length) :
    slice history.reverse (history.length - 2 * len) (history.length - len) =
      some ((history.drop len).take len).reverse := by
  have hlen : history.length - len - (history.length - 2 * len) = len := by omega
  have htwo : 2 * len - len = len := by omega
  rw [slice, if_pos ⟨by omega, by simp⟩, List.drop_reverse, Nat.sub_sub_self h, hlen, List.take_reverse,
    List.length_take, Nat.min_eq_left h, htwo, List.drop_take, htwo]

lemma repeats_eq (hpos : 0 < len) (h : 2 * len ≤ history.length) :
    repeats history len = (history[0].after.pc == history[len - 1].step.pc &&
      (history.take len).map Entry.step == ((history.drop len).take len).map Entry.step &&
      history[len].after.sameButRefresh history[0].after) := by
  rw [repeats, List.getElem?_eq_getElem (by omega), List.getElem?_eq_getElem (by omega),
    List.getElem?_eq_getElem (by omega)]
  simp only [h, decide_true, Bool.true_and]

lemma sum_take_le {f : Entry → Nat} {bound : Nat} (h : ∀ e ∈ history, f e ≤ bound) (len : Nat) :
    ((history.take len).map f).sum ≤ len * bound := by
  have hle : ∀ n ∈ (history.take len).map f, n ≤ bound := by
    rintro n hn
    obtain ⟨e, he, rfl⟩ := List.mem_map.mp hn
    exact h e (List.mem_of_mem_take he)
  calc ((history.take len).map f).sum ≤ ((history.take len).map f).length * bound := List.sum_le_card_nsmul _ _ hle
    _ ≤ len * bound := Nat.mul_le_mul_right _ (by simp)

lemma sum_loop (f : Entry → Nat) (bits : Nat) {bound : Nat} (h : ∀ e ∈ history, f e ≤ bound)
    (hlen : len * bound < 2 ^ bits) :
    ((history.take len).reverse.map f).foldlM (plus bits) 0 = some ((history.take len).map f).sum := by
  have hsum : ((history.take len).reverse.map f).sum = ((history.take len).map f).sum := by
    rw [List.map_reverse, List.sum_reverse]
  rw [foldlM_plus, hsum, Nat.zero_add]
  rw [hsum, Nat.zero_add]
  exact Nat.lt_of_le_of_lt (sum_take_le h len) hlen

lemma checkedSeek_short (hlen : len ≤ 10) (h : history.length < len * 2) (lens : List Nat) :
    checkedSeek history.reverse after (len :: lens) = some none := by
  rw [checkedSeek, times_of_lt (by omega), Option.bind_eq_bind, Option.bind_some, List.length_reverse, if_pos h]
  rfl

lemma getElem?_oldest {i j : Nat} (h : i + j + 1 = history.length) : history.reverse[i]? = some history[j] := by
  have hj : history.length - 1 - i = j := by omega
  rw [List.getElem?_reverse (by omega), hj, List.getElem?_eq_getElem]

lemma bne_reverse_map (xs ys : List Entry) :
    (xs.reverse.map Entry.step != ys.reverse.map Entry.step) = !(xs.map Entry.step == ys.map Entry.step) := by
  rw [bne, List.map_reverse, List.map_reverse, Bool.eq_iff_iff]
  simp only [Bool.not_eq_true', beq_eq_false_iff_ne, ne_eq, List.reverse_inj]

lemma loopOf_eq (pc : UInt16) : loopOf history pc len =
    ⟨pc, len, ((history.take len).map (·.step.cycles)).sum, ((history.take len).map (·.step.fetches)).sum⟩ := by
  rw [← loopOf_cycles history pc, ← loopOf_fetches history pc]
  rfl

lemma checkedSeek_long (hlast : ∀ e ∈ history.head?, e.after = after) (hlight : Light history) (hpos : 0 < len)
    (hlen : len ≤ 10) (h : 2 * len ≤ history.length) (lens : List Nat) :
    checkedSeek history.reverse after (len :: lens) =
      if repeats history len then some (some (loopOf history after.pc len))
      else checkedSeek history.reverse after lens := by
  have hshort : ¬ history.length < len * 2 := by omega
  have hzero : history[0].after = after := hlast _ (by rw [List.head?_eq_getElem?, List.getElem?_eq_getElem]; rfl)
  have hstart : history.reverse[history.length - len]? = some history[len - 1] := getElem?_oldest (by omega)
  have hbefore : history.reverse[history.length - 1 - len]? = some history[len] := getElem?_oldest (by omega)
  have hcycles := sum_loop (·.step.cycles) 32 (fun e he => (hlight e he).1) (show len * 29 < 2 ^ 32 by omega)
  have hfetches := sum_loop (·.step.fetches) 8 (fun e he => (hlight e he).2) (show len * 7 < 2 ^ 8 by omega)
  simp only [checkedSeek, List.length_reverse, Option.bind_eq_bind, times_of_lt (show len * 2 < 2 ^ 64 by omega),
    times_of_lt (show 2 * len < 2 ^ 64 by omega), minus_of_le (show len ≤ history.length by omega), minus_of_le h,
    minus_of_le (show 1 ≤ history.length by omega), minus_of_le (show len ≤ history.length - 1 by omega),
    Option.bind_some, if_neg hshort, hstart, hbefore, slice_recent (show len ≤ history.length by omega),
    slice_previous h, hcycles, hfetches, Option.pure_def, bne_reverse_map]
  rw [repeats_eq hpos h, hzero, bne, loopOf_eq]
  cases hpc : after.pc == history[len - 1].step.pc with
  | false => rfl
  | true =>
    rw [beq_iff_eq.mp hpc]
    cases (history.take len).map Entry.step == ((history.drop len).take len).map Entry.step with
    | false => rfl
    | true => cases history[len].after.sameButRefresh after <;> rfl

lemma checkedSeek_eq (hlast : ∀ e ∈ history.head?, e.after = after) (hlight : Light history) {s k : Nat} (hs : 0 < s)
    (hk : s + k ≤ 11) : checkedSeek history.reverse after (List.range' s k) =
      some (((List.range' s k).find? (repeats history)).map (loopOf history after.pc)) := by
  induction k generalizing s with
  | zero => rfl
  | succ k ih =>
    rw [List.range'_succ]
    by_cases hlen : history.length < s * 2
    · have hnone : (s :: List.range' (s + 1) k).find? (repeats history) = none := by
        rw [← List.range'_succ, List.find?_eq_none]
        intro n hn
        have hn' := (List.mem_range'_1.mp hn).1
        simp only [repeats, Bool.and_eq_true, decide_eq_true_eq, not_and]
        omega
      rw [checkedSeek_short (by omega) hlen, hnone]
      rfl
    · rw [checkedSeek_long hlast hlight hs (by omega) (by omega), ih (by omega) (by omega), List.find?_cons]
      cases repeats history s <;> rfl

lemma find_eq_map (hlast : ∀ e ∈ history.head?, e.after = after) (threshold : Nat) :
    find? history threshold =
      ((List.range' 2 (threshold - 1)).find? (repeats history)).map (loopOf history after.pc) := by
  cases history with
  | nil =>
    have hnone : (List.range' 2 (threshold - 1)).find? (repeats []) = none := by
      rw [List.find?_eq_none]
      intro n _
      simp [repeats]
    simp [find?, hnone]
  | cons e older =>
    have he : e.after = after := hlast e rfl
    cases hfind : (List.range' 2 (threshold - 1)).find? (repeats (e :: older)) <;> simp [find?, hfind, he]

end

lemma checkedObserve_eq {d : Detector} (h : d.Narrow) {step : Step} (hcycles : step.cycles ≤ 29)
    (hfetches : step.fetches ≤ 7) (safe : Bool) (after : Registers)
    (hloops : (d.observe step safe after).value.stats.loops < 2 ^ 64) :
    d.checkedObserve step safe after = some (d.observe step safe after) := by
  have hthreshold := h.threshold
  cases hoff : !d.config.enabled || d.active.isSome with
  | true => simp [checkedObserve, observe, hoff]
  | false =>
    cases safe with
    | false => simp [checkedObserve, observe, hoff]
    | true =>
      have hlast : ∀ e ∈ ((⟨step, after⟩ :: d.history).take (2 * d.config.threshold)).head?, e.after = after := by
        intro e he
        rw [newest_of_take he]
      have hlight := h.light.note hcycles hfetches after (2 * d.config.threshold)
      have hseek := checkedSeek_eq hlast hlight (s := 2) (k := d.config.threshold - 1) (by omega) (by omega)
      rw [← find_eq_map hlast] at hseek
      have hroom : times 64 d.config.threshold 2 = some (d.config.threshold * 2) := times_of_lt (by omega)
      simp only [checkedObserve, observe, hoff, Bool.false_eq_true, if_false, Bool.not_true, Option.bind_eq_bind, hroom,
        Option.bind_some, Nat.mul_comm _ 2, hseek] at hloops ⊢
      cases hfind : find? ((⟨step, after⟩ :: d.history).take (2 * d.config.threshold)) d.config.threshold with
      | none => rfl
      | some loop =>
        rw [hfind] at hloops
        simp only [plus_of_lt hloops]
        rfl

lemma checkedSkip_eq {d : Detector} (h : d.Narrow) {loop : Loop} (ha : d.active = some loop)
    (hiterations : (d.skip loop).value.stats.iterations < 2 ^ 64)
    (hcycles : (d.skip loop).value.stats.cycles < 2 ^ 64) : d.checkedSkip loop = some (d.skip loop) := by
  have hstats : (d.skip loop).value.stats =
      { d.stats with iterations := d.stats.iterations + 1, cycles := d.stats.cycles + loop.cycles } := by
    unfold skip
    dsimp only
    split <;> rfl
  rw [hstats] at hiterations hcycles
  have hburst : d.burst + 1 < 2 ^ 32 := by
    have hlt := h.burst loop ha
    rw [burstLimit] at hlt
    omega
  simp only [checkedSkip, skip, plus_of_lt hiterations, plus_of_lt hcycles, plus_of_lt hburst, Option.bind_eq_bind,
    Option.bind_some, Option.pure_def]
  split <;> rfl

end Detector

end Z80Machine.Idle
