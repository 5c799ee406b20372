import Mathlib.Data.List.Forall2
import Mathlib.Data.List.Perm.Basic
import Z80Machine.Log
import Z80Machine.Log.Filter
import Z80Machine.Proofs.Cutting

/-! Log filters as they are written: parts with commas between them, each a gate for everything or a gate for the
targets with some start. The longest start counts for a target, and the gate for all targets keeps whatever the filter
would let through. -/

namespace Z80Machine

namespace Gate

def Named (g : Gate) (cs : List Char) : Prop :=
  cs.map Char.toLower = g.text.toList.map Char.toLower

lemma mem_all (g : Gate) : g ∈ all := by
  rcases g with _ | level
  · exact List.mem_cons_self
  · cases level <;> decide

lemma named_unique {g g' : Gate} {cs : List Char} (h : g.Named cs) (h' : g'.Named cs) : g = g' := by
  have htexts : ∀ g ∈ all, ∀ g' ∈ all,
      g.text.toList.map Char.toLower = g'.text.toList.map Char.toLower → g = g' := by decide
  exact htexts g g.mem_all g' g'.mem_all (h.symm.trans h')

lemma ofText_eq_some {g : Gate} {cs : List Char} : ofText? cs = some g ↔ g.Named cs := by
  have hbeq (g : Gate) : (Text.lower g.text == Text.lower (String.ofList cs)) = true ↔ g.Named cs := by
    rw [beq_iff_eq, Text.lower, Text.lower, String.ofList_inj, String.toList_ofList]
    exact eq_comm
  have hnamed {g : Gate} (h : ofText? cs = some g) : g.Named cs := by
    rw [ofText?] at h
    have hfound := List.find?_some h
    exact (hbeq g).mp hfound
  refine ⟨hnamed, fun h => ?_⟩
  cases hfind : ofText? cs with
  | none =>
    rw [ofText?, List.find?_eq_none] at hfind
    exact absurd ((hbeq g).mpr h) (hfind g g.mem_all)
  | some g' => rw [named_unique (hnamed hfind) h]

lemma Named.not_mem {g : Gate} {cs : List Char} (h : g.Named cs) : '=' ∉ cs := fun hmem => by
  have htexts : ∀ g ∈ all, '=' ∉ g.text.toList.map Char.toLower := by decide
  have hlower : Char.toLower '=' ∈ cs.map Char.toLower := List.mem_map_of_mem hmem
  rw [h] at hlower
  exact htexts g g.mem_all hlower

lemma rank_max (g g' : Gate) : (g.max g').rank = Max.max g.rank g'.rank := by
  rw [max]
  split <;> omega

lemma rank_le_foldl {α : Type} (gate : α → Gate) (l : List α) (g : Gate) :
    g.rank ≤ (l.foldl (fun g a => g.max (gate a)) g).rank ∧
      ∀ a ∈ l, (gate a).rank ≤ (l.foldl (fun g a => g.max (gate a)) g).rank := by
  induction l generalizing g with
  | nil => simp
  | cons a l ih =>
    obtain ⟨hstart, hrest⟩ := ih (g.max (gate a))
    rw [rank_max] at hstart
    refine ⟨Nat.le_trans (Nat.le_max_left _ _) hstart, ?_⟩
    rintro b (_ | ⟨_, hb⟩)
    · exact Nat.le_trans (Nat.le_max_right _ _) hstart
    · exact hrest b hb

end Gate

namespace Filter

open Text

inductive Rule where
  | general (gate : Gate)
  | special (start : List Char) (gate : Gate)

namespace Rule

def general? : Rule → Option Gate
  | general gate => some gate
  | special _ _ => none

def special? : Rule → Option (List Char × Gate)
  | general _ => none
  | special start gate => some (start, gate)

/-- How a rule is written. What stands behind the first equals sign is the gate's name, and there may be blanks around
it. -/
inductive Written : List Char → Rule → Prop
  | general {part : List Char} {gate : Gate} (h : gate.Named part) : Written part (general gate)
  | special {start name : List Char} {gate : Gate} (hstart : '=' ∉ start) (h : gate.Named (trimList name)) :
    Written (start ++ '=' :: name) (special (trimList start) gate)

end Rule

open Rule

def parts (s : String) : List (List Char) :=
  ((s.toList.splitOn ',').map trimList).filter (· ≠ [])

def ofRules (rules : List Rule) : Filter where
  fallback := (rules.filterMap general?).getLast?.getD (.upTo .info)
  targets := rules.filterMap special?

/-- The entry that counts for a target: the last of those with the longest name that the target starts with. -/
structure Governs (entries : List (List Char × Gate)) (target : List Char) (entry : List Char × Gate) : Prop where
  fits : entry.1 <+: target
  longest : ∀ e ∈ entries, e.1 <+: target → e.1.length ≤ entry.1.length
  last : (entries.filter (·.1 = entry.1)).getLast? = some entry

/-! Reading -/

variable {part : List Char} {rule : Rule} {rules : List Rule} {f f' : Filter}

def follow (f : Filter) : Rule → Filter
  | .general gate => { f with fallback := gate }
  | .special start gate => { f with targets := f.targets ++ [(start, gate)] }

lemma add_eq_some : f.add? part = some f' ↔ ∃ rule, Written part rule ∧ f.follow rule = f' := by
  constructor
  · intro h
    rw [add?] at h
    split at h
    · next start name hcut =>
      obtain ⟨rfl, hstart⟩ := cut_eq_some.mp hcut
      obtain ⟨gate, hgate, h⟩ := Option.bind_eq_some_iff.mp h
      exact ⟨_, .special hstart (Gate.ofText_eq_some.mp hgate), Option.some.inj h⟩
    · obtain ⟨gate, hgate, h⟩ := Option.bind_eq_some_iff.mp h
      exact ⟨_, .general (Gate.ofText_eq_some.mp hgate), Option.some.inj h⟩
  · rintro ⟨_, hwritten, rfl⟩
    cases hwritten with
    | general h =>
      rw [add?, cut_eq_none.mpr h.not_mem]
      exact congrArg (· >>= _) (Gate.ofText_eq_some.mpr h)
    | special hstart h =>
      rw [add?, cut_append hstart]
      exact congrArg (· >>= _) (Gate.ofText_eq_some.mpr h)

lemma foldlM_eq_some {parts : List (List Char)} : parts.foldlM add? f = some f' ↔
    ∃ rules, List.Forall₂ Written parts rules ∧ rules.foldl follow f = f' := by
  induction parts generalizing f with
  | nil => simp [eq_comm]
  | cons part parts ih =>
    simp only [List.foldlM_cons, Option.bind_eq_bind, Option.bind_eq_some_iff, add_eq_some, ih,
      List.forall₂_cons_left_iff]
    constructor
    · rintro ⟨_, ⟨rule, hrule, rfl⟩, rules, hrules, rfl⟩
      exact ⟨rule :: rules, ⟨rule, rules, hrule, hrules, rfl⟩, rfl⟩
    · rintro ⟨_, ⟨rule, rules, hrule, hrules, rfl⟩, rfl⟩
      exact ⟨_, ⟨rule, hrule, rfl⟩, rules, hrules, rfl⟩

lemma foldl_follow (rules : List Rule) (f : Filter) : rules.foldl follow f =
    { fallback := (rules.filterMap general?).getLast?.getD f.fallback
      targets := f.targets ++ rules.filterMap special? } := by
  induction rules generalizing f with
  | nil => simp
  | cons rule rules ih =>
    rw [List.foldl_cons, ih]
    cases rule with
    | general gate => simp [follow, List.filterMap_cons, general?, special?, List.getLast?_cons]
    | special start gate => simp [follow, List.filterMap_cons, general?, special?]

lemma ofText_eq_some {s : String} :
    ofText? s = some f ↔ ∃ rules, List.Forall₂ Written (parts s) rules ∧ ofRules rules = f := by
  have hparts : ((fields (· == ',') s.toList).map trimList).filter (!·.isEmpty) = parts s := by
    rw [fields_eq_splitOn, parts]
    refine List.filter_congr fun part _ => ?_
    cases part <;> rfl
  have hrules (rules : List Rule) : rules.foldl follow {} = ofRules rules := by
    rw [foldl_follow]
    rfl
  simp only [ofText?, hparts, foldlM_eq_some, hrules]

lemma exists_rules {parts : List (List Char)} :
    (∃ rules, List.Forall₂ Written parts rules) ↔ ∀ part ∈ parts, ∃ rule, Written part rule := by
  induction parts with
  | nil => simp
  | cons part parts ih =>
    rw [List.forall_mem_cons, ← ih]
    constructor
    · rintro ⟨_, _ | ⟨hrule, hrules⟩⟩
      exact ⟨⟨_, hrule⟩, _, hrules⟩
    · rintro ⟨⟨rule, hrule⟩, rules, hrules⟩
      exact ⟨rule :: rules, .cons hrule hrules⟩

lemma isSome_ofText {s : String} : (ofText? s).isSome ↔ ∀ part ∈ parts s, ∃ rule, Written part rule := by
  simp only [Option.isSome_iff_exists, ofText_eq_some, ← exists_rules]
  constructor
  · rintro ⟨_, rules, hrules, -⟩
    exact ⟨rules, hrules⟩
  · rintro ⟨rules, hrules⟩
    exact ⟨_, rules, hrules, rfl⟩

/-! The gate for a target -/

variable {entries entries' : List (List Char × Gate)} {entry entry' : List Char × Gate} {target : List Char}

lemma longest_eq_none : longest entries = none ↔ entries = [] := by
  cases entries with
  | nil => exact iff_of_true rfl rfl
  | cons e entries =>
    refine iff_of_false ?_ (List.cons_ne_nil _ _)
    rw [longest]
    split <;> simp

lemma longest_spec (h : longest entries = some entry) : (∀ e ∈ entries, e.1.length ≤ entry.1.length) ∧
    (entries.filter (·.1.length = entry.1.length)).getLast? = some entry := by
  induction entries generalizing entry with
  | nil => cases h
  | cons e entries ih =>
    rw [longest] at h
    split at h
    · next hnone =>
      cases h
      simp [longest_eq_none.mp hnone]
    · next u hu =>
      obtain ⟨hle, hlast⟩ := ih hu
      split_ifs at h with hlt
      · cases h
        have hshort (d : List Char × Gate) (hd : d ∈ entries) : d.1.length < e.1.length :=
          Nat.lt_of_le_of_lt (hle d hd) hlt
        have hnil : entries.filter (·.1.length = e.1.length) = [] := by
          rw [List.filter_eq_nil_iff]
          intro d hd
          simpa using Nat.ne_of_lt (hshort d hd)
        refine ⟨?_, by simp [hnil]⟩
        rintro d (_ | ⟨_, hd⟩)
        · exact Nat.le_refl _
        · exact Nat.le_of_lt (hshort d hd)
      · cases h
        refine ⟨?_, ?_⟩
        · rintro d (_ | ⟨_, hd⟩)
          · exact Nat.le_of_not_lt hlt
          · exact hle d hd
        · rw [List.filter_cons]
          split
          · rw [List.getLast?_cons, hlast]
            rfl
          · exact hlast

lemma Governs.mem (h : Governs entries target entry) : entry ∈ entries :=
  (List.mem_filter.mp (List.mem_of_getLast? h.last)).1

lemma governs_unique (h : Governs entries target entry) (h' : Governs entries target entry') : entry = entry' := by
  have hlength : entry.1.length = entry'.1.length :=
    Nat.le_antisymm (h'.longest _ h.mem h.fits) (h.longest _ h'.mem h'.fits)
  have hname : entry.1 = entry'.1 :=
    (List.prefix_of_prefix_length_le h.fits h'.fits (Nat.le_of_eq hlength)).eq_of_length hlength
  have hlast := h.last
  rw [hname, h'.last] at hlast
  exact (Option.some.inj hlast).symm

lemma governs_longest (h : longest (entries.filter (·.1.isPrefixOf target)) = some entry) :
    Governs entries target entry := by
  obtain ⟨hle, hlast⟩ := longest_spec h
  have hmem := (List.mem_filter.mp (List.mem_of_getLast? hlast)).1
  have hfits : entry.1 <+: target := List.isPrefixOf_iff_prefix.mp (List.mem_filter.mp hmem).2
  refine ⟨hfits, fun e he hfit => hle e (List.mem_filter.mpr ⟨he, List.isPrefixOf_iff_prefix.mpr hfit⟩), ?_⟩
  rw [List.filter_filter] at hlast
  rw [← hlast]
  congr 1
  refine List.filter_congr fun e _ => ?_
  rw [Bool.eq_iff_iff]
  simp only [decide_eq_true_eq, Bool.and_eq_true, List.isPrefixOf_iff_prefix]
  constructor
  · intro hname
    rw [hname]
    exact ⟨rfl, hfits⟩
  · rintro ⟨hlength, hfit⟩
    exact (List.prefix_of_prefix_length_le hfit hfits (Nat.le_of_eq hlength)).eq_of_length hlength

lemma levelFor_spec (f : Filter) (target : String) :
    (∃ entry, Governs f.targets target.toList entry ∧ f.levelFor target = entry.2) ∨
      (∀ entry ∈ f.targets, ¬ entry.1 <+: target.toList) ∧ f.levelFor target = f.fallback := by
  rw [levelFor]
  cases h : longest (f.targets.filter (·.1.isPrefixOf target.toList)) with
  | some entry => exact .inl ⟨entry, governs_longest h, rfl⟩
  | none =>
    have hnone := List.filter_eq_nil_iff.mp (longest_eq_none.mp h)
    exact .inr ⟨fun entry he hfit => hnone entry he (List.isPrefixOf_iff_prefix.mpr hfit), rfl⟩

lemma Governs.reordered (hsame : ∀ name, entries.filter (·.1 = name) = entries'.filter (·.1 = name))
    (h : Governs entries target entry) : Governs entries' target entry := by
  have hmem (e : List Char × Gate) (he : e ∈ entries') : e ∈ entries := by
    have hfilter : e ∈ entries'.filter (·.1 = e.1) := List.mem_filter.mpr ⟨he, decide_eq_true rfl⟩
    rw [← hsame] at hfilter
    exact (List.mem_filter.mp hfilter).1
  exact ⟨h.fits, fun e he => h.longest e (hmem e he), hsame entry.1 ▸ h.last⟩

lemma levelFor_congr (hfallback : f.fallback = f'.fallback)
    (hsame : ∀ name, f.targets.filter (·.1 = name) = f'.targets.filter (·.1 = name)) (target : String) :
    f.levelFor target = f'.levelFor target := by
  have hback (name : List Char) := (hsame name).symm
  rcases f.levelFor_spec target with ⟨entry, h, hlevel⟩ | ⟨hnone, hlevel⟩
  · rcases f'.levelFor_spec target with ⟨entry', h', hlevel'⟩ | ⟨hnone', -⟩
    · rw [hlevel, hlevel', governs_unique (h.reordered hsame) h']
    · exact absurd h.fits (hnone' entry (h.reordered hsame).mem)
  · rcases f'.levelFor_spec target with ⟨entry', h', -⟩ | ⟨-, hlevel'⟩
    · exact absurd h'.fits (hnone entry' (h'.reordered hback).mem)
    · rw [hlevel, hlevel', hfallback]

lemma filter_eq_of_perm (hperm : entries.Perm entries') (hnames : (entries.map Prod.fst).Nodup) (name : List Char) :
    entries.filter (·.1 = name) = entries'.filter (·.1 = name) := by
  have hlength : (entries.filter (·.1 = name)).length ≤ 1 := by
    have hnodup : ((entries.filter (·.1 = name)).map Prod.fst).Nodup := (List.filter_sublist.map Prod.fst).nodup hnames
    have hreplicate : (entries.filter (·.1 = name)).map Prod.fst =
        List.replicate (entries.filter (·.1 = name)).length name := by
      simp [List.eq_replicate_iff]
    rwa [hreplicate, List.nodup_replicate] at hnodup
  have hfilter := hperm.filter (fun e => e.1 = name)
  rcases Nat.le_one_iff_eq_zero_or_eq_one.mp hlength with h | h
  · rw [List.length_eq_zero_iff.mp h] at hfilter ⊢
    exact (List.nil_perm.mp hfilter).symm
  · obtain ⟨e, he⟩ := List.length_eq_one_iff.mp h
    rw [he] at hfilter ⊢
    exact (List.singleton_perm.mp hfilter)

lemma levelFor_of_perm {rules' : List Rule} (hperm : rules.Perm rules')
    (hnames : ((rules.filterMap special?).map Prod.fst).Nodup)
    (hlast : (rules.filterMap general?).getLast? = (rules'.filterMap general?).getLast?) (target : String) :
    (ofRules rules).levelFor target = (ofRules rules').levelFor target :=
  levelFor_congr (congrArg (·.getD (.upTo .info)) hlast) (filter_eq_of_perm (hperm.filterMap special?) hnames) target

/-! The gate for all targets -/

lemma levelFor_le_maxGate (f : Filter) (target : String) : (f.levelFor target).rank ≤ f.maxGate.rank := by
  obtain ⟨hfallback, htargets⟩ := Gate.rank_le_foldl Prod.snd f.targets f.fallback
  rcases f.levelFor_spec target with ⟨entry, h, hlevel⟩ | ⟨-, hlevel⟩
  · rw [hlevel]
    exact htargets entry h.mem
  · rw [hlevel]
    exact hfallback

def admits (f : Filter) (e : Event) : Bool :=
  (f.levelFor e.target).admits e.level

lemma admits_maxGate {e : Event} (h : f.admits e) : f.maxGate.admits e.level :=
  decide_eq_true (Nat.le_trans (of_decide_eq_true h) (f.levelFor_le_maxGate e.target))

lemma events_addAll (log : Log) (es : List Event) :
    (log.addAll es).events.toList = log.events.toList ++ es.filter (log.gate.admits ·.level) := by
  induction es generalizing log with
  | nil => simp [Log.addAll]
  | cons e es ih =>
    have hgate : (log.add e).gate = log.gate := by
      rw [Log.add]
      split <;> rfl
    rw [Log.addAll, List.foldl_cons, ← Log.addAll, ih, hgate, Log.add]
    cases h : log.gate.admits e.level with
    | true => simp [h]
    | false => simp [h]

lemma filter_events (f : Filter) (es : List Event) :
    (({ gate := f.maxGate } : Log).addAll es).events.toList.filter f.admits = es.filter f.admits := by
  rw [events_addAll, List.nil_append, List.filter_filter]
  refine List.filter_congr fun e _ => ?_
  cases h : f.admits e with
  | true => exact admits_maxGate h
  | false => rfl

/-- A filter does what is written in it, and a log that is kept under the gate for all targets has every record that the
filter lets through. -/
theorem follows_written (s : String) :
    ((ofText? s).isSome ↔ ∀ part ∈ parts s, ∃ rule, Written part rule) ∧
      (∀ f, ofText? s = some f ↔ ∃ rules, List.Forall₂ Written (parts s) rules ∧ ofRules rules = f) ∧
      (∀ rules target,
        (∃ entry, Governs (rules.filterMap special?) target.toList entry ∧
          (ofRules rules).levelFor target = entry.2) ∨
        (∀ entry ∈ rules.filterMap special?, ¬ entry.1 <+: target.toList) ∧
          (ofRules rules).levelFor target = (rules.filterMap general?).getLast?.getD (.upTo .info)) ∧
      (∀ rules rules' : List Rule, rules.Perm rules' → ((rules.filterMap special?).map Prod.fst).Nodup →
        (rules.filterMap general?).getLast? = (rules'.filterMap general?).getLast? →
        ∀ target, (ofRules rules).levelFor target = (ofRules rules').levelFor target) ∧
      (∀ f f' : Filter, f.fallback = f'.fallback →
        (∀ name, f.targets.filter (·.1 = name) = f'.targets.filter (·.1 = name)) →
        ∀ target, f.levelFor target = f'.levelFor target) ∧
      ∀ f : Filter, (∀ target, (f.levelFor target).rank ≤ f.maxGate.rank) ∧
        ∀ es, (({ gate := f.maxGate } : Log).addAll es).events.toList.filter f.admits = es.filter f.admits :=
  ⟨isSome_ofText, fun _ => ofText_eq_some, fun rules => (ofRules rules).levelFor_spec,
    fun _ _ => levelFor_of_perm, fun _ _ => levelFor_congr, fun f => ⟨f.levelFor_le_maxGate, f.filter_events⟩⟩

end Filter

end Z80Machine
