import Mathlib.Data.List.Basic
import Z80Machine.Text.Fields

/-! Cutting text, at every separator and at the first. -/

namespace Z80Machine.Text

lemma fields_eq_splitOnP (isSeparator : Char → Bool) (cs : List Char) :
    fields isSeparator cs = cs.splitOnP isSeparator := by
  induction cs with
  | nil => rfl
  | cons c cs ih =>
    rw [fields, ih, List.splitOnP_cons_eq_if_modifyHead]
    obtain ⟨piece, pieces, h⟩ := List.exists_cons_of_ne_nil (List.splitOnP_ne_nil isSeparator cs)
    cases hc : isSeparator c with
    | true => simp
    | false => simp [h]

lemma fields_eq_splitOn (sep : Char) (cs : List Char) : fields (· == sep) cs = cs.splitOn sep := by
  rw [fields_eq_splitOnP, List.splitOn_eq_splitOnP]

lemma fields_intercalate {isSeparator : Char → Bool} {sep : Char} (hsep : isSeparator sep = true)
    {words : List (List Char)} (hne : words ≠ []) (h : ∀ w ∈ words, ∀ c ∈ w, isSeparator c = false) :
    fields isSeparator ([sep].intercalate words) = words := by
  rw [fields_eq_splitOnP]
  induction words with
  | nil => exact absurd rfl hne
  | cons w ws ih =>
    obtain ⟨hw, hws⟩ := List.forall_mem_cons.mp h
    cases ws with
    | nil =>
      rw [List.intercalate_singleton]
      exact List.splitOnP_eq_singleton hw
    | cons v vs =>
      have hline : [sep].intercalate (w :: v :: vs) = w ++ sep :: [sep].intercalate (v :: vs) := by
        rw [List.intercalate_cons_cons, List.append_assoc, List.singleton_append]
      rw [hline, List.splitOnP_append_cons_of_forall_mem hw _ hsep, ih (List.cons_ne_nil v vs) hws]

variable {sep : Char} {cs before behind : List Char}

lemma cut_eq_none : cut? sep cs = none ↔ sep ∉ cs := by
  induction cs with
  | nil => simp [cut?]
  | cons c cs ih =>
    by_cases hc : c = sep
    · simp [cut?, hc]
    · simp [cut?, hc, Ne.symm hc, ih]

lemma cut_append (h : sep ∉ before) : cut? sep (before ++ sep :: behind) = some (before, behind) := by
  induction before with
  | nil => rw [List.nil_append, cut?, if_pos rfl]
  | cons c before ih =>
    rw [List.mem_cons, not_or] at h
    rw [List.cons_append, cut?, if_neg (Ne.symm h.1), ih h.2]
    rfl

lemma cut_eq_some : cut? sep cs = some (before, behind) ↔ cs = before ++ sep :: behind ∧ sep ∉ before := by
  constructor
  · intro h
    have hmem : sep ∈ cs := by
      by_contra hmem
      rw [cut_eq_none.mpr hmem] at h
      cases h
    obtain ⟨front, back, rfl, hfront⟩ := List.eq_append_cons_of_mem hmem
    rw [cut_append hfront] at h
    cases h
    exact ⟨rfl, hfront⟩
  · rintro ⟨rfl, h⟩
    exact cut_append h

end Z80Machine.Text
