import Mathlib.Data.List.DropRight

/-!
# Texts trimmed, and texts cut at a separator

A trimmed text never begins or ends with an element of the set it was trimmed
of, so it is never a single such element: an equality test against one of them
always answers no.

A path is a list of names written with a separator between them. Reading the
names back is more lenient than writing them: separators at either end and
doubled ones are passed over. `normalize` is reading and writing, which leaves
one spelling of each list of names, the shortest, and loses no name.
-/

namespace Pompeius.Lib

variable {α : Type*}

/-! ## Trimming -/

/-- Drop the elements that satisfy `p` from both ends. -/
def trim (p : α → Bool) (l : List α) : List α := (l.dropWhile p).rdropWhile p

theorem trim_getLast_not {p : α → Bool} {l : List α} (h : trim p l ≠ []) :
    ¬ p ((trim p l).getLast h) = true :=
  List.rdropWhile_last_not p (l.dropWhile p) h

theorem trim_ne_singleton {p : α → Bool} {l : List α} {a : α} (ha : p a = true) :
    trim p l ≠ [a] := by
  intro h
  have hne : trim p l ≠ [] := by rw [h]; exact List.cons_ne_nil a []
  have hlast := trim_getLast_not hne
  simp only [h, List.getLast_singleton] at hlast
  exact hlast ha

/-! ## Segments -/

variable {sep : α}

theorem intercalate_sublist {ls ls' : List (List α)} (h : ls.Sublist ls') :
    ([sep].intercalate ls).Sublist ([sep].intercalate ls') := by
  induction h with
  | slnil => exact List.Sublist.refl _
  | @cons ls ls' l hsub ih =>
      cases ls' with
      | nil =>
          rw [List.sublist_nil.mp hsub]
          exact List.nil_sublist _
      | cons l' ls' =>
          rw [List.intercalate_cons_cons]
          exact ih.trans (List.sublist_append_right _ _)
  | @cons_cons ls ls' l hsub ih =>
      cases ls with
      | nil =>
          rw [List.intercalate_singleton]
          cases ls' with
          | nil => rw [List.intercalate_singleton]
          | cons l' ls' =>
              rw [List.intercalate_cons_cons]
              exact (List.sublist_append_left _ _).trans (List.sublist_append_left _ _)
      | cons m ls =>
          cases ls' with
          | nil => cases hsub
          | cons m' ls' =>
              rw [List.intercalate_cons_cons, List.intercalate_cons_cons]
              exact List.Sublist.append (List.Sublist.refl _) ih

variable [DecidableEq α]

/-- The nonempty pieces between separators. -/
def segments (sep : α) (l : List α) : List (List α) :=
  (l.splitOn sep).filter (· ≠ [])

/-- The segments with one separator between any two of them. -/
def normalize (sep : α) (l : List α) : List α := [sep].intercalate (segments sep l)

@[simp] theorem segments_nil : segments sep ([] : List α) = [] := rfl

theorem segments_append_cons (l m : List α) :
    segments sep (l ++ sep :: m) = segments sep l ++ segments sep m := by
  unfold segments
  rw [List.splitOn_append_cons_self, List.filter_append]

theorem segments_of_not_mem {l : List α} (h : sep ∉ l) (hne : l ≠ []) :
    segments sep l = [l] := by
  unfold segments
  rw [List.splitOn_eq_singleton h]
  exact List.filter_cons_of_pos (decide_eq_true hne)

/-- No piece of a cut has the separator in it. -/
theorem not_mem_of_mem_splitOn {l piece : List α} (h : piece ∈ l.splitOn sep) : sep ∉ piece := by
  induction l generalizing piece with
  | nil =>
      rw [List.splitOn_nil, List.mem_singleton] at h
      rw [h]
      exact List.not_mem_nil
  | cons a l ih =>
      rw [List.splitOn_cons_eq_if_modifyHead] at h
      split at h
      · rcases List.mem_cons.mp h with rfl | hmem
        · exact List.not_mem_nil
        · exact ih hmem
      · rename_i ha
        cases hcut : l.splitOn sep with
        | nil => exact absurd hcut (List.splitOn_ne_nil sep l)
        | cons first rest =>
            rw [hcut] at h ih
            rcases List.mem_cons.mp h with rfl | hmem
            · rintro (_ | ⟨_, hfirst⟩)
              · exact ha (beq_self_eq_true _)
              · exact ih List.mem_cons_self hfirst
            · exact ih (List.mem_cons_of_mem _ hmem)

theorem mem_segments {l piece : List α} (h : piece ∈ segments sep l) :
    sep ∉ piece ∧ piece ≠ [] := by
  obtain ⟨hcut, hne⟩ := List.mem_filter.mp h
  exact ⟨not_mem_of_mem_splitOn hcut, of_decide_eq_true hne⟩

/-- Names that can be written can be read. -/
theorem segments_intercalate {names : List (List α)}
    (h : ∀ name ∈ names, sep ∉ name ∧ name ≠ []) :
    segments sep ([sep].intercalate names) = names := by
  cases names with
  | nil => rfl
  | cons name names =>
      unfold segments
      rw [List.splitOn_intercalate sep (fun l hl => (h l hl).1) (List.cons_ne_nil _ _)]
      exact List.filter_eq_self.mpr fun l hl => decide_eq_true (h l hl).2

@[simp] theorem segments_normalize (l : List α) :
    segments sep (normalize sep l) = segments sep l :=
  segments_intercalate fun _ hname => mem_segments hname

@[simp] theorem normalize_normalize (l : List α) :
    normalize sep (normalize sep l) = normalize sep l := by
  rw [normalize, segments_normalize, normalize]

/-- The normal spelling only leaves separators out. -/
theorem normalize_sublist (l : List α) : (normalize sep l).Sublist l := by
  have hcut : [sep].intercalate (l.splitOn sep) = l := List.intercalate_splitOn sep
  have hsub : (normalize sep l).Sublist ([sep].intercalate (l.splitOn sep)) :=
    intercalate_sublist List.filter_sublist
  rw [hcut] at hsub
  exact hsub

end Pompeius.Lib
