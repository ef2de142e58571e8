import Mathlib.Data.List.Basic
import Mathlib.Tactic.Push

/-!
# Documents and partial updates

A document maps field names to values. An `overlay` replaces exactly the
fields an association list names and leaves the rest alone, which is what a
merging write does to a stored document; a write that replaces the document is
an overlay of the empty one.

Everything below is read off `overlay_apply`: overlays with disjoint key sets
commute, an overlay that names at least the keys of an earlier one hides it,
and a fold of overlays can be asked about one field at a time.
-/

namespace Pompeius.Lib

variable {κ ν : Type*} [DecidableEq κ]

abbrev Doc (κ ν : Type*) := κ → Option ν

def Doc.empty : Doc κ ν := fun _ => none

/-- The document with the listed fields replaced. -/
def Doc.overlay (d : Doc κ ν) (w : List (κ × ν)) : Doc κ ν :=
  fun k => (w.lookup k).or (d k)

theorem overlay_apply {d : Doc κ ν} {w : List (κ × ν)} {k : κ} :
    d.overlay w k = (w.lookup k).or (d k) := rfl

/-- The fields a write names. -/
def keys (w : List (κ × ν)) : List κ := w.map Prod.fst

theorem lookup_eq_none_iff_not_mem {w : List (κ × ν)} {k : κ} :
    w.lookup k = none ↔ k ∉ keys w := by
  rw [List.lookup_eq_none_iff, keys, List.mem_map]
  constructor
  · rintro h ⟨p, hp, rfl⟩
    simpa using h p hp
  · intro h p hp
    simpa using fun hk : k = p.1 => h ⟨p, hp, hk.symm⟩

theorem mem_of_lookup {w : List (κ × ν)} {k : κ} {v : ν} (h : w.lookup k = some v) :
    (k, v) ∈ w := by
  obtain ⟨before, after, rfl, -⟩ := List.lookup_eq_some_iff.mp h
  exact List.mem_append_right before List.mem_cons_self

theorem overlay_of_not_mem {d : Doc κ ν} {w : List (κ × ν)} {k : κ}
    (h : k ∉ keys w) : d.overlay w k = d k := by
  rw [overlay_apply, lookup_eq_none_iff_not_mem.mpr h, Option.none_or]

theorem overlay_of_lookup {d : Doc κ ν} {w : List (κ × ν)} {k : κ} {v : ν}
    (h : w.lookup k = some v) : d.overlay w k = some v := by
  rw [overlay_apply, h, Option.some_or]

/-- What an overlay answers at a field it names does not depend on the
document underneath. -/
theorem overlay_eq_of_mem {d d' : Doc κ ν} {w : List (κ × ν)} {k : κ}
    (h : k ∈ keys w) : d.overlay w k = d'.overlay w k := by
  cases hl : w.lookup k with
  | none => exact absurd h (lookup_eq_none_iff_not_mem.mp hl)
  | some v => rw [overlay_of_lookup hl, overlay_of_lookup hl]

theorem overlay_comm {d : Doc κ ν} {w w' : List (κ × ν)}
    (h : ∀ k ∈ keys w, k ∉ keys w') :
    (d.overlay w).overlay w' = (d.overlay w').overlay w := by
  funext k
  by_cases hk : k ∈ keys w
  · rw [overlay_of_not_mem (h k hk)]
    exact overlay_eq_of_mem hk
  · rw [overlay_of_not_mem hk]
    by_cases hk' : k ∈ keys w'
    · exact overlay_eq_of_mem hk'
    · rw [overlay_of_not_mem hk', overlay_of_not_mem hk', overlay_of_not_mem hk]

/-- An overlay leaves a document as it was exactly when every field it names
already has the value it writes. -/
theorem overlay_eq_self_iff {d : Doc κ ν} {w : List (κ × ν)} :
    d.overlay w = d ↔ ∀ k v, w.lookup k = some v → d k = some v := by
  constructor
  · intro h k v hkv
    rw [← h]
    exact overlay_of_lookup hkv
  · intro h
    funext k
    cases hl : w.lookup k with
    | none => rw [overlay_apply, hl, Option.none_or]
    | some v => rw [overlay_of_lookup hl, h k v hl]

/-! ## Runs of overlays, one field at a time -/

theorem foldl_overlay_of_not_mem {ws : List (List (κ × ν))} {d : Doc κ ν} {k : κ}
    (h : ∀ w ∈ ws, k ∉ keys w) : ws.foldl Doc.overlay d k = d k := by
  induction ws generalizing d with
  | nil => rfl
  | cons w ws ih =>
      rw [List.foldl_cons, ih (fun x hx => h x (List.mem_cons_of_mem w hx))]
      exact overlay_of_not_mem (h w List.mem_cons_self)

/-- The last write that names a field decides it. -/
theorem foldl_overlay_snoc_of_mem {ws : List (List (κ × ν))} {w : List (κ × ν)}
    {d : Doc κ ν} {k : κ} (h : k ∈ keys w) :
    (ws ++ [w]).foldl Doc.overlay d k = w.lookup k := by
  rw [List.foldl_append]
  show (ws.foldl Doc.overlay d).overlay w k = w.lookup k
  have hempty : (ws.foldl Doc.overlay d).overlay w k = Doc.empty.overlay w k :=
    overlay_eq_of_mem h
  rw [hempty, overlay_apply]
  exact Option.or_none

end Pompeius.Lib
