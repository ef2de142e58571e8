import Mathlib.Data.List.Basic

/-!
# Logs of overwriting writes

An overwriting write says of each key nothing, or the value it leaves there.
After a log of them a key has the value of the last write that names it.

A sender that repeats itself, because it did not hear what became of a write,
gives its receiver a log with writes too many, some of them out of order.
`Shows` compares such a log with the log of the writes that were accepted: they
agree on every key, but for what a write nobody has accepted may have left.
The rules follow the sender. The receiver may take any write not accepted yet,
and a write may be accepted once everything taken after it is undecided too.
-/

namespace Pompeius.Lib

variable {α κ ν : Type*} (field : α → κ → Option ν)

/-- The value of a key after a log, when the log names it. -/
def lastWritten (k : κ) (log : List α) : Option ν := (log.filterMap (field · k)).getLast?

variable {field} {k : κ} {log accepted undecided : List α} {w : α}

@[simp] theorem lastWritten_nil : lastWritten field k [] = none := rfl

theorem lastWritten_append (log log' : List α) :
    lastWritten field k (log ++ log') =
      (lastWritten field k log').or (lastWritten field k log) := by
  rw [lastWritten, List.filterMap_append, List.getLast?_append]
  rfl

@[simp] theorem lastWritten_singleton (w : α) : lastWritten field k [w] = field w k := by
  cases h : field w k <;> simp [lastWritten, h]

theorem lastWritten_cons (w : α) (log : List α) :
    lastWritten field k (w :: log) = (lastWritten field k log).or (field w k) := by
  rw [← List.singleton_append, lastWritten_append, lastWritten_singleton]

theorem mem_of_lastWritten {v : ν} (h : lastWritten field k log = some v) :
    ∃ w ∈ log, field w k = some v := by
  have hmem := List.mem_of_getLast? h
  obtain ⟨w, hw, hv⟩ := List.mem_filterMap.mp hmem
  exact ⟨w, hw, hv⟩

/-- A log reads, at every key, like that of the accepted writes, or like what
an undecided write leaves there. -/
def Shows (field : α → κ → Option ν) (accepted undecided log : List α) : Prop :=
  ∀ k, lastWritten field k log = lastWritten field k accepted ∨
    ∃ w ∈ undecided, ∃ v, field w k = some v ∧ lastWritten field k log = some v

namespace Shows

theorem refl (undecided log : List α) : Shows field log undecided log := fun _ => .inl rfl

theorem mono (h : Shows field accepted undecided log) {undecided' : List α}
    (hsub : ∀ w ∈ undecided, w ∈ undecided') : Shows field accepted undecided' log := by
  intro k
  rcases h k with heq | ⟨w, hw, hv⟩
  · exact .inl heq
  · exact .inr ⟨w, hsub w hw, hv⟩

/-- The receiver takes a write. -/
theorem take (h : Shows field accepted undecided log) (hw : w ∈ undecided) :
    Shows field accepted undecided (log ++ [w]) := by
  intro k
  rw [lastWritten_append, lastWritten_singleton]
  cases hv : field w k with
  | none => exact h k
  | some v => exact .inr ⟨w, hw, v, hv, rfl⟩

/-- A write is accepted. What was taken after it is still undecided, so a key
it names has its value, or one of theirs. -/
theorem accept (h : Shows field accepted undecided log) {before taken undecided' : List α}
    (hlog : log = before ++ w :: taken) (htaken : ∀ x ∈ taken, x ∈ undecided')
    (hsub : ∀ x ∈ undecided, x = w ∨ x ∈ undecided') :
    Shows field (accepted ++ [w]) undecided' log := by
  intro k
  have hsplit : lastWritten field k log =
      ((lastWritten field k taken).or (field w k)).or (lastWritten field k before) := by
    rw [hlog, lastWritten_append, lastWritten_cons]
  rw [lastWritten_append, lastWritten_singleton]
  cases ht : lastWritten field k taken with
  | some v =>
      obtain ⟨x, hx, hv⟩ := mem_of_lastWritten ht
      refine .inr ⟨x, htaken x hx, v, hv, ?_⟩
      rw [hsplit, ht]
      rfl
  | none =>
      cases hv : field w k with
      | some v =>
          refine .inl ?_
          rw [hsplit, ht, hv]
          rfl
      | none =>
          rcases h k with heq | ⟨x, hx, v, hxv, hlast⟩
          · exact .inl heq
          · rcases hsub x hx with rfl | hx'
            · cases hv.symm.trans hxv
            · exact .inr ⟨x, hx', v, hxv, hlast⟩

end Shows

end Pompeius.Lib
