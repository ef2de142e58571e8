import Mathlib.Data.List.Basic

/-!
# Shuffles of two lists

`Shuffle as bs cs` says `cs` is an interleaving of `as` and `bs` that keeps
the order inside each. When every operation of one list commutes with every
operation of the other, the interleaving cannot be observed: folding the
shuffle is folding one list and then the other.
-/

namespace Pompeius.Lib

variable {α σ : Type*}

inductive Shuffle : List α → List α → List α → Prop
  | nil : Shuffle [] [] []
  | left {a as bs cs} : Shuffle as bs cs → Shuffle (a :: as) bs (a :: cs)
  | right {b as bs cs} : Shuffle as bs cs → Shuffle as (b :: bs) (b :: cs)

/-- A shuffle has the elements of the two lists and no others. -/
theorem Shuffle.forall_mem {as bs cs : List α} (h : Shuffle as bs cs) {P : α → Prop}
    (ha : ∀ a ∈ as, P a) (hb : ∀ b ∈ bs, P b) : ∀ c ∈ cs, P c := by
  induction h with
  | nil => exact ha
  | left _ ih =>
      rw [List.forall_mem_cons] at ha ⊢
      exact ⟨ha.1, ih ha.2 hb⟩
  | right _ ih =>
      rw [List.forall_mem_cons] at hb ⊢
      exact ⟨hb.1, ih ha hb.2⟩

/-- An operation that commutes with each of a list commutes with the fold. -/
theorem foldl_comm_of_forall {f : σ → α → σ} {a : α} {bs : List α}
    (h : ∀ b ∈ bs, ∀ s, f (f s a) b = f (f s b) a) (s : σ) :
    bs.foldl f (f s a) = f (bs.foldl f s) a := by
  induction bs generalizing s with
  | nil => rfl
  | cons b bs ih =>
      have htail : ∀ c ∈ bs, ∀ s, f (f s a) c = f (f s c) a :=
        fun c hc => h c (List.mem_cons_of_mem b hc)
      rw [List.foldl_cons, List.foldl_cons, h b List.mem_cons_self s]
      exact ih htail (f s b)

/-- Every interleaving of two lists of mutually commuting operations has the
effect of running the second list and then the first. -/
theorem Shuffle.foldl_eq {f : σ → α → σ} {as bs cs : List α}
    (h : Shuffle as bs cs)
    (hcomm : ∀ a ∈ as, ∀ b ∈ bs, ∀ s, f (f s a) b = f (f s b) a) (s : σ) :
    cs.foldl f s = as.foldl f (bs.foldl f s) := by
  induction h generalizing s with
  | nil => rfl
  | @left a as bs cs hsh ih =>
      have hhead : ∀ b ∈ bs, ∀ s, f (f s a) b = f (f s b) a :=
        hcomm a List.mem_cons_self
      have htail : ∀ x ∈ as, ∀ b ∈ bs, ∀ s, f (f s x) b = f (f s b) x :=
        fun x hx => hcomm x (List.mem_cons_of_mem a hx)
      rw [List.foldl_cons, List.foldl_cons, ih htail,
        foldl_comm_of_forall hhead]
  | @right b as bs cs hsh ih =>
      have htail : ∀ x ∈ as, ∀ c ∈ bs, ∀ s, f (f s x) c = f (f s c) x :=
        fun x hx c hc => hcomm x hx c (List.mem_cons_of_mem b hc)
      rw [List.foldl_cons, List.foldl_cons, ih htail]

end Pompeius.Lib
