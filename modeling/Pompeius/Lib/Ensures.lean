/-!
# What a computation ensures when it does not fail

`Ensures x P` says that whatever `x` answers satisfies `P`; a failure satisfies
everything. There is one rule for each way a computation is put together, so a
fact about a composite is proved by following its text. A fold ensures every
reflexive and transitive relation its steps ensure.
-/

namespace Pompeius.Lib

universe u v w

variable {ε : Type u} {α β : Type v}

def Ensures (x : Except ε α) (P : α → Prop) : Prop := ∀ a, x = .ok a → P a

namespace Ensures

theorem ok {a : α} {P : α → Prop} (h : P a) : Ensures (.ok a : Except ε α) P := by
  intro b hb
  cases hb
  exact h

theorem error (e : ε) (P : α → Prop) : Ensures (.error e) P := by
  intro b hb
  cases hb

theorem mono {x : Except ε α} {P Q : α → Prop} (hx : Ensures x P) (h : ∀ a, P a → Q a) :
    Ensures x Q :=
  fun a ha => h a (hx a ha)

theorem bind {x : Except ε α} {f : α → Except ε β} {Q : α → Prop} {P : β → Prop}
    (hx : Ensures x Q) (hf : ∀ a, Q a → Ensures (f a) P) : Ensures (x >>= f) P := by
  intro b hb
  cases hax : x with
  | error e =>
      rw [hax] at hb
      cases hb
  | ok a =>
      rw [hax] at hb
      exact hf a (hx a hax) b hb

/-- A fold keeps what its steps keep. -/
theorem foldlM_from {γ : Type w} {f : β → γ → Except ε β} {P : β → Prop}
    (step : ∀ b c, P b → Ensures (f b c) P) (cs : List γ) {b : β} (hb : P b) :
    Ensures (cs.foldlM f b) P := by
  induction cs generalizing b with
  | nil => exact .ok hb
  | cons c cs ih =>
      rw [List.foldlM_cons]
      exact .bind (step b c hb) fun b' hb' => ih hb'

theorem foldlM {γ : Type w} {f : β → γ → Except ε β} {R : β → β → Prop} (refl : ∀ b, R b b)
    (trans : ∀ b b' b'', R b b' → R b' b'' → R b b'') (step : ∀ b c, Ensures (f b c) (R b))
    (cs : List γ) (b : β) : Ensures (cs.foldlM f b) (R b) := by
  induction cs generalizing b with
  | nil => exact .ok (refl b)
  | cons c cs ih =>
      rw [List.foldlM_cons]
      exact .bind (step b c) fun b' hb' => (ih b').mono fun b'' hb'' => trans b b' b'' hb' hb''

end Ensures

end Pompeius.Lib
