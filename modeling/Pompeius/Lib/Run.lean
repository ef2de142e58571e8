import Mathlib.Data.List.Induction

/-!
# Runs of an event machine

A machine here is a step function that answers `none` when the event is not
enabled in the state it meets. A run feeds a list of events through it, so a
run that succeeds is one in which every event was enabled when its turn came,
and quantifying over runs quantifies over every order in which the
environment may act.

Two inductions cover everything proved about runs. `run_rec` walks a run from
its start and sees, at each step, the prefix already consumed; it is what an
invariant that mentions the events so far needs. `run_invariant` is the
special case of a predicate on states alone. `Along` is the other direction:
a property of every state the run passes through, its ends included.

A machine that keeps a log of what it did puts the newest entry first, and
`Preceded` asks of each entry something about the entries before it.
-/

namespace Pompeius.Lib

variable {σ ε : Type*} {step : σ → ε → Option σ}

/-- The state after the events, when each of them was enabled in its turn. -/
def run (step : σ → ε → Option σ) : σ → List ε → Option σ
  | s, [] => some s
  | s, e :: es => (step s e).bind (run step · es)

@[simp] theorem run_nil {s : σ} : run step s [] = some s := rfl

theorem run_cons {s : σ} {e : ε} {es : List ε} :
    run step s (e :: es) = (step s e).bind (run step · es) := rfl

theorem run_append {s : σ} {es fs : List ε} :
    run step s (es ++ fs) = (run step s es).bind (run step · fs) := by
  induction es generalizing s with
  | nil => rfl
  | cons e es ih =>
      rw [List.cons_append, run_cons, run_cons]
      cases step s e with
      | none => rfl
      | some t => exact ih

theorem run_cons_some {s s' : σ} {e : ε} {es : List ε} :
    run step s (e :: es) = some s' ↔
      ∃ t, step s e = some t ∧ run step t es = some s' := by
  rw [run_cons, Option.bind_eq_some_iff]

theorem run_append_some {s s' : σ} {es fs : List ε} :
    run step s (es ++ fs) = some s' ↔
      ∃ t, run step s es = some t ∧ run step t fs = some s' := by
  rw [run_append, Option.bind_eq_some_iff]

theorem run_snoc_some {s s' : σ} {es : List ε} {e : ε} :
    run step s (es ++ [e]) = some s' ↔
      ∃ t, run step s es = some t ∧ step t e = some s' := by
  rw [run_append_some]
  refine exists_congr fun t => and_congr_right fun _ => ?_
  rw [run_cons_some]
  constructor
  · rintro ⟨u, hu, hnil⟩
    cases hnil
    exact hu
  · intro h
    exact ⟨s', h, rfl⟩

/-- Induction along a run, the prefix consumed so far in hand. -/
theorem run_rec {s₀ : σ} {motive : List ε → σ → Prop} (nil : motive [] s₀)
    (snoc : ∀ {es s e s'}, run step s₀ es = some s → motive es s →
      step s e = some s' → motive (es ++ [e]) s') :
    ∀ {es : List ε} {s : σ}, run step s₀ es = some s → motive es s := by
  intro es
  induction es using List.reverseRecOn with
  | nil => intro s h; cases h; exact nil
  | append_singleton es e ih =>
      intro s h
      obtain ⟨t, ht, hs⟩ := run_snoc_some.mp h
      exact snoc ht (ih ht) hs

/-- A predicate every step preserves holds wherever a run ends. -/
theorem run_invariant {P : σ → Prop} {s₀ s : σ} {es : List ε}
    (hstep : ∀ {s e s'}, P s → step s e = some s' → P s') (h₀ : P s₀)
    (h : run step s₀ es = some s) : P s :=
  run_rec (motive := fun _ s => P s) h₀ (fun _ ih hs => hstep ih hs) h

/-- A view under which each step of one machine is a step of another turns runs
into runs. -/
theorem run_map {τ : Type*} {step' : τ → ε → Option τ} {view : σ → τ}
    (hstep : ∀ s e, (step s e).map view = step' (view s) e) (s : σ) (es : List ε) :
    (run step s es).map view = run step' (view s) es := by
  induction es generalizing s with
  | nil => rfl
  | cons e es ih =>
      rw [run_cons, run_cons, ← hstep s e, Option.map_bind, Option.bind_map]
      exact Option.bind_congr fun t _ => ih t

/-- `P` holds of every state the run passes through. -/
def Along (step : σ → ε → Option σ) (s₀ : σ) (es : List ε) (P : σ → Prop) :
    Prop :=
  ∀ pre post s, es = pre ++ post → run step s₀ pre = some s → P s

/-- When each step keeps `P` exactly under a condition on the state before it,
a run keeps `P` exactly when each of its steps meets the condition. -/
theorem along_iff {P : σ → Prop} {Q : σ → ε → Prop} {s₀ s : σ} {es : List ε}
    (h : run step s₀ es = some s) (h₀ : P s₀)
    (hstep : ∀ {pre t e t'}, run step s₀ pre = some t → P t → step t e = some t' →
      (P t' ↔ Q t e)) :
    Along step s₀ es P ↔
      ∀ pre e post t, es = pre ++ e :: post → run step s₀ pre = some t → Q t e := by
  constructor
  · intro halong pre e post t hes hpre
    rw [hes] at h
    obtain ⟨u, hu, hrest⟩ := run_append_some.mp h
    rw [hpre] at hu
    cases hu
    obtain ⟨t', hs, -⟩ := run_cons_some.mp hrest
    have hpost : es = (pre ++ [e]) ++ post := by rw [hes, List.append_assoc]; rfl
    have hnext : P t' := halong _ post t' hpost (run_snoc_some.mpr ⟨t, hpre, hs⟩)
    exact (hstep hpre (halong pre (e :: post) t hes hpre) hs).mp hnext
  · intro hQ pre post t hes hpre
    refine run_rec (motive := fun pre t => ∀ post, es = pre ++ post → P t)
      (fun _ _ => h₀) (fun {pre t e t'} hrun ih hs post hes => ?_) hpre post hes
    rw [List.append_assoc] at hes
    exact (hstep hrun (ih _ hes) hs).mpr (hQ pre e post t hes hrun)

/-! ## Logs, newest entry first -/

/-- `P` holds of every entry of a log and the part of the log older than it. -/
def Preceded {α : Type*} (P : α → List α → Prop) : List α → Prop
  | [] => True
  | x :: older => P x older ∧ Preceded P older

theorem Preceded.split {α : Type*} {P : α → List α → Prop} {newer older : List α} {x : α}
    (h : Preceded P (newer ++ x :: older)) : P x older := by
  induction newer with
  | nil => exact h.1
  | cons y newer ih => exact ih h.2

end Pompeius.Lib
