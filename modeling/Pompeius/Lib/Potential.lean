import Pompeius.Lib.Run

/-!
# Machines that run down

A potential is a number attached to each state. If from every state that is
not finished some event of a chosen kind lowers it, then events of that kind
alone finish the machine, and no more of them are needed than the potential
says. An invariant goes along, since a state is usually only accounted for when
the machine can reach it.

Where a machine passes through stages, one number for all of them is hard to
find. `Reaches` says that events of the chosen kind can take the machine to a
state of a given kind, and its rules put stages one after another.
-/

namespace Pompeius.Lib

variable {σ ε : Type*} {step : σ → ε → Option σ} {P : σ → Prop} {potential : σ → Nat}

/-- Events that lower the potential of every unfinished state finish the
machine. -/
theorem run_drains {Q : ε → Prop} {Done : σ → Prop}
    (hstep : ∀ s, P s → ¬ Done s →
      ∃ e s', Q e ∧ step s e = some s' ∧ P s' ∧ potential s' < potential s)
    {s : σ} (hs : P s) :
    ∃ es s', (∀ e ∈ es, Q e) ∧ run step s es = some s' ∧ P s' ∧ Done s' ∧
      es.length ≤ potential s := by
  induction hn : potential s using Nat.strongRecOn generalizing s with
  | ind n ih =>
      subst hn
      by_cases hdone : Done s
      · exact ⟨[], s, List.forall_mem_nil Q, rfl, hs, hdone, Nat.zero_le _⟩
      · obtain ⟨e, t, hQ, ht, hPt, hlt⟩ := hstep s hs hdone
        obtain ⟨es, s', hall, hrun, hPs', hdone', hlen⟩ := ih _ hlt hPt rfl
        refine ⟨e :: es, s', ?_, run_cons_some.mpr ⟨t, ht, hrun⟩, hPs', hdone', ?_⟩
        · exact List.forall_mem_cons.mpr ⟨hQ, hall⟩
        · rw [List.length_cons]
          omega

/-! ## Stages -/

/-- Events of the kind `Q` can take the machine from here to `R`. -/
def Reaches (step : σ → ε → Option σ) (Q : ε → Prop) (R : σ → Prop) (s : σ) : Prop :=
  ∃ es s', (∀ e ∈ es, Q e) ∧ run step s es = some s' ∧ R s'

namespace Reaches

variable {Q : ε → Prop} {R R' : σ → Prop} {s t : σ} {e : ε}

theorem refl (h : R s) : Reaches step Q R s := ⟨[], s, List.forall_mem_nil Q, rfl, h⟩

theorem head (hQ : Q e) (hs : step s e = some t) (h : Reaches step Q R t) :
    Reaches step Q R s := by
  obtain ⟨es, s', hall, hrun, hR⟩ := h
  exact ⟨e :: es, s', List.forall_mem_cons.mpr ⟨hQ, hall⟩, run_cons_some.mpr ⟨t, hs, hrun⟩, hR⟩

theorem bind (h : Reaches step Q R s) (hR : ∀ t, R t → Reaches step Q R' t) :
    Reaches step Q R' s := by
  obtain ⟨es, t, hall, hrun, ht⟩ := h
  obtain ⟨fs, s', hall', hrun', hs'⟩ := hR t ht
  exact ⟨es ++ fs, s', List.forall_mem_append.mpr ⟨hall, hall'⟩,
    run_append_some.mpr ⟨t, hrun, hrun'⟩, hs'⟩

/-- A stage that can be repeated with a smaller measure comes to an end. -/
theorem of_measure (measure : σ → Nat)
    (h : ∀ s, R s → R' s ∨ Reaches step Q (fun t => R t ∧ measure t < measure s) s) (hs : R s) :
    Reaches step Q R' s := by
  induction hn : measure s using Nat.strongRecOn generalizing s with
  | ind n ih =>
      subst hn
      rcases h s hs with hdone | hround
      · exact refl hdone
      · exact hround.bind fun t ⟨ht, hlt⟩ => ih _ hlt ht rfl

end Reaches

end Pompeius.Lib
