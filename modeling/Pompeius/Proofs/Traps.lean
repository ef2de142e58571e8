import Pompeius.Proofs.Wizard

/-!
# When the app traps

Of everything that can happen to the app two events kill it, and they always
do: Begin Survey, whose scene connects an outlet to a name its controller does
not have, and a sign-in with Google reported without a profile, which is how
an error and a cancellation are reported. No other tap, text or callback traps
on any screen, so a run survives exactly when it has neither.
-/

namespace Pompeius

open Lib

namespace App

/-- What becomes of a process that has seen these events. -/
def Fate (evs : List Event) : Except Trap App → Prop
  | .ok a => Sound a ∧ ∀ e ∈ evs, ¬ e.Hazard
  | .error _ => ∃ e ∈ evs, e.Hazard

theorem fate_of_run {b : Backend} {evs : List Event} {r : Except Trap App}
    (h : run advance (launch b) evs = some r) : Fate evs r := by
  refine run_rec (motive := Fate) ?_ (fun {es s e s'} _ ih hs => ?_) h
  · show Sound (initial b) ∧ _
    exact ⟨sound_initial b, by simp⟩
  · cases s with
    | error t => cases hs
    | ok a =>
        obtain ⟨ha, hes⟩ := ih
        obtain ⟨hhazard, t, rfl⟩ | ⟨a', rfl, hsurvives⟩ := step_spec ha hs
        · exact ⟨e, by simp, hhazard⟩
        · refine ⟨hsurvives.sound, fun e' he' => ?_⟩
          rcases List.mem_append.mp he' with he' | he'
          · exact hes e' he'
          · rw [List.mem_singleton.mp he']
            exact hsurvives.harmless

theorem never_traps_iff {b : Backend} {evs : List Event} {r : Except Trap App}
    (h : run advance (launch b) evs = some r) :
    (∀ t, r ≠ .error t) ↔ ∀ e ∈ evs, ¬ e.Hazard := by
  have hfate := fate_of_run h
  cases r with
  | ok a => exact iff_of_true nofun hfate.2
  | error t =>
      obtain ⟨e, he, hhazard⟩ := hfate
      exact iff_of_false (fun halive => halive t rfl) fun hsafe => hsafe e he hhazard

theorem never_traps_blankWizard :
    ∃ r, run advance (launch {}) blankWizard = some r ∧ ∀ t, r ≠ .error t := by
  have hrun : run advance (launch {}) blankWizard = some _ := rfl
  exact ⟨_, hrun, (never_traps_iff hrun).mpr (by simp [blankWizard, Event.Hazard])⟩

theorem begun_survey_and_cancelled_google_trap :
    run advance (launch {}) (blankWizard ++ [.tap .beginSurvey]) =
        some (.error (.undefinedKey "continueButton")) ∧
      run advance (launch {}) [.tapGoogle, .googleSignIn none] =
        some (.error (.unexpectedNil "user")) :=
  ⟨rfl, rfl⟩

end App

end Pompeius
