import Pompeius.Proofs.Sheets

/-!
# A screen gets one visit

The way back through the wizard is a way forward: it presents a new controller
of the old scene. So the controller in the window is always the newest, one
that was left is never shown again, and what a screen holds is what was typed
while it was shown, on a screen that came up blank (`one_visit`). What a tap
submits is no more than that either.
-/

namespace Pompeius

open Lib

namespace App

/-- What is typed on controller `j` along a run, in order. -/
def edits (j : Nat) : App → List Event → List Event
  | _, [] => []
  | a, e :: es =>
      (if a.shown = some j ∧ e.isEdit = true then [e] else []) ++
        ((a.next e).map fun a' => edits j a' es).getD []

section

variable {a a' : App} {e : Event} {evs : List Event} {j : Nat}

theorem edits_snoc (h : run next a evs = some a') (j : Nat) (e : Event) :
    edits j a (evs ++ [e]) =
      edits j a evs ++ if a'.shown = some j ∧ e.isEdit = true then [e] else [] := by
  induction evs generalizing a with
  | nil =>
      cases h
      have hrest : ((a'.next e).map fun a => edits j a []).getD [] = [] := by
        cases a'.next e <;> rfl
      show _ ++ ((a'.next e).map fun a => edits j a []).getD [] = [] ++ _
      rw [hrest, List.append_nil]
      rfl
  | cons e₀ evs ih =>
      obtain ⟨a₁, ha₁, hrun⟩ := run_cons_some.mp h
      rw [List.cons_append, edits, edits, ha₁, Option.map_some, Option.map_some, Option.getD_some,
        Option.getD_some, ih hrun, List.append_assoc]

theorem edits_snoc_of_not (h : run next a evs = some a') {j : Nat} {e : Event}
    (hj : ¬ (a'.shown = some j ∧ e.isEdit = true)) : edits j a (evs ++ [e]) = edits j a evs := by
  rw [edits_snoc h, if_neg hj, List.append_nil]

/-- The controller in the window is the newest. -/
def Newest (a : App) : Prop := a.shown = some (a.controllers.length - 1)

theorem newest_of_next (ha : Sound a) (hn : Newest a) (h : a.next e = some a') : Newest a' := by
  cases (survives_of_next ha h).step with
  | stay _ hdrawn =>
      have hlen : a'.controllers.length = a.controllers.length := by
        simpa using congrArg List.length hdrawn.scenes
      rw [Newest, hlen, hdrawn.shown]
      exact hn
  | @go a₁ c _ _ =>
      show some a₁.controllers.length = some ((a₁.controllers ++ [c]).length - 1)
      rw [List.length_append]
      rfl

theorem newest_of_run (ha : Sound a) (hn : Newest a) (h : run next a evs = some a') : Newest a' :=
  (run_invariant (P := fun a => Sound a ∧ Newest a) (fun ih hs =>
    ⟨(survives_of_next ih.1 hs).sound, newest_of_next ih.1 ih.2 hs⟩) ⟨ha, hn⟩ h).2

theorem Sheets.length (h : Sheets a e a') : a.controllers.length ≤ a'.controllers.length := by
  cases h with
  | edit _ _ _ _ heq =>
      rw [heq]
      simp [App.update]
  | told _ htold _ => exact htold.length

/-- What a screen holds changes only under the eyes of the user. -/
theorem Sheets.form (h : Sheets a e a') {c : Controller} (hc : a.controllers[j]? = some c) :
    ∃ c', a'.controllers[j]? = some c' ∧ c'.scene = c.scene ∧
      (c'.form = c.form ∧ ¬ (a.shown = some j ∧ e.isEdit = true) ∨
        c'.form = c.form.edit e ∧ a.shown = some j ∧ e.isEdit = true) := by
  cases h with
  | @edit id c₀ c₁ he hid hc₀ hedited heq =>
      by_cases hj : j = id
      · subst hj
        rw [hc₀] at hc
        cases hc
        refine ⟨c₁, ?_, Controller.scene_edited hedited,
          .inr ⟨Controller.form_edited hedited, hid, he⟩⟩
        rw [heq]
        exact List.getElem?_set_self (List.getElem?_eq_some_iff.mp hc₀).1
      · refine ⟨c, ?_, rfl, .inl ⟨rfl, fun hshown => ?_⟩⟩
        · rw [heq]
          exact (List.getElem?_set_ne (Ne.symm hj)).trans hc
        · rw [hid] at hshown
          exact hj (Option.some.inj hshown.1).symm
  | @told id messages he htold _ =>
      obtain ⟨c', hc', hsheet⟩ := htold.old j c hc
      have hform : c'.form = c.form := by
        rw [← c'.form_sheet, hsheet, ← c.form_sheet]
        split
        · exact Controller.form_told _ _
        · rfl
      have hscene : c'.scene = c.scene := by
        rw [← c'.scene_sheet, hsheet, ← c.scene_sheet]
        split
        · exact Controller.scene_told _ _
        · rfl
      refine ⟨c', hc', hscene, .inl ⟨hform, fun hedit => ?_⟩⟩
      rw [he] at hedit
      cases hedit.2

/-- What comes up comes up blank. -/
theorem Sheets.blank (h : Sheets a e a') {c' : Controller} (hj : a.controllers.length ≤ j)
    (hc' : a'.controllers[j]? = some c') : c'.sheet = c'.scene.instantiate := by
  cases h with
  | edit _ _ _ _ heq =>
      have hlt := (List.getElem?_eq_some_iff.mp hc').1
      rw [heq, App.update, List.length_set] at hlt
      exact absurd hlt (Nat.not_lt.mpr hj)
  | told _ htold _ => exact htold.new j c' hj hc'

/-- What was typed on the screens so far, and what the taps took from them. -/
structure Typed (b : Backend) (evs : List Event) (a : App) : Prop where
  forms : ∀ j c, a.controllers[j]? = some c →
    c.form = (edits j (initial b) evs).foldl Controller.edit c.scene.instantiate
  ahead : ∀ j, a.controllers.length ≤ j → edits j (initial b) evs = []
  taps : ∀ t ∈ a.device.taps, ∃ pre post button c, evs = pre ++ .tap button :: post ∧
    button.submission c = some t.invocation ∧
    c.form = (edits t.self (initial b) pre).foldl Controller.edit c.scene.instantiate

theorem typed_snoc {b : Backend} (hrun : run next (initial b) evs = some a) (ha : Sound a)
    (ih : Typed b evs a) (h : a.next e = some a') : Typed b (evs ++ [e]) a' := by
  have hsheets := sheets_of_next ha h
  -- nothing is typed on a screen that is not there
  have hahead : ∀ j, a.controllers.length ≤ j → edits j (initial b) (evs ++ [e]) = [] := by
    intro j hj
    rw [edits_snoc_of_not hrun, ih.ahead j hj]
    rintro ⟨hshown, -⟩
    obtain ⟨id, hid, hlt⟩ := ha.shown
    rw [hid] at hshown
    cases hshown
    exact absurd hlt (Nat.not_lt.mpr hj)
  refine ⟨fun j c' hc' => ?_, fun j hj => hahead j (Nat.le_trans hsheets.length hj), fun t ht => ?_⟩
  · rcases Nat.lt_or_ge j a.controllers.length with hlt | hge
    · have hc := List.getElem?_eq_getElem hlt
      obtain ⟨c₁, hc₁, hscene, ⟨hform, hnot⟩ | ⟨hform, hedit⟩⟩ := hsheets.form hc
      · rw [hc'] at hc₁
        cases hc₁
        rw [edits_snoc_of_not hrun hnot, hform, hscene]
        exact ih.forms j _ hc
      · rw [hc'] at hc₁
        cases hc₁
        rw [edits_snoc hrun, if_pos hedit, List.foldl_append, hform, hscene, ih.forms j _ hc]
        rfl
    · rw [hahead j hge, ← c'.form_sheet, hsheets.blank hge hc', Scene.form_instantiate]
      rfl
  · have hold : t ∈ a.device.taps → ∃ pre post button c, evs ++ [e] = pre ++ .tap button :: post ∧
        button.submission c = some t.invocation ∧
        c.form = (edits t.self (initial b) pre).foldl Controller.edit c.scene.instantiate := by
      intro hmem
      obtain ⟨pre, post, button, c, hevs, hrest⟩ := ih.taps t hmem
      refine ⟨pre, post ++ [e], button, c, ?_, hrest⟩
      rw [hevs, List.append_assoc]
      rfl
    have hsurvives := survives_of_next ha h
    cases e with
    | tap button =>
        obtain ⟨id, c, hid, hc, hdevice | ⟨inv, eff, hsub, -, hdevice⟩⟩ := hsurvives.tap_device ha
        · rw [hdevice.2] at ht
          exact hold ht
        · rw [hdevice] at ht
          rcases List.mem_append.mp ht with ht | ht
          · exact hold ht
          · rw [List.mem_singleton.mp ht]
            refine ⟨evs, [], button, c, rfl, hsub, ih.forms id c ?_⟩
            rw [shownController, hid] at hc
            exact hc
    | _ =>
        rw [Device.taps_of_run hsurvives.device (by simp [deviceEvents])] at ht
        exact hold ht

theorem typed_of_run {b : Backend} (h : run next (initial b) evs = some a) : Typed b evs a := by
  refine run_rec (motive := fun evs a => Typed b evs a) ⟨fun j c hc => ?_, fun _ _ => rfl, ?_⟩
    (fun hrun ih hs => typed_snoc hrun ((sound_initial b).of_run hrun) ih hs) h
  · cases List.mem_singleton.mp (List.mem_of_getElem? hc)
    rfl
  · intro t ht
    cases ht

/-- A screen that was left is as it was left. -/
theorem left_of_run (ha : Sound a) (hn : Newest a) (h : run next a evs = some a')
    (hj : j + 1 < a.controllers.length) :
    a'.shown ≠ some j ∧
      a'.controllers[j]?.map Controller.form = a.controllers[j]?.map Controller.form := by
  have hkept := run_invariant (P := fun a' => (Sound a' ∧ Newest a') ∧
      a.controllers.length ≤ a'.controllers.length ∧
      a'.controllers[j]?.map Controller.form = a.controllers[j]?.map Controller.form)
    (fun {s e s'} ih hs => ?_) ⟨⟨ha, hn⟩, Nat.le_refl _, rfl⟩ h
  · refine ⟨fun hshown => ?_, hkept.2.2⟩
    have hnewest : a'.shown = some (a'.controllers.length - 1) := hkept.1.2
    rw [hnewest] at hshown
    have hlen := hkept.2.1
    have heq := Option.some.inj hshown
    omega
  · obtain ⟨⟨hs₀, hn₀⟩, hlen, hform⟩ := ih
    have hsheets := sheets_of_next hs₀ hs
    refine ⟨⟨(survives_of_next hs₀ hs).sound, newest_of_next hs₀ hn₀ hs⟩,
      Nat.le_trans hlen hsheets.length, ?_⟩
    have hlt : j < s.controllers.length := by omega
    have hc := List.getElem?_eq_getElem hlt
    obtain ⟨c', hc', -, ⟨hsame, -⟩ | ⟨-, hshown, -⟩⟩ := hsheets.form hc
    · rw [← hform, hc, hc', Option.map_some, Option.map_some, hsame]
    · have hnewest : s.shown = some (s.controllers.length - 1) := hn₀
      rw [hnewest] at hshown
      have heq := Option.some.inj hshown
      omega

/-- The newest controller is in the window, a controller that was left is never
shown or written on again, what a screen holds was typed on it in its one visit,
and so was what a tap submits. -/
theorem one_visit {b : Backend} (h : run next (initial b) evs = some a) :
    a.shown = some (a.controllers.length - 1) ∧
    (∀ j c, a.controllers[j]? = some c →
      c.form = (edits j (initial b) evs).foldl Controller.edit c.scene.instantiate) ∧
    (∀ more a' j, run next a more = some a' → j + 1 < a.controllers.length →
      a'.shown ≠ some j ∧
      a'.controllers[j]?.map Controller.form = a.controllers[j]?.map Controller.form) ∧
    ∀ t ∈ a.device.taps, ∃ pre post button c, evs = pre ++ .tap button :: post ∧
      button.submission c = some t.invocation ∧
      c.form = (edits t.self (initial b) pre).foldl Controller.edit c.scene.instantiate := by
  have ha := (sound_initial b).of_run h
  have hn : Newest a := newest_of_run (sound_initial b) rfl h
  have htyped := typed_of_run h
  exact ⟨hn, htyped.forms, fun more a' j hmore hj => left_of_run ha hn hmore hj, htyped.taps⟩

/-- Something typed on page 1 is gone after a look at the registration. -/
def thereAndBack : List Event :=
  [.tap .registerHere, .tap .register, .type .occupation "poet", .tap .profileBack,
   .tap .register]

theorem one_visit_thereAndBack :
    ∃ a c, run next (initial {}) thereAndBack = some a ∧ a.shown = some 4 ∧
      a.controllers[4]? = some c ∧ c.form = ([] : List Event).foldl Controller.edit (.myProfile {}) := by
  have hrun : run next (initial {}) thereAndBack = some _ := rfl
  obtain ⟨hnewest, hforms, -, -⟩ := one_visit hrun
  exact ⟨_, _, hrun, hnewest, rfl, hforms 4 _ rfl⟩

end

end App

end Pompeius
