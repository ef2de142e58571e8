import Pompeius.Proofs.Visits

/-!
# What an error label says

A label is hidden until something is reported on its screen, and then it says
what was reported last: a later success takes nothing back, nor does another
attempt. Reports go to the screen of the tap they are about, however many taps
are under way.

The life of a tap says which reports there are (`reports_of_life`): what its
handler showed, and what the completion handlers of the answers delivered to it
showed. That leaves the password policy and the refusals of three calls
(`complaint`); nothing is ever reported on a profile page.
-/

namespace Pompeius

open Lib Device

/-- What a completion handler reports about an answer. -/
def Request.complaint : Request → Answer → Option String
  | .signIn .., .signIn (.failure e) => some e.localizedDescription
  | .createUser .., .createUser (.failure _) => some "Email has been used already"
  | .createUser .., .createUser (.incomplete _ _) => some "Email has been used already"
  | .setData _ true, .setData (.failure _) =>
      some "User's name could not be uploaded to database"
  | _, _ => none

theorem mem_ui_completion {r : Request} {a : Answer} {eff : Effects}
    (h : completion r a = .ok eff) {message : String} :
    .showError message ∈ eff.ui ↔ r.complaint a = some message := by
  have hquiet : eff = {} → r.complaint a = none →
      (.showError message ∈ eff.ui ↔ r.complaint a = some message) := by
    rintro rfl hnone
    rw [hnone]
    exact iff_of_false List.not_mem_nil nofun
  cases r with
  | signIn email password =>
      cases a with
      | signIn reply => cases reply <;> cases h <;> simp [Request.complaint, eq_comm]
      | _ => exact hquiet (Except.ok.inj h).symm rfl
  | createUser email password firstName lastName =>
      cases a with
      | createUser reply => cases reply <;> cases h <;> simp [Request.complaint, eq_comm]
      | _ => exact hquiet (Except.ok.inj h).symm rfl
  | putData ref object dict =>
      cases a with
      | putData reply => cases reply <;> cases h <;> simp [Request.complaint]
      | _ => exact hquiet (Except.ok.inj h).symm rfl
  | downloadURL ref dict =>
      cases a with
      | downloadURL reply => cases reply <;> cases h <;> simp [Request.complaint]
      | _ => exact hquiet (Except.ok.inj h).symm rfl
  | setData w awaits =>
      cases awaits with
      | false => cases a <;> exact hquiet (Except.ok.inj h).symm rfl
      | true =>
          cases a with
          | setData reply => cases reply <;> cases h <;> simp [Request.complaint, eq_comm]
          | _ => exact hquiet (Except.ok.inj h).symm rfl

/-- What the handler of a tap reports about the form. -/
def Invocation.Objects (h : Invocation) (message : String) : Prop :=
  ∃ form, h = .registerButton form ∧
    Utilities.isPasswordValid form.passwordField.cleaned = false ∧ message = passwordPolicy

theorem mem_ui_run {h : Invocation} {user : Option User} {eff : Effects}
    (heff : h.run user = .ok eff) {message : String} :
    .showError message ∈ eff.ui ↔ h.Objects message := by
  cases h with
  | loginButton form =>
      change form.loginButton = _ at heff
      rw [form.loginButton_eq] at heff
      cases heff
      simp [Invocation.Objects]
  | registerButton form =>
      change form.registerButton = _ at heff
      rw [form.registerButton_eq] at heff
      have heq := Except.ok.inj heff
      split at heq
      · rename_i hvalid
        rw [← heq]
        simp [Invocation.Objects, hvalid]
      · rename_i hvalid
        rw [← heq]
        simp [Invocation.Objects, hvalid]
  | profileContinue form =>
      change form.continueButton user = _ at heff
      rw [form.continueButton_eq] at heff
      cases heff
      cases form.imageData <;> simp [Invocation.Objects]
  | profile2Continue form =>
      change form.continueButton user = _ at heff
      rw [form.continueButton_eq] at heff
      cases heff
      simp [Invocation.Objects]

theorem ui_mem_deeds {eff : Effects} {e : UIEffect} : .ui e ∈ deeds eff ↔ e ∈ eff.ui := by
  rw [deeds, List.mem_append]
  constructor
  · rintro (h | h)
    · obtain ⟨e', he', heq⟩ := List.mem_map.mp h
      cases heq
      exact List.mem_reverse.mp he'
    · obtain ⟨r, -, heq⟩ := Option.map_eq_some_iff.mp (Option.mem_toList.mp h)
      cases heq
  · exact fun h => .inl (List.mem_map_of_mem (List.mem_reverse.mpr h))

theorem delivered_not_mem_deeds {eff : Effects} {r : Request} {a : Answer} :
    .delivered r a ∉ deeds eff := by
  intro h
  rcases kind_of_mem_deeds h with ⟨e, heq⟩ | ⟨r', heq⟩ <;> cases heq

/-- A tap reports what its handler objects to and what its completion handlers
complain of. -/
theorem reports_of_life {t : Tap} {call : Option Call} {ds : List Deed} (h : Life t call ds)
    (message : String) :
    .ui (.showError message) ∈ ds ↔ t.invocation.Objects message ∨
      ∃ r a, .delivered r a ∈ ds ∧ r.complaint a = some message := by
  induction h with
  | tap heff =>
      rw [ui_mem_deeds, mem_ui_run heff]
      constructor
      · exact .inl
      · rintro (h | ⟨r, a, hmem, -⟩)
        · exact h
        · exact absurd hmem delivered_not_mem_deeds
  | serve _ _ ih => simpa using ih
  | @deliver r a eff ds _ heff ih =>
      rw [List.mem_append, ui_mem_deeds, mem_ui_completion heff, List.mem_cons]
      simp only [reduceCtorEq, false_or]
      rw [ih]
      constructor
      · rintro (h | h | ⟨r', a', hmem, hcomplaint⟩)
        · exact .inr ⟨r, a, by simp, h⟩
        · exact .inl h
        · exact .inr ⟨r', a', by simp [hmem], hcomplaint⟩
      · rintro (h | ⟨r', a', hmem, hcomplaint⟩)
        · exact .inr (.inl h)
        · rcases List.mem_append.mp hmem with hmem | hmem
          · exact absurd hmem delivered_not_mem_deeds
          · rcases List.mem_cons.mp hmem with heq | hmem
            · cases heq
              exact .inl hcomplaint
            · exact .inr (.inr ⟨r', a', hmem, hcomplaint⟩)

theorem mem_reports_iff {d : Device} {j : Nat} {message : String} :
    message ∈ d.reports j ↔
      ∃ i t, d.taps[i]? = some t ∧ t.self = j ∧ (i, .ui (.showError message)) ∈ d.history := by
  rw [reports, List.mem_filterMap]
  constructor
  · rintro ⟨⟨i, x⟩, hmem, heq⟩
    unfold reported at heq
    split at heq
    · rename_i i' message' heq'
      split at heq
      · rename_i hself
        cases heq'
        cases heq
        obtain ⟨t, ht, hj⟩ := Option.map_eq_some_iff.mp hself
        exact ⟨_, t, ht, hj, hmem⟩
      · cases heq
    · cases heq
  · rintro ⟨i, t, ht, hself, hmem⟩
    refine ⟨_, hmem, if_pos ?_⟩
    rw [ht, ← hself]
    rfl

/-- Nobody complains of a profile page. -/
theorem complaint_of_issues {t : Tap} {r : Request} {a : Answer} {message : String}
    (ht : t.Issues r) (h : r.complaint a = some message) :
    (∃ form, t.invocation = .loginButton form) ∨ ∃ form, t.invocation = .registerButton form := by
  cases ht with
  | signIn hinv => exact .inl ⟨_, hinv⟩
  | createUser hinv => exact .inr ⟨_, hinv⟩
  | registration uid hinv => exact .inr ⟨_, hinv⟩
  | putData _ _ _ => cases a <;> cases h
  | downloadURL _ _ => cases a <;> cases h
  | profile _ _ _ => cases a <;> cases h
  | profile2 _ _ => cases a <;> cases h

namespace App

section

variable {a a' : App} {e : Event} {evs : List Event}

/-- Every label says what was reported on its screen last. -/
def Labelled (a : App) : Prop :=
  ∀ (j : Nat) c, a.controllers[j]? = some c → c.errorLabel =
    c.scene.instantiate.errorLabel.map fun label =>
      (a.device.reports j).head?.elim label (⟨·, 1⟩)

/-- Nothing is reported on a screen that is not there. -/
theorem Sound.reports_eq_nil (ha : Sound a) {j : Nat} (hj : a.controllers.length ≤ j) :
    a.device.reports j = [] := by
  refine List.eq_nil_iff_forall_not_mem.mpr fun message hmem => ?_
  obtain ⟨i, t, ht, rfl, -⟩ := mem_reports_iff.mp hmem
  have hscene := (List.getElem?_eq_some_iff.mp (ha.taps t (List.mem_of_getElem? ht))).1
  rw [List.length_map] at hscene
  exact absurd hscene (Nat.not_lt.mpr hj)

theorem Sound.mem_reports (ha : Sound a) {j : Nat} {message : String} :
    message ∈ a.device.reports j ↔ ∃ i t, a.device.taps[i]? = some t ∧ t.self = j ∧
      (t.invocation.Objects message ∨ ∃ r ans, (i, .delivered r ans) ∈ a.device.history ∧
        r.complaint ans = some message) := by
  rw [mem_reports_iff]
  refine exists_congr fun i => exists_congr fun t => and_congr_right fun ht => ?_
  refine and_congr_right fun _ => ?_
  rw [← mem_deedsOf, reports_of_life (ha.lives.born i t ht)]
  simp only [mem_deedsOf]

/-- Nobody objects or complains on a profile page. -/
theorem Sound.reports_of_profile (ha : Sound a) {j : Nat} {c : Controller}
    (hc : a.controllers[j]? = some c) (hscene : c.scene = .myProfile ∨ c.scene = .myProfile2) :
    a.device.reports j = [] := by
  refine List.eq_nil_iff_forall_not_mem.mpr fun message hmem => ?_
  obtain ⟨i, t, ht, rfl, hreport⟩ := ha.mem_reports.mp hmem
  have hinv : t.invocation.scene = .myProfile ∨ t.invocation.scene = .myProfile2 := by
    have hself := ha.taps t (List.mem_of_getElem? ht)
    rw [List.getElem?_map, hc] at hself
    rwa [← Option.some.inj hself]
  have hform : (∃ form, t.invocation = .loginButton form) ∨
      ∃ form, t.invocation = .registerButton form := by
    rcases hreport with ⟨form, hform, -⟩ | ⟨r, ans, hmem, hcomplaint⟩
    · exact .inr ⟨form, hform⟩
    · have hissues := (issues_of_life (ha.lives.born i t ht)).2 _ (mem_deedsOf.mpr hmem) r rfl
      exact complaint_of_issues hissues hcomplaint
  rcases hform with ⟨form, hform⟩ | ⟨form, hform⟩
  all_goals
    rw [hform] at hinv
    rcases hinv with h | h <;> cases h

theorem labelled_step (ha : Sound a) (hl : Labelled a) (h : Sheets a e a') :
    Labelled a' := by
  intro j c' hc'
  rcases Nat.lt_or_ge j a.controllers.length with hlt | hge
  · have hc := List.getElem?_eq_getElem hlt
    have hlabel := hl j _ hc
    cases h with
    | @edit id c₀ c₁ _ _ hc₀ hedited heq =>
        subst heq
        have hscene : c'.scene = a.controllers[j].scene ∧
            c'.errorLabel = a.controllers[j].errorLabel := by
          by_cases hj : j = id
          · subst hj
            change (a.controllers.set j c₁)[j]? = some c' at hc'
            rw [List.getElem?_set_self hlt] at hc'
            rw [hc] at hc₀
            cases hc'
            cases hc₀
            exact ⟨Controller.scene_edited hedited, Controller.errorLabel_edited hedited⟩
          · change (a.controllers.set id c₁)[j]? = some c' at hc'
            rw [List.getElem?_set_ne (Ne.symm hj), hc] at hc'
            cases hc'
            exact ⟨rfl, rfl⟩
        rw [hscene.1, hscene.2, hlabel]
        rfl
    | @told id messages _ htold hreports =>
        obtain ⟨c₁, hc₁, hsheet⟩ := htold.old j _ hc
        rw [hc'] at hc₁
        cases hc₁
        rw [hreports j, ← c'.errorLabel_sheet, ← c'.scene_sheet, hsheet]
        by_cases hj : j = id
        · rw [if_pos hj, if_pos hj.symm, Controller.errorLabel_told, Controller.scene_told,
            Controller.errorLabel_sheet, Controller.scene_sheet, hlabel, Option.map_map,
            List.head?_append, List.head?_reverse]
          refine Option.map_congr fun label _ => ?_
          cases messages.getLast? <;> rfl
        · rw [if_neg hj, if_neg (Ne.symm hj), Controller.errorLabel_sheet, Controller.scene_sheet]
          exact hlabel
  · -- it has just come up, and nothing has been reported on it
    have hblank := h.blank hge hc'
    have hnone : a'.device.reports j = [] := by
      cases h with
      | edit _ _ _ _ heq =>
          rw [heq]
          exact ha.reports_eq_nil hge
      | @told id messages _ htold hreports =>
          have hne : id ≠ j := Nat.ne_of_lt (Nat.lt_of_lt_of_le htold.acts hge)
          rw [hreports j, if_neg hne, ha.reports_eq_nil hge]
          rfl
    rw [hnone, ← c'.errorLabel_sheet, hblank]
    exact Option.map_id'.symm

/-- In every run the label of a screen is hidden, or says what was reported on
it last; the reports are the objections and complaints about taps on it, and
there are none on a profile page. -/
theorem labels_of_run {b : Backend} (h : run next (initial b) evs = some a) :
    (∀ (j : Nat) c, a.controllers[j]? = some c → c.errorLabel =
      c.scene.instantiate.errorLabel.map fun label =>
        (a.device.reports j).head?.elim label (⟨·, 1⟩)) ∧
    (∀ j message, message ∈ a.device.reports j ↔ ∃ i t, a.device.taps[i]? = some t ∧ t.self = j ∧
      (t.invocation.Objects message ∨ ∃ r ans, (i, .delivered r ans) ∈ a.device.history ∧
        r.complaint ans = some message)) ∧
    ∀ (j : Nat) c, a.controllers[j]? = some c → c.scene = .myProfile ∨ c.scene = .myProfile2 →
      c.errorLabel = some hiddenLabel := by
  have ha := (sound_initial b).of_run h
  have hlabelled : Labelled a := by
    refine (run_invariant (P := fun a => Sound a ∧ Labelled a) (fun {a e a'} ih hs => ?_)
      ⟨sound_initial b, fun j c hc => ?_⟩ h).2
    · have hs' := (survives_of_next ih.1 hs).sound
      exact ⟨hs', labelled_step ih.1 ih.2 (sheets_of_next ih.1 hs)⟩
    · cases List.mem_singleton.mp (List.mem_of_getElem? hc)
      rfl
  refine ⟨hlabelled, fun j message => ha.mem_reports, fun j c hc hscene => ?_⟩
  rw [hlabelled j c hc, ha.reports_of_profile hc hscene]
  rcases hscene with hscene | hscene <;> rw [hscene] <;> rfl

theorem labels_of_run_blank :
    ∃ a c, run next (initial {}) [.tap .registerHere, .tap .register] = some a ∧
      a.controllers[1]? = some c ∧ c.errorLabel = some ⟨passwordPolicy, 1⟩ := by
  have hrun : run next (initial {}) [.tap .registerHere, .tap .register] = some _ := rfl
  exact ⟨_, _, hrun, rfl, (labels_of_run hrun).1 1 _ rfl⟩

end

end App

end Pompeius
