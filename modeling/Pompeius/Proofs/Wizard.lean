import Pompeius.Proofs.Soundness

/-!
# The gates of the sign-up wizard

Three screens of the wizard follow on a form: page 1 on the registration, page
2 on page 1, the survey introduction on page 2. `trail_of_run` says what it
really takes to see one of them: it was presented exactly when the button of
the form before it was tapped. The way back adds nothing, since who goes back
has been there before.

The gates ask for more than a tap. `wizard_gated_iff` compares the two over
whole runs. The gate of page 1 (`gated_iff`) wants an account, and an account takes a callback,
while the screen comes up with the tap; so the gates hold all along exactly in
the runs in which nobody taps Register. The gate of page 2 wants an image, and
holds exactly when there is one selected whenever page 1 is continued with
page 2 unseen. The gate of the survey wants nothing the tap does not give.
-/

namespace Pompeius

open Lib

/-- The button that runs a submit handler. -/
def Invocation.button : Invocation → Button
  | .loginButton _ => .login
  | .registerButton _ => .register
  | .profileContinue _ => .profileContinue
  | .profile2Continue _ => .profile2Continue

theorem Button.submission_eq_some {b : Button} {c : Controller} {h : Invocation}
    (hsub : b.submission c = some h) : h.button = b ∧ h.scene = b.scene := by
  unfold Button.submission at hsub
  split at hsub <;> cases hsub <;> exact ⟨rfl, rfl⟩

/-- The screens behind a form, with the button of the form. -/
def gates : List (Scene × Button) :=
  [(.myProfile, .register), (.myProfile2, .profileContinue),
   (.surveyIntroduction, .profile2Continue)]

theorem mem_gates {s : Scene} {g : Button} :
    (s, g) ∈ gates ↔ s = .myProfile ∧ g = .register ∨ s = .myProfile2 ∧ g = .profileContinue ∨
      s = .surveyIntroduction ∧ g = .profile2Continue := by
  simp [gates]

/-- A button that leads to a gated screen is the one of the gate, or leads
back from a later screen or from the questions. -/
theorem back_of_segues {s : Scene} {g b : Button} (hgate : (s, g) ∈ gates) {segue : Segue}
    (hsegues : b.segues = [segue]) (hdestination : segue.destination = s) :
    b = g ∨ b.scene = .q1 ∨ ∃ g', (b.scene, g') ∈ gates ∧ g'.scene = s := by
  subst hdestination
  rw [mem_gates] at hgate
  cases b <;> cases hsegues <;> simp_all [mem_gates, Button.scene]

/-- The button of a gate leads to its screen. -/
theorem segues_of_gate {s : Scene} {g : Button} (hgate : (s, g) ∈ gates) :
    ∃ segue, g.segues = [segue] ∧ segue.destination = s := by
  rcases mem_gates.mp hgate with ⟨rfl, rfl⟩ | ⟨rfl, rfl⟩ | ⟨rfl, rfl⟩ <;> exact ⟨_, rfl, rfl⟩

/-- The button of a gate runs a submit handler. -/
theorem submission_of_gate {s : Scene} {g : Button} (hgate : (s, g) ∈ gates) {c : Controller}
    (hc : c.scene = g.scene) : ∃ h, g.submission c = some h ∧ h.button = g := by
  rcases mem_gates.mp hgate with ⟨rfl, rfl⟩ | ⟨rfl, rfl⟩ | ⟨rfl, rfl⟩ <;> cases c <;>
    first
    | exact ⟨_, rfl, rfl⟩
    | cases hc

namespace App

section

variable {a a' : App} {e : Event}

/-- The gated screens presented are those whose button was tapped. -/
def Trail (a : App) : Prop :=
  ∀ s g, (s, g) ∈ gates → (s ∈ a.presented ↔ ∃ t ∈ a.device.taps, t.invocation.button = g)

theorem Step.presented_subset (h : Step a e a') {s : Scene} (hs : s ∈ a.presented) :
    s ∈ a'.presented := by
  cases h with
  | stay _ hdrawn =>
      rw [hdrawn.presented]
      exact hs
  | @go a₁ c _ hdrawn =>
      refine List.mem_cons_of_mem c.scene ?_
      rw [hdrawn.presented]
      exact hs

theorem Step.of_mem_presented (h : Step a e a') {s : Scene} (hs : s ∈ a'.presented) :
    s ∈ a.presented ∨ ∃ c, Leads a e c ∧ c.scene = s := by
  cases h with
  | stay _ hdrawn =>
      rw [hdrawn.presented] at hs
      exact .inl hs
  | @go a₁ c hleads hdrawn =>
      rcases List.mem_cons.mp hs with hs | hs
      · exact .inr ⟨c, hleads, hs.symm⟩
      · rw [hdrawn.presented] at hs
        exact .inl hs

/-- A button with a segue brings up its destination. -/
theorem Step.arrives {b : Button} (h : Step a (.tap b) a') {segue : Segue}
    (hsegues : b.segues = [segue]) : segue.destination ∈ a'.presented := by
  cases h with
  | stay hquiet _ =>
      rw [hquiet b rfl] at hsegues
      cases hsegues
  | @go a₁ c hleads _ =>
      cases hleads with
      | tap _ _ hsegues' hc =>
          rw [hsegues] at hsegues'
          cases hsegues'
          exact List.mem_cons.mpr (.inl hc.symm)

/-- A tap was made on a screen that had been presented. -/
theorem Sound.scene_of_mem_taps (ha : Sound a) {t : Tap} (ht : t ∈ a.device.taps) :
    t.invocation.button.scene ∈ a.presented := by
  have hscene : t.invocation.button.scene = t.invocation.scene := by
    cases t.invocation <;> rfl
  rw [hscene, ha.presented, List.mem_reverse]
  exact List.mem_of_getElem? (ha.taps t ht)

theorem trail_step (ha : Sound a) (htrail : Trail a) (h : Survives a e a') : Trail a' := by
  intro s g hgate
  constructor
  · intro hs
    rcases h.step.of_mem_presented hs with hs | ⟨c, hleads, hc⟩
    · obtain ⟨t, ht, hg⟩ := (htrail s g hgate).mp hs
      exact ⟨t, h.taps_prefix.mem ht, hg⟩
    · -- whoever has come back has tapped the button of the gate before
      have hold : s ∈ a.presented → ∃ t ∈ a'.device.taps, t.invocation.button = g := by
        intro hs
        obtain ⟨t, ht, hg⟩ := (htrail s g hgate).mp hs
        exact ⟨t, h.taps_prefix.mem ht, hg⟩
      cases hleads with
      | @tap b segue c₀ _ hc₀ hscene hsegues hdest =>
          have hshown := ha.mem_presented hc₀
          rw [hscene] at hshown
          rcases back_of_segues hgate hsegues (hdest.symm.trans hc) with rfl | hq1 | ⟨g', hg', hs'⟩
          · obtain ⟨inv, hsub, hbutton⟩ := submission_of_gate hgate hscene
            obtain ⟨id, c', -, hc', ⟨hsub', -⟩ | ⟨inv', eff, hsub', -, hdevice⟩⟩ := h.tap_device ha
            · rw [hc₀] at hc'
              cases hc'
              rw [hsub] at hsub'
              cases hsub'
            · rw [hdevice]
              refine ⟨_, List.mem_append_right _ List.mem_cons_self, ?_⟩
              exact (Button.submission_eq_some hsub').1
          · rw [hq1] at hshown
            exact absurd hshown ha.unasked.1
          · obtain ⟨t, ht, rfl⟩ := (htrail _ g' hg').mp hshown
            exact hold (hs' ▸ ha.scene_of_mem_taps ht)
      | @registered i t self _ ht hinv hmyProfile =>
          have hregister : g = .register := by
            rw [← hc, hmyProfile] at hgate
            simpa [mem_gates] using hgate
          refine ⟨t, h.taps_prefix.mem (List.mem_of_getElem? ht), ?_⟩
          rw [hinv, hregister]
          rfl
      | loggedIn =>
          rw [← hc] at hgate
          simp [mem_gates, Controller.scene] at hgate
  · rintro ⟨t, ht, hg⟩
    rcases h.new_tap ha ht with ht | ⟨b, c, rfl, -, hsub⟩
    · exact h.step.presented_subset ((htrail s g hgate).mpr ⟨t, ht, hg⟩)
    · have hb : b = g := (Button.submission_eq_some hsub).1.symm.trans hg
      obtain ⟨segue, hsegues, hs⟩ := segues_of_gate hgate
      rw [← hb] at hsegues
      exact hs ▸ h.step.arrives hsegues

theorem trail_of_run {b : Backend} {evs : List Event} (h : run next (initial b) evs = some a) :
    Trail a := by
  refine (run_invariant (P := fun a => Sound a ∧ Trail a) (fun {a e a'} ih hs => ?_)
    ⟨sound_initial b, ?_⟩ h).2
  · have hsurvives := survives_of_next ih.1 hs
    exact ⟨hsurvives.sound, trail_step ih.1 ih.2 hsurvives⟩
  · intro s g hgate
    refine iff_of_false (fun hs => ?_) ?_
    · rw [List.mem_singleton.mp hs] at hgate
      simp [mem_gates] at hgate
    · rintro ⟨t, ht, -⟩
      cases ht

/-! ## The gates -/

/-- A registration on a form that validates has been answered with an account. -/
def Registered (d : Device) : Prop :=
  ∃ i t form r uid, d.taps[i]? = some t ∧ t.invocation = .registerButton form ∧
    form.validateFields = .ok none ∧
    (i, .delivered r (.createUser (.success uid))) ∈ d.history

/-- Page 1 was continued with a selected image and a form that validates. -/
def ContinuedPage1 (d : Device) : Prop :=
  ∃ t ∈ d.taps, ∃ form, t.invocation = .profileContinue form ∧ form.image.isSome ∧
    form.validateFields = .ok none

/-- Page 2 was continued with a form that validates. -/
def ContinuedPage2 (d : Device) : Prop :=
  ∃ t ∈ d.taps, ∃ form, t.invocation = .profile2Continue form ∧
    form.validateFields = .ok none

/-- No screen of the wizard was presented with the step before it undone. -/
structure Gated (a : App) : Prop where
  myProfile : .myProfile ∈ a.presented → Registered a.device
  myProfile2 : .myProfile2 ∈ a.presented → ContinuedPage1 a.device
  surveyIntroduction : .surveyIntroduction ∈ a.presented → ContinuedPage2 a.device

variable {b : Backend} {evs : List Event}

theorem tapped_of_run (h : run next (initial b) evs = some a) :
    ∀ t ∈ a.device.taps, .tap t.invocation.button ∈ evs := by
  refine run_rec (motive := fun evs a => ∀ t ∈ a.device.taps, .tap t.invocation.button ∈ evs)
    nofun (fun {es a e a'} hrun ih hs t ht => ?_) h
  have ha := (sound_initial b).of_run hrun
  rcases (survives_of_next ha hs).new_tap ha ht with ht | ⟨b, c, rfl, -, hsub⟩
  · exact List.mem_append_left _ (ih t ht)
  · rw [(Button.submission_eq_some hsub).1]
    exact List.mem_append_right _ List.mem_cons_self

/-- Nobody has an account at the moment of the first tap on Register. -/
theorem not_registered_of_first (ha : Sound a) (h : Survives a (.tap .register) a')
    (hfirst : ∀ t ∈ a.device.taps, t.invocation.button ≠ .register) : ¬ Registered a'.device := by
  rintro ⟨i, t, form, r, uid, ht, hinv, -, hdelivered⟩
  have hold : (i, .delivered r (.createUser (.success uid))) ∈ a.device.history := by
    obtain ⟨id, c, -, -, ⟨-, hdevice⟩ | ⟨inv, eff, -, -, hdevice⟩⟩ := h.tap_device ha
    · rw [hdevice] at hdelivered
      exact hdelivered
    · rw [hdevice] at hdelivered
      rcases List.mem_append.mp hdelivered with hmem | hmem
      · obtain ⟨x, hx, heq⟩ := List.mem_map.mp hmem
        cases heq
        obtain ⟨e, he⟩ | ⟨r', hr⟩ := Device.kind_of_mem_deeds hx
        · cases he
        · cases hr
      · exact hmem
  obtain ⟨t₀, ht₀⟩ := ha.lives.exists_tap_of_mem hold
  obtain ⟨rest, htaps⟩ := h.taps_prefix
  rw [← htaps, List.getElem?_append_left (List.getElem?_eq_some_iff.mp ht₀).1, ht₀] at ht
  cases ht
  refine hfirst t (List.mem_of_getElem? ht₀) ?_
  rw [hinv]
  rfl

/-- With no tap on Register nothing of the wizard comes up. -/
theorem Trail.unopened (htrail : Trail a) (ha : Sound a)
    (hnone : ∀ t ∈ a.device.taps, t.invocation.button ≠ .register) :
    .myProfile ∉ a.presented ∧ .myProfile2 ∉ a.presented ∧ .surveyIntroduction ∉ a.presented := by
  have hprofile : .myProfile ∉ a.presented := by
    intro hs
    obtain ⟨t, ht, hbutton⟩ := (htrail _ .register (by simp [mem_gates])).mp hs
    exact hnone t ht hbutton
  have hprofile2 : .myProfile2 ∉ a.presented := by
    intro hs
    obtain ⟨t, ht, hbutton⟩ := (htrail _ .profileContinue (by simp [mem_gates])).mp hs
    have hscene := ha.scene_of_mem_taps ht
    rw [hbutton] at hscene
    exact hprofile hscene
  refine ⟨hprofile, hprofile2, fun hs => ?_⟩
  obtain ⟨t, ht, hbutton⟩ := (htrail _ .profile2Continue (by simp [mem_gates])).mp hs
  have hscene := ha.scene_of_mem_taps ht
  rw [hbutton] at hscene
  exact hprofile2 hscene

theorem gated_iff (h : run next (initial b) evs = some a) :
    Along next (initial b) evs Gated ↔ .tap .register ∉ evs := by
  constructor
  · intro halong hmem
    obtain ⟨pre, post, rfl, hfirst⟩ := List.eq_append_cons_of_mem hmem
    obtain ⟨t, hpre, hrest⟩ := run_append_some.mp h
    obtain ⟨t', hs, -⟩ := run_cons_some.mp hrest
    have ht := (sound_initial b).of_run hpre
    have hsurvives := survives_of_next ht hs
    have hgated : Gated t' := halong (pre ++ [.tap .register]) post t' (by simp)
      (run_snoc_some.mpr ⟨t, hpre, hs⟩)
    refine not_registered_of_first ht hsurvives (fun tap htap hbutton => hfirst ?_)
      (hgated.myProfile (hsurvives.step.arrives rfl))
    rw [← hbutton]
    exact tapped_of_run hpre tap htap
  · intro hnone pre post t hes hpre
    have ht := (sound_initial b).of_run hpre
    obtain ⟨h₁, h₂, h₃⟩ := (trail_of_run hpre).unopened ht fun tap htap hbutton => by
      refine hnone ?_
      rw [hes, ← hbutton]
      exact List.mem_append_left _ (tapped_of_run hpre tap htap)
    exact ⟨fun hs => absurd hs h₁, fun hs => absurd hs h₂, fun hs => absurd hs h₃⟩

/-- Page 1 is shown with a selected image. -/
def ShowsImage (a : App) : Prop :=
  ∃ form, a.shownController = some (.myProfile form) ∧ form.image.isSome

/-- One step keeps the gate of page 2 exactly when it does not continue page 1
without an image while page 2 is unseen. -/
theorem gate2_step (ha : Sound a) (htrail : Trail a) (htrail' : Trail a')
    (h : Survives a e a') (hgate : .myProfile2 ∈ a.presented → ContinuedPage1 a.device) :
    (.myProfile2 ∈ a'.presented → ContinuedPage1 a'.device) ↔
      (e = .tap .profileContinue → .myProfile2 ∉ a.presented → ShowsImage a) := by
  have hmem : (Scene.myProfile2, Button.profileContinue) ∈ gates := by simp [mem_gates]
  constructor
  · intro hgate' he hunseen
    subst he
    obtain ⟨t, ht, form, hinv, himage, -⟩ := hgate' (h.step.arrives rfl)
    rcases h.new_tap ha ht with ht | ⟨b, c, hb, hc, hsub⟩
    · refine absurd ((htrail _ _ hmem).mpr ⟨t, ht, ?_⟩) hunseen
      rw [hinv]
      rfl
    · cases hb
      cases c with
      | myProfile form' =>
          rw [hinv] at hsub
          cases hsub
          exact ⟨form, hc, himage⟩
      | _ => cases hsub
  · intro hshows hs
    by_cases hseen : .myProfile2 ∈ a.presented
    · obtain ⟨t, ht, hform⟩ := hgate hseen
      exact ⟨t, h.taps_prefix.mem ht, hform⟩
    · obtain ⟨t, ht, hbutton⟩ := (htrail' _ _ hmem).mp hs
      rcases h.new_tap ha ht with hold | ⟨b, c, rfl, hc, hsub⟩
      · exact absurd ((htrail _ _ hmem).mpr ⟨t, hold, hbutton⟩) hseen
      · have hb : b = .profileContinue := (Button.submission_eq_some hsub).1.symm.trans hbutton
        subst hb
        obtain ⟨form, hform, himage⟩ := hshows rfl hseen
        rw [hform] at hc
        cases hc
        exact ⟨t, ht, form, (Option.some.inj hsub).symm, himage, form.validateFields_eq⟩

theorem gate3_of_trail (htrail : Trail a) (hs : .surveyIntroduction ∈ a.presented) :
    ContinuedPage2 a.device := by
  obtain ⟨t, ht, hbutton⟩ := (htrail _ .profile2Continue (by simp [mem_gates])).mp hs
  cases hinv : t.invocation with
  | profile2Continue form => exact ⟨t, ht, form, hinv, form.validateFields_eq⟩
  | _ => rw [hinv] at hbutton; cases hbutton

theorem wizard_gated_iff (h : run next (initial b) evs = some a) :
    (Along next (initial b) evs Gated ↔ .tap .register ∉ evs) ∧
      (Along next (initial b) evs
          (fun a => .myProfile2 ∈ a.presented → ContinuedPage1 a.device) ↔
        ∀ pre e post t, evs = pre ++ e :: post → run next (initial b) pre = some t →
          e = .tap .profileContinue → .myProfile2 ∉ t.presented → ShowsImage t) ∧
      Along next (initial b) evs
        (fun a => .surveyIntroduction ∈ a.presented → ContinuedPage2 a.device) := by
  refine ⟨gated_iff h, ?_, ?_⟩
  · refine along_iff (P := fun a => .myProfile2 ∈ a.presented → ContinuedPage1 a.device)
      (Q := fun t e => e = .tap .profileContinue → .myProfile2 ∉ t.presented → ShowsImage t) h
      (by simp [initial]) fun {pre t e t'} hpre hgate hs => ?_
    have ht := (sound_initial b).of_run hpre
    exact gate2_step ht (trail_of_run hpre) (trail_of_run (run_snoc_some.mpr ⟨t, hpre, hs⟩))
      (survives_of_next ht hs) hgate
  · intro pre post t _ hpre
    exact gate3_of_trail (trail_of_run hpre)

/-- A look at the registration and back to the login. -/
def lookAround : List Event :=
  [.tap .registerHere, .type .firstName "Ada", .tap .registerBack]

theorem wizard_gated_lookAround : Along next (initial {}) lookAround Gated := by
  have hrun : run next (initial {}) lookAround = some _ := rfl
  exact (wizard_gated_iff hrun).1.mpr (by simp [lookAround])

/-- Through the wizard to the survey, with every form left blank. -/
def blankWizard : List Event :=
  [.tap .registerHere, .tap .register, .tap .profileContinue, .tap .profile2Continue]

theorem blankWizard_not_gated :
    ∃ a, run next (initial {}) blankWizard = some a ∧
      a.presented = [.surveyIntroduction, .myProfile2, .myProfile, .register, .login] ∧
      ¬ Gated a := by
  refine ⟨_, rfl, rfl, fun hgated => ?_⟩
  obtain ⟨i, t, form, r, uid, -, -, -, hmem⟩ := hgated.myProfile (by decide)
  change _ ∈ [(2, Deed.ui (.performSegue "toSurveyIntro")),
    (0, Deed.ui (.showError passwordPolicy))] at hmem
  simp at hmem

end

end App

end Pompeius
