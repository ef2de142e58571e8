import Pompeius.Proofs.Session
import Pompeius.Proofs.Wizard

/-!
# The screens behind the login

Messages, Explore and the settings are shown to members only, and that much
holds: the one way in is the completion handler of a sign-in that succeeded,
run while its login screen is in the window (`deliver_arrives`), so somebody
has given the email and the password of an account.

There is no way out either. The buttons of these screens lead to one another,
Log Out does nothing, and no callback that is still under way can bring up
another screen, since its own is out of the window. So what `members_only` says
of every run is that whoever sees one of these screens logged in before, sees
no other screen any more, and never submits a form again.
-/

namespace Pompeius

open Lib

/-- The screens for members. -/
def Scene.members : Scene → Bool
  | .messaging | .explore | .editProfile => true
  | _ => false

/-- No button leads in or out. -/
theorem Button.members_of_segues {b : Button} {segue : Segue} (hsegues : b.segues = [segue]) :
    segue.destination.members = b.scene.members := by
  cases b <;> cases hsegues <;> rfl

/-- Members find no form to submit. -/
theorem Button.submission_of_members {b : Button} (hb : b.scene.members = true) (c : Controller) :
    b.submission c = none := by
  cases b <;> first
    | (cases hb; done)
    | rfl

/-- Only the success of a sign-in swaps the root of the window. -/
theorem setRoot_completion {r : Request} {a : Answer} {eff : Effects} {identifier : String}
    (h : completion r a = .ok eff) (hui : eff.ui = [.setRoot identifier]) :
    ∃ email password, r = .signIn email password ∧ a = .signIn (.success ()) := by
  cases r with
  | signIn email password =>
      cases a with
      | signIn reply =>
          cases reply with
          | failure e => cases h; cases hui
          | success u => exact ⟨email, password, rfl, rfl⟩
      | _ => cases h; cases hui
  | createUser email password firstName lastName =>
      cases a with
      | createUser reply => cases reply <;> cases h <;> cases hui
      | _ => cases h; cases hui
  | putData ref object dict =>
      cases a with
      | putData reply => cases reply <;> cases h <;> cases hui
      | _ => cases h; cases hui
  | downloadURL ref dict =>
      cases a with
      | downloadURL reply => cases reply <;> cases h <;> cases hui
      | _ => cases h; cases hui
  | setData w awaits =>
      cases awaits with
      | false => cases a <;> cases h <;> cases hui
      | true =>
          cases a with
          | setData reply => cases reply <;> cases h <;> cases hui
          | _ => cases h; cases hui

namespace App

section

variable {a a' : App} {e : Event} {evs : List Event}

/-- What a completion handler brings up, it brings up from its own screen, and
only the success of a sign-in brings up a screen for members. -/
theorem deliver_arrives (ha : Sound a) {i : Nat} (h : a.next (.deliver i) = some a') :
    Redrawn (a.withDevice a'.device) a' ∨ ∃ t c a₁, a.device.taps[i]? = some t ∧
      a.shown = some t.self ∧ a' = a₁.arrive c ∧ Redrawn (a.withDevice a'.device) a₁ ∧
      (t.invocation.scene = .register ∧ c.scene = .myProfile ∨
        (∃ form, t.invocation = .loginButton form) ∧ c.scene = .messaging ∧
          ∃ email password, a.device.calls i =
            some ⟨.signIn email password, some (.signIn (.success ()))⟩) := by
  obtain ⟨req, ans, eff, hcall, heff, -, heq⟩ := step_deliver (step_of_next h)
  obtain ⟨t, ht⟩ := ha.lives.exists_tap hcall
  have hissues : t.Issues req := (issues_of_life (ha.lives.born i t ht)).1 _ hcall
  have hscenes := ha.taps t (List.mem_of_getElem? ht)
  rw [List.getElem?_map] at hscenes
  obtain ⟨c, hc, hscene⟩ := Option.map_eq_some_iff.mp hscenes
  have ht' : (a.device.resumed i req ans eff).taps[i]? = some t := ht
  rw [refresh_some ht'] at heq
  generalize hd : a.device.resumed i req ans eff = d at heq
  have hc' : (a.withDevice d).controllers[t.self]? = some c := hc
  generalize hui : eff.ui = ui at heq
  have hdraws := Tap.draws_of_completion hissues heff
  rw [hui] at hdraws
  cases hdraws with
  | nothing =>
      cases heq
      exact .inl (Redrawn.refl _)
  | error message =>
      rw [effects_showError hc'] at heq
      cases heq
      exact .inl (redrawn_update hc' (c.scene_showError message))
  | @toMyProfile self hinv =>
      rw [hinv] at hscene
      cases c with
      | register form =>
          have heffects : (a.withDevice d).effects t.self [.performSegue "toMyProfile"] =
              (a.withDevice d).perform t.self toMyProfile := by
            show (a.withDevice d).performSegue t.self "toMyProfile" >>= pure = _
            rw [bind_pure]
            exact performSegue_eq hc' rfl
          rw [heffects, perform_toMyProfile hc'] at heq
          have hdrawn := redrawn_numbered hc'
          by_cases hshown : (a.withDevice d).shown = some t.self
          · rw [if_pos hshown] at heq
            cases heq
            exact .inr ⟨t, _, _, ht, hshown, rfl, hdrawn, .inl ⟨by rw [hinv]; rfl, rfl⟩⟩
          · rw [if_neg hshown] at heq
            cases heq
            exact .inl hdrawn
      | _ => cases hscene
  | @toMessaging self hinv =>
      have heffects : (a.withDevice d).effects t.self
          [.setRoot ViewController.messagingViewController] =
          (a.withDevice d).setRoot t.self ViewController.messagingViewController := by
        show (a.withDevice d).setRoot t.self ViewController.messagingViewController >>= pure = _
        rw [bind_pure]
      rw [heffects, setRoot_messaging] at heq
      by_cases hshown : (a.withDevice d).shown = some t.self
      · rw [if_pos hshown] at heq
        cases heq
        obtain ⟨email, password, rfl, rfl⟩ := setRoot_completion heff hui
        exact .inr ⟨t, _, _, ht, hshown, rfl, Redrawn.refl _,
          .inr ⟨⟨self, hinv⟩, rfl, email, password, hcall⟩⟩
      · rw [if_neg hshown] at heq
        cases heq
        exact .inl (Redrawn.refl _)

/-- Somebody has signed in. -/
def LoggedIn (d : Device) : Prop :=
  ∃ i t form, d.taps[i]? = some t ∧ t.invocation = .loginButton form ∧
    (i, .delivered (.signIn form.emailField.cleaned form.passwordField.cleaned)
      (.signIn (.success ()))) ∈ d.history

theorem LoggedIn.of_run {d d' : Device} {devs : List Device.Event} (h : LoggedIn d)
    (hrun : run Device.next d devs = some d') : LoggedIn d' := by
  obtain ⟨i, t, form, ht, hinv, hmem⟩ := h
  obtain ⟨⟨rest, htaps⟩, hhist⟩ := Device.grows_of_run hrun
  refine ⟨i, t, form, ?_, hinv, hhist.mem hmem⟩
  rw [← htaps, List.getElem?_append_left (List.getElem?_eq_some_iff.mp ht).1, ht]

/-- The screen in the window is for members. -/
def Inside (a : App) : Prop :=
  ∃ id s, a.shown = some id ∧ (a.controllers.map Controller.scene)[id]? = some s ∧
    s.members = true

theorem Inside.of_redrawn (hin : Inside a) (h : Redrawn a a') : Inside a' := by
  obtain ⟨id, s, hid, hs, hm⟩ := hin
  exact ⟨id, s, h.shown.trans hid, h.scenes ▸ hs, hm⟩

theorem Inside.scene (hin : Inside a) {c : Controller} (hc : a.shownController = some c) :
    c.scene.members = true := by
  obtain ⟨id, s, hid, hs, hm⟩ := hin
  rw [shownController, hid] at hc
  change a.controllers[id]? = some c at hc
  rw [List.getElem?_map, hc] at hs
  cases hs
  exact hm

theorem inside_arrive {c : Controller} (hc : c.scene.members = true) : Inside (a.arrive c) := by
  refine ⟨_, c.scene, rfl, ?_, hc⟩
  simp [arrive]

/-- Where a screen for members was presented somebody has logged in, and one is
still in the window. -/
structure Guarded (a : App) : Prop where
  loggedIn : ∀ s ∈ a.presented, s.members = true → LoggedIn a.device
  inside : ∀ s ∈ a.presented, s.members = true → Inside a

theorem Guarded.of_redrawn (hg : Guarded a) (hsurvives : Survives a e a')
    (hdrawn : Redrawn (a.withDevice a'.device) a') : Guarded a' where
  loggedIn s hs hm := by
    rw [hdrawn.presented] at hs
    exact (hg.loggedIn s hs hm).of_run hsurvives.device
  inside s hs hm := by
    rw [hdrawn.presented] at hs
    exact Inside.of_redrawn (a := a.withDevice a'.device) (hg.inside s hs hm) hdrawn

theorem guarded_deliver (ha : Sound a) (hg : Guarded a) {i : Nat}
    (h : a.next (.deliver i) = some a') : Guarded a' := by
  have hsurvives := survives_of_next ha h
  obtain hdrawn | ⟨t, c, a₁, ht, hshown, heq, hdrawn, ⟨hregister, hmyProfile⟩ |
    ⟨⟨form, hinv⟩, hmessaging, email, password, hcall⟩⟩ := deliver_arrives ha h
  · exact hg.of_redrawn hsurvives hdrawn
  · -- the registration screen is in the window, so nobody has been inside
    have houtside : ∀ s ∈ a'.presented, s.members = true → False := by
      intro s hs hm
      rw [heq] at hs
      rcases List.mem_cons.mp hs with rfl | hs
      · rw [hmyProfile] at hm
        cases hm
      · rw [hdrawn.presented] at hs
        obtain ⟨id, s', hid, hs', hm'⟩ := hg.inside s hs hm
        rw [hshown] at hid
        cases hid
        rw [ha.taps t (List.mem_of_getElem? ht), hregister] at hs'
        cases hs'
        cases hm'
    exact ⟨fun s hs hm => (houtside s hs hm).elim, fun s hs hm => (houtside s hs hm).elim⟩
  · have hissues : t.Issues (.signIn email password) :=
      (issues_of_life (ha.lives.born i t ht)).1 _ hcall
    have hloggedIn : LoggedIn a'.device := by
      cases hissues with
      | @signIn form' hinv' =>
          have hrun := hsurvives.device
          change run Device.next a.device [.deliver i] = some a'.device at hrun
          obtain ⟨d, hd, hnil⟩ := run_cons_some.mp hrun
          cases hnil
          generalize a'.device = d' at hd
          cases Device.step_of_next hd with
          | @deliver _ r ans eff hcall' _ _ =>
              rw [hcall] at hcall'
              cases hcall'
              exact ⟨i, t, form', ht, hinv', List.mem_append_right _ List.mem_cons_self⟩
    refine ⟨fun s _ _ => hloggedIn, fun s _ _ => ?_⟩
    rw [heq]
    exact inside_arrive (by rw [hmessaging]; rfl)

theorem guarded_next (ha : Sound a) (hg : Guarded a) (h : a.next e = some a') : Guarded a' := by
  have hsurvives := survives_of_next ha h
  cases hsurvives.step with
  | stay _ hdrawn => exact hg.of_redrawn hsurvives hdrawn
  | @go a₁ c hleads hdrawn =>
      cases hleads with
      | registered _ _ _ => exact guarded_deliver ha hg h
      | loggedIn => exact guarded_deliver ha hg h
      | @tap b segue c₀ _ hc₀ hscene hsegues hdest =>
          -- inside leads inside, outside leads outside
          have hsame : c.scene.members = c₀.scene.members := by
            rw [hdest, Button.members_of_segues hsegues, hscene]
          have hfrom : ∀ s ∈ (a₁.arrive c).presented, s.members = true →
              c₀.scene.members = true := by
            intro s hs hm
            rcases List.mem_cons.mp hs with rfl | hs
            · exact hsame ▸ hm
            · rw [hdrawn.presented] at hs
              exact (hg.inside s hs hm).scene hc₀
          refine ⟨fun s hs hm => ?_, fun s hs hm => inside_arrive (hsame.trans (hfrom s hs hm))⟩
          exact (hg.loggedIn _ (ha.mem_presented hc₀) (hfrom s hs hm)).of_run hsurvives.device

theorem guarded_of_run {b : Backend} (h : run next (initial b) evs = some a) : Guarded a := by
  have hnone : ∀ s ∈ (initial b).presented, s.members = true → False := by
    intro s hs hm
    cases List.mem_singleton.mp hs
    cases hm
  exact (run_invariant (P := fun a => Sound a ∧ Guarded a)
    (fun ih hs => ⟨(survives_of_next ih.1 hs).sound, guarded_next ih.1 ih.2 hs⟩)
    ⟨sound_initial b, fun s hs hm => (hnone s hs hm).elim,
      fun s hs hm => (hnone s hs hm).elim⟩ h).2

/-- Members submit nothing. -/
theorem taps_of_inside (ha : Sound a) (hin : Inside a) (h : a.next e = some a') :
    a'.device.taps = a.device.taps := by
  have hsurvives := survives_of_next ha h
  cases e with
  | tap b =>
      obtain ⟨id, c, hid, hc, hscene, -⟩ := step_tap ha (step_of_next h)
      have hb : b.scene.members = true := hscene ▸ hin.scene (shownController_eq hid hc)
      obtain ⟨-, c', -, -, ⟨-, hdevice⟩ | ⟨inv, eff, hsub, -, -⟩⟩ := hsurvives.tap_device ha
      · rw [hdevice]
      · rw [Button.submission_of_members hb] at hsub
        cases hsub
  | _ => exact Device.taps_of_run hsurvives.device (by simp [deviceEvents])

/-- Whoever has seen a screen for members has logged in with the email and the
password of an account, sees no other screens from then on and submits no form. -/
theorem members_only {b : Backend} (h : run next (initial b) evs = some a) {s : Scene}
    (hs : s ∈ a.presented) (hm : s.members = true) :
    (∃ i t form, a.device.taps[i]? = some t ∧ t.invocation = .loginButton form ∧
      (i, .delivered (.signIn form.emailField.cleaned form.passwordField.cleaned)
        (.signIn (.success ()))) ∈ a.device.history ∧
      ∃ x ∈ a.device.accounts, x.email = form.emailField.cleaned ∧
        x.password = form.passwordField.cleaned) ∧
    ∀ more a', run next a more = some a' →
      (∃ c, a'.shownController = some c ∧ c.scene.members = true) ∧
      a'.device.taps = a.device.taps := by
  have ha := (sound_initial b).of_run h
  have hg := guarded_of_run h
  constructor
  · obtain ⟨i, t, form, ht, hinv, hmem⟩ := hg.loggedIn s hs hm
    obtain ⟨devs, hdevs, -⟩ := device_of_run (sound_initial b) h
    exact ⟨i, t, form, ht, hinv, hmem,
      ha.lives.known_delivered (Device.known_of_run (b := b) hdevs) hmem⟩
  · intro more a' hmore
    have hkept := run_invariant (P := fun a' => (Sound a' ∧ Guarded a') ∧ s ∈ a'.presented ∧
        a'.device.taps = a.device.taps) (fun {t e t'} ih hstep => ?_) ⟨⟨ha, hg⟩, hs, rfl⟩ hmore
    · obtain ⟨⟨ha', hg'⟩, hs', htaps⟩ := hkept
      obtain ⟨id, c, hid, hc⟩ := ha'.exists_shown
      have hshown := shownController_eq hid hc
      exact ⟨⟨c, hshown, (hg'.inside s hs' hm).scene hshown⟩, htaps⟩
    · obtain ⟨⟨ht, hgt⟩, hst, htaps⟩ := ih
      have hsurvives := survives_of_next ht hstep
      refine ⟨⟨hsurvives.sound, guarded_next ht hgt hstep⟩,
        hsurvives.step.presented_subset hst, ?_⟩
      rw [taps_of_inside ht (hgt.inside s hst hm) hstep, htaps]

theorem members_only_ada :
    ∃ a, run next (initial { accounts := [⟨"ada@example.org", "passw0rd!", "u1"⟩] })
        [.type .email "ada@example.org", .type .password "passw0rd!", .tap .login,
         .serve 0 (.signIn (.success ())), .announce, .deliver 0] = some a ∧
      .messaging ∈ a.presented ∧ ∃ c, a.shownController = some c ∧ c.scene.members = true := by
  have hrun : run next (initial { accounts := [⟨"ada@example.org", "passw0rd!", "u1"⟩] })
      [.type .email "ada@example.org", .type .password "passw0rd!", .tap .login,
       .serve 0 (.signIn (.success ())), .announce, .deliver 0] = some _ := rfl
  have hpresented : Scene.messaging ∈ [Scene.messaging, .login] := List.mem_cons_self
  exact ⟨_, hrun, hpresented, ((members_only hrun hpresented rfl).2 [] _ rfl).1⟩

end

end App

end Pompeius
