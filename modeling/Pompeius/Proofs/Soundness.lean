import Pompeius.Proofs.Screens

/-!
# One step of the app

`Sound` is what every app that lives has: a controller in the window, a record
of what was presented that agrees with the heap, no question screen, and taps
that point at controllers of the right class.

`step_spec` says once what an event can do. A hazardous event kills the
process and no other event does; a process that lives is sound again, its
device has taken the events `deviceEvents` names, and either the same screens
were redrawn or a new one has come up, for one of the reasons of `Leads`.
Nothing after this file unfolds `App.step`.

`device_of_run` is the simulation that comes of it: under a run of the app
lies a run of its device, with the same answers of the backend in it.
-/

namespace Pompeius

open Lib

/-- The scene a submit handler belongs to. -/
def Invocation.scene : Invocation → Scene
  | .loginButton _ => .login
  | .registerButton _ => .register
  | .profileContinue _ => .myProfile
  | .profile2Continue _ => .myProfile2

/-- The submit handler a button runs. -/
def Button.submission : Button → Controller → Option Invocation
  | .login, .login self => some (.loginButton self)
  | .register, .register self => some (.registerButton self)
  | .profileContinue, .myProfile self => some (.profileContinue self)
  | .profile2Continue, .myProfile2 self => some (.profile2Continue self)
  | _, _ => none

/-- What a completion handler of a tap can do to the screen. -/
inductive Tap.Draws (t : Tap) : List UIEffect → Prop
  | nothing : Draws t []
  | error (message : String) : Draws t [.showError message]
  | toMyProfile {self : RegisterViewController} : t.invocation = .registerButton self →
      Draws t [.performSegue "toMyProfile"]
  | toMessaging {self : ViewController} : t.invocation = .loginButton self →
      Draws t [.setRoot ViewController.messagingViewController]

theorem Tap.draws_of_completion {t : Tap} {r : Request} {ans : Answer} {eff : Effects}
    (ht : t.Issues r) (h : completion r ans = .ok eff) : t.Draws eff.ui := by
  cases ht with
  | signIn hinv =>
      cases ans with
      | signIn reply =>
          cases reply with
          | failure e => cases h; exact .error _
          | success _ => cases h; exact .toMessaging hinv
      | _ => cases h; exact .nothing
  | createUser hinv =>
      cases ans with
      | createUser reply =>
          cases reply with
          | failure e => cases h; exact .error _
          | incomplete uid e => cases h; exact .error _
          | success uid => cases h; exact .toMyProfile hinv
      | _ => cases h; exact .nothing
  | registration _ _ =>
      cases ans with
      | setData reply =>
          cases reply with
          | failure e => cases h; exact .error _
          | success _ => cases h; exact .nothing
      | _ => cases h; exact .nothing
  | putData _ _ _ =>
      cases ans with
      | putData reply => cases reply <;> cases h <;> exact .nothing
      | _ => cases h; exact .nothing
  | downloadURL _ _ =>
      cases ans with
      | downloadURL reply => cases reply <;> cases h <;> exact .nothing
      | _ => cases h; exact .nothing
  | profile _ _ _ => cases ans <;> cases h <;> exact .nothing
  | profile2 _ _ => cases ans <;> cases h <;> exact .nothing

theorem AppDelegate.sign_of_some {user : Option GIDGoogleUser} {profile : GIDProfileData}
    (h : user.bind (·.profile) = some profile) :
    sign user = .ok ("User email: " ++ profile.email.getD "No Email") := by
  obtain ⟨user, rfl, hprofile⟩ := Option.bind_eq_some_iff.mp h
  rw [sign, forceUnwrap, ok_bind, hprofile]
  rfl

theorem AppDelegate.sign_of_none {user : Option GIDGoogleUser}
    (h : user.bind (·.profile) = none) {α : Type} (f : String → α) :
    ∃ t, (sign user).map f = .error t := by
  cases user with
  | none => exact ⟨_, rfl⟩
  | some user =>
      have hprofile : user.profile = none := h
      refine ⟨.unexpectedNil "profile", ?_⟩
      rw [sign, forceUnwrap, ok_bind, hprofile]
      rfl

namespace App

/-- The events a process does not survive: Begin Survey, which loads the first
question screen, and a sign-in with Google that comes without a profile. -/
def Event.Hazard : Event → Prop
  | .tap b => b = .beginSurvey
  | .googleSignIn user => user.bind (·.profile) = none
  | _ => False

/-- What an event of the app is to its device. -/
def deviceEvents (a : App) : Event → List Device.Event
  | .tap b =>
      match a.shown, a.shownController with
      | some id, some c => ((b.submission c).map (.invoke id)).toList
      | _, _ => []
  | .serve i answer => [.serve i answer]
  | .deliver i => [.deliver i]
  | .announce => [.announce]
  | .auth user => [.auth user]
  | _ => []

/-- Why a controller comes up. -/
inductive Leads (a : App) : Event → Controller → Prop
  | tap {b : Button} {segue : Segue} {c₀ c : Controller} : a.shownController = some c₀ →
      c₀.scene = b.scene → b.segues = [segue] → c.scene = segue.destination →
      Leads a (.tap b) c
  | registered {i : Nat} {t : Tap} {self : RegisterViewController} {c : Controller} :
      a.device.taps[i]? = some t → t.invocation = .registerButton self → c.scene = .myProfile →
      Leads a (.deliver i) c
  | loggedIn {i : Nat} : Leads a (.deliver i) .messaging

/-- What an event does to the screens. -/
inductive Step (a : App) (e : Event) : App → Prop
  | stay {a' : App} : (∀ b, e = .tap b → b.segues = []) →
      Redrawn (a.withDevice a'.device) a' → Step a e a'
  | go {a' : App} {c : Controller} : Leads a e c →
      Redrawn (a.withDevice a'.device) a' → Step a e (a'.arrive c)

structure Sound (a : App) : Prop where
  lives : a.device.Lives
  shown : ∃ id, a.shown = some id ∧ id < a.controllers.length
  presented : a.presented = (a.controllers.map Controller.scene).reverse
  unasked : .q1 ∉ a.presented ∧ .q2 ∉ a.presented
  taps : ∀ t ∈ a.device.taps,
    (a.controllers.map Controller.scene)[t.self]? = some t.invocation.scene

section

variable {a : App} {id : Nat} {c : Controller}

theorem sound_initial (b : Backend) : Sound (initial b) where
  lives := Device.lives_launch b
  shown := ⟨0, rfl, Nat.zero_lt_one⟩
  presented := rfl
  unasked := by simp [initial]
  taps t ht := by cases ht

theorem Sound.exists_shown (ha : Sound a) :
    ∃ id c, a.shown = some id ∧ a.controllers[id]? = some c := by
  obtain ⟨id, hid, hlt⟩ := ha.shown
  exact ⟨id, a.controllers[id], hid, List.getElem?_eq_getElem hlt⟩

theorem shownController_eq (hid : a.shown = some id) (hc : a.controllers[id]? = some c) :
    a.shownController = some c := by
  rw [shownController, hid]
  exact hc

/-- The scene on the screen was presented. -/
theorem Sound.mem_presented (ha : Sound a) (h : a.shownController = some c) :
    c.scene ∈ a.presented := by
  obtain ⟨id, c', hid, hc⟩ := ha.exists_shown
  rw [shownController_eq hid hc] at h
  cases h
  rw [ha.presented, List.mem_reverse]
  exact List.mem_map_of_mem (List.mem_of_getElem? hc)

theorem Sound.of_redrawn {a' : App} (ha : Sound a) (h : Redrawn a a') : Sound a' := by
  have hlen : a'.controllers.length = a.controllers.length := by
    simpa using congrArg List.length h.scenes
  refine ⟨?_, ?_, ?_, ?_, ?_⟩
  · rw [h.device]
    exact ha.lives
  · rw [h.shown, hlen]
    exact ha.shown
  · rw [h.presented, h.scenes]
    exact ha.presented
  · rw [h.presented]
    exact ha.unasked
  · rw [h.device, h.scenes]
    exact ha.taps

theorem Sound.arrive (ha : Sound a) (hq1 : c.scene ≠ .q1) (hq2 : c.scene ≠ .q2) :
    Sound (a.arrive c) where
  lives := ha.lives
  shown := ⟨a.controllers.length, rfl, by simp [App.arrive]⟩
  presented := by simp [App.arrive, ha.presented]
  unasked := by simp [App.arrive, ha.unasked, Ne.symm hq1, Ne.symm hq2]
  taps t ht := by
    have hold := ha.taps t ht
    show ((a.controllers ++ [c]).map Controller.scene)[t.self]? = _
    rw [List.map_append, List.getElem?_append_left (List.getElem?_eq_some_iff.mp hold).1, hold]

/-- A step of the device that makes no tap. -/
theorem Sound.withDevice (ha : Sound a) {d : Device} (hd : d.Lives)
    (htaps : d.taps = a.device.taps) : Sound (a.withDevice d) :=
  ⟨hd, ha.shown, ha.presented, ha.unasked, by rw [htaps]; exact ha.taps⟩

theorem Sound.tapped (ha : Sound a) (hc : a.controllers[id]? = some c) {h : Invocation}
    {eff : Effects} (hscene : c.scene = h.scene) (heff : h.run a.device.currentUser = .ok eff) :
    Sound (a.withDevice (a.device.tapped id h eff)) := by
  refine ⟨Device.lives_tapped ha.lives heff, ha.shown, ha.presented, ha.unasked, fun t ht => ?_⟩
  rcases List.mem_append.mp ht with ht | ht
  · exact ha.taps t ht
  · rw [List.mem_singleton.mp ht]
    show (a.controllers.map Controller.scene)[id]? = some h.scene
    rw [List.getElem?_map, hc, ← hscene]
    rfl

/-! ## Taps -/

/-- The process lives on. -/
structure Survives (a : App) (e : Event) (a' : App) : Prop where
  harmless : ¬ e.Hazard
  sound : Sound a'
  step : Step a e a'
  device : run Device.next a.device (a.deviceEvents e) = some a'.device

theorem deviceEvents_tap (hid : a.shown = some id) (hc : a.controllers[id]? = some c)
    (b : Button) : a.deviceEvents (.tap b) = ((b.submission c).map (.invoke id)).toList := by
  rw [deviceEvents, hid, shownController_eq hid hc]

theorem next_invoke {d : Device} {h : Invocation} {eff : Effects}
    (heff : h.run d.currentUser = .ok eff) :
    d.next (.invoke id h) = some (d.tapped id h eff) :=
  Device.next_of_step (.invoke heff)

theorem run_invoke {d : Device} {h : Invocation} {eff : Effects}
    (heff : h.run d.currentUser = .ok eff) :
    run Device.next d [.invoke id h] = some (d.tapped id h eff) := by
  rw [run_cons, next_invoke heff]
  rfl

/-- A submission after which the screen of the button's segue comes up. -/
theorem survives_submit (ha : Sound a) (hid : a.shown = some id)
    (hc : a.controllers[id]? = some c) {b : Button} {h : Invocation} {eff : Effects}
    (hsubmission : b.submission c = some h) (hscene : c.scene = b.scene)
    (hh : c.scene = h.scene) (heff : h.run a.device.currentUser = .ok eff) {segue : Segue}
    (hsegues : b.segues = [segue]) {a' : App} {c' : Controller}
    (hdrawn : Redrawn (a.withDevice (a.device.tapped id h eff)) a')
    (hc' : c'.scene = segue.destination) (hq1 : segue.destination ≠ .q1)
    (hq2 : segue.destination ≠ .q2) (hb : b ≠ .beginSurvey) :
    Survives a (.tap b) (a'.arrive c') := by
  have hdevice : a'.device = a.device.tapped id h eff := hdrawn.device
  refine ⟨hb, ?_, ?_, ?_⟩
  · have htapped := (ha.tapped hc hh heff).of_redrawn hdrawn
    exact htapped.arrive (hc' ▸ hq1) (hc' ▸ hq2)
  · refine .go (.tap (shownController_eq hid hc) hscene hsegues hc') ?_
    rw [hdevice]
    exact hdrawn
  · rw [deviceEvents_tap hid hc, hsubmission]
    show run Device.next a.device [.invoke id h] = some a'.device
    rw [hdevice, run_invoke heff]

theorem survives_login (ha : Sound a) {self : ViewController} (hid : a.shown = some id)
    (hc : a.controllers[id]? = some (.login self)) :
    ∃ a', a.touch id .login = .ok a' ∧ Survives a (.tap .login) a' := by
  obtain ⟨eff, heff, htouch⟩ := touch_login hc
  have heff' : (Invocation.loginButton self).run a.device.currentUser = .ok eff := heff
  refine ⟨_, htouch, nofun, ha.tapped hc rfl heff', ?_, ?_⟩
  · refine .stay (fun b hb => ?_) (Redrawn.refl _)
    cases hb
    rfl
  · rw [deviceEvents_tap hid hc]
    exact run_invoke heff'

theorem Button.submission_plain {b : Button} (hb : b.plain = true) (c : Controller) :
    b.submission c = none := by
  cases b <;> first | rfl | cases hb

theorem Button.segues_plain {b : Button} (hb : b.plain = true) :
    b.segues = [] ∨ ∃ segue, b.segues = [segue] ∧ segue.destination ≠ .q1 ∧
      segue.destination ≠ .q2 := by
  cases b <;> first
    | exact .inl rfl
    | exact .inr ⟨_, rfl, by decide, by decide⟩
    | cases hb

theorem survives_plain (ha : Sound a) (hid : a.shown = some id)
    (hc : a.controllers[id]? = some c) {b : Button} (hscene : c.scene = b.scene)
    (hb : b.plain = true) : ∃ a', a.touch id b = .ok a' ∧ Survives a (.tap b) a' := by
  have hsafe : b ≠ .beginSurvey := by
    rintro rfl
    cases hb
  have hdevice : run Device.next a.device (a.deviceEvents (.tap b)) = some a.device := by
    rw [deviceEvents_tap hid hc, Button.submission_plain hb]
    rfl
  have htouch := touch_plain hid hc hscene hb
  obtain hsegues | ⟨segue, hsegues, hq1, hq2⟩ := Button.segues_plain hb
  · rw [hsegues] at htouch
    refine ⟨a, htouch, hsafe, ha, .stay (fun b' hb' => ?_) (Redrawn.refl _), hdevice⟩
    cases hb'
    exact hsegues
  · rw [hsegues] at htouch
    have harrive : segue.destination.instantiate.scene = segue.destination :=
      segue.destination.scene_instantiate
    refine ⟨_, htouch, hsafe, ha.arrive (harrive.symm ▸ hq1) (harrive.symm ▸ hq2), ?_, hdevice⟩
    exact .go (.tap (shownController_eq hid hc) hscene hsegues harrive) (Redrawn.refl _)

/-- Begin Survey loads the first question screen, and that is the end. -/
theorem touch_beginSurvey (hid : a.shown = some id)
    (hc : a.controllers[id]? = some .surveyIntroduction) :
    a.touch id .beginSurvey = .error (.undefinedKey "continueButton") := by
  have hperform : a.perform id ⟨some "toQuestions", .q1⟩ =
      .error (.undefinedKey "continueButton") := by
    rw [perform, prepare_eq id (by decide), ok_bind]
    show a.present id .q1 = _
    rw [present, if_pos hid]
    rfl
  have hsend : a.send id .beginSurveyButton = a.perform id ⟨some "toQuestions", .q1⟩ := by
    rw [send_eq hc]
    exact performSegue_eq hc rfl
  rw [touch_of_delivered (b := .beginSurvey) rfl, hsend, hperform]
  rfl

theorem step_tap (ha : Sound a) {b : Button} {r : Except Trap App}
    (h : a.step (.tap b) = some r) :
    ∃ id c, a.shown = some id ∧ a.controllers[id]? = some c ∧ c.scene = b.scene ∧
      r = a.touch id b := by
  obtain ⟨id, c, hid, hc⟩ := ha.exists_shown
  rw [step, hid, shownController_eq hid hc] at h
  change (if c.scene = b.scene then some (a.touch id b) else none) = some r at h
  split at h
  · rename_i hscene
    exact ⟨id, c, hid, hc, hscene, (Option.some.inj h).symm⟩
  · cases h

theorem spec_tap (ha : Sound a) {b : Button} {r : Except Trap App}
    (h : a.step (.tap b) = some r) :
    (b = .beginSurvey ∧ ∃ t, r = .error t) ∨ ∃ a', r = .ok a' ∧ Survives a (.tap b) a' := by
  obtain ⟨id, c, hid, hc, hscene, rfl⟩ := step_tap ha h
  have hpresented := ha.mem_presented (shownController_eq hid hc)
  rw [hscene] at hpresented
  cases b with
  | login =>
      cases c with
      | login self => exact .inr (survives_login ha hid hc)
      | _ => cases hscene
  | register =>
      cases c with
      | register self =>
          have heff : (Invocation.registerButton self).run a.device.currentUser = .ok _ :=
            self.registerButton_eq
          obtain ⟨a', docID, hdrawn, htouch⟩ := touch_register hid hc heff
          exact .inr ⟨_, htouch, survives_submit ha hid hc rfl rfl rfl heff rfl hdrawn rfl
            (by decide) (by decide) (by decide)⟩
      | _ => cases hscene
  | profileContinue =>
      cases c with
      | myProfile self =>
          have heff : (Invocation.profileContinue self).run a.device.currentUser = .ok _ :=
            self.continueButton_eq _
          exact .inr ⟨_, touch_profileContinue hid hc heff, survives_submit ha hid hc rfl rfl rfl
            heff rfl (Redrawn.refl _) rfl (by decide) (by decide) (by decide)⟩
      | _ => cases hscene
  | profile2Continue =>
      cases c with
      | myProfile2 self =>
          have heff : (Invocation.profile2Continue self).run a.device.currentUser = .ok _ :=
            self.continueButton_eq _
          exact .inr ⟨_, touch_profile2Continue hid hc heff, survives_submit ha hid hc rfl rfl rfl
            heff rfl (Redrawn.refl _) rfl (by decide) (by decide) (by decide)⟩
      | _ => cases hscene
  | beginSurvey =>
      cases c with
      | surveyIntroduction => exact .inl ⟨rfl, _, touch_beginSurvey hid hc⟩
      | _ => cases hscene
  | q1Continue => exact absurd hpresented ha.unasked.1
  | q1Back => exact absurd hpresented ha.unasked.1
  | q2Back => exact absurd hpresented ha.unasked.2
  | q2Continue => exact absurd hpresented ha.unasked.2
  | _ => exact .inr (survives_plain ha hid hc hscene rfl)

/-! ## Other events -/

/-- An event that moves nothing but what is written on the screens. -/
theorem survives_redraw (ha : Sound a) {e : Event} {a' : App} (he : ¬ e.Hazard)
    (htap : ∀ b, e ≠ .tap b) (hevents : a.deviceEvents e = []) (hdrawn : Redrawn a a') :
    Survives a e a' := by
  refine ⟨he, ha.of_redrawn hdrawn, .stay (fun b hb => absurd hb (htap b)) ?_, ?_⟩
  · rw [hdrawn.device]
    exact hdrawn
  · rw [hevents, hdrawn.device]
    rfl

theorem Controller.scene_type {c c' : Controller} {field : Field} {text : String}
    (h : c.type text field = some c') : c'.scene = c.scene := by
  unfold Controller.type at h
  split at h <;> cases h <;> rfl

theorem Controller.scene_didFinishPicking {c c' : Controller} {editedImage : Option UIImage}
    (h : c.didFinishPicking editedImage = some c') : c'.scene = c.scene := by
  cases c with
  | myProfile self => cases editedImage <;> cases h <;> rfl
  | _ => cases h

/-- The next step of the device, when the process does not die of it. -/
theorem survives_device (ha : Sound a) {e : Event} {e' : Device.Event} {d : Device} {a' : App}
    (he : ¬ e.Hazard) (htap : ∀ b, e ≠ .tap b) (hevents : a.deviceEvents e = [e'])
    (hnext : a.device.next e' = some d) (htaps : d.taps = a.device.taps)
    (hdrawn : Redrawn (a.withDevice d) a') : Survives a e a' := by
  have hlives := Device.lives_step ha.lives (Device.step_of_next hnext)
  refine ⟨he, (ha.withDevice hlives htaps).of_redrawn hdrawn,
    .stay (fun b hb => absurd hb (htap b)) ?_, ?_⟩
  · rw [hdrawn.device]
    exact hdrawn
  · rw [hevents, run_cons, hnext, hdrawn.device]
    rfl

theorem setRoot_messaging (a : App) (id : Nat) :
    a.setRoot id ViewController.messagingViewController =
      .ok (if a.shown = some id then a.arrive .messaging else a) := by
  show (if a.shown = some id then Except.ok (a.arrive .messaging) else Except.ok a) = _
  split <;> rfl

theorem Survives.arrive {e : Event} {a' : App} (h : Survives a e a')
    (hdrawn : Redrawn (a.withDevice a'.device) a') (hleads : Leads a e c) (hq1 : c.scene ≠ .q1)
    (hq2 : c.scene ≠ .q2) : Survives a e (a'.arrive c) :=
  ⟨h.harmless, h.sound.arrive hq1 hq2, .go hleads hdrawn, h.device⟩

/-- A completion handler redraws the screen of its tap, or brings up the
screen its success leads to. -/
theorem effects_of_draws {t : Tap} {ui : List UIEffect} (h : t.Draws ui)
    (hc : a.controllers[t.self]? = some c) (hscene : c.scene = t.invocation.scene) :
    ∃ a', Redrawn a a' ∧ (a.effects t.self ui = .ok a' ∨
      ∃ c', a.effects t.self ui = .ok (a'.arrive c') ∧
        ((∃ self, t.invocation = .registerButton self) ∧ c'.scene = .myProfile ∨
          c' = .messaging)) := by
  cases h with
  | nothing => exact ⟨a, Redrawn.refl a, .inl rfl⟩
  | error message =>
      exact ⟨_, redrawn_update hc (c.scene_showError message),
        .inl (effects_showError hc message)⟩
  | @toMyProfile self hinv =>
      rw [hinv] at hscene
      cases c with
      | register form =>
          have heffects : a.effects t.self [.performSegue "toMyProfile"] =
              a.perform t.self toMyProfile := by
            show a.performSegue t.self "toMyProfile" >>= pure = _
            rw [bind_pure]
            exact performSegue_eq hc rfl
          rw [heffects, perform_toMyProfile hc]
          refine ⟨a.numbered t.self form, redrawn_numbered hc, ?_⟩
          split
          · exact .inr ⟨_, rfl, .inl ⟨⟨self, hinv⟩, rfl⟩⟩
          · exact .inl rfl
      | _ => cases hscene
  | toMessaging hinv =>
      have heffects : a.effects t.self [.setRoot ViewController.messagingViewController] =
          a.setRoot t.self ViewController.messagingViewController := by
        show a.setRoot t.self ViewController.messagingViewController >>= pure = _
        rw [bind_pure]
      rw [heffects, setRoot_messaging]
      refine ⟨a, Redrawn.refl a, ?_⟩
      split
      · exact .inr ⟨_, rfl, .inr rfl⟩
      · exact .inl rfl

theorem refresh_nil (a : App) (i : Nat) (d : Device) :
    a.refresh i (.ok (d, [])) = .ok (a.withDevice d) := by
  unfold refresh
  rw [ok_bind]
  dsimp only
  split <;> rfl

theorem refresh_some {i : Nat} {t : Tap} {d : Device} {ui : List UIEffect}
    (ht : d.taps[i]? = some t) :
    a.refresh i (.ok (d, ui)) = (a.withDevice d).effects t.self ui := by
  unfold refresh
  rw [ok_bind]
  dsimp only
  generalize d.taps[i]? = found at ht
  subst ht
  rfl

/-- What the backend does is not seen on the screen until it is delivered. -/
theorem spec_serve {i : Nat} {ans : Answer} {r : Except Trap App}
    (h : a.step (.serve i ans) = some r) :
    ∃ d, a.device.next (.serve i ans) = some d ∧ r = .ok (a.withDevice d) ∧
      d.taps = a.device.taps := by
  obtain ⟨x, hx, rfl⟩ := Option.map_eq_some_iff.mp h
  cases hcall : a.device.calls i with
  | none => simp only [Device.step, hcall] at hx; cases hx
  | some call =>
      obtain ⟨req, answer⟩ := call
      cases answer with
      | some _ => simp only [Device.step, hcall] at hx; cases hx
      | none =>
          have hx' := hx
          simp only [Device.step, hcall] at hx
          obtain ⟨d, hd, rfl⟩ := Option.map_eq_some_iff.mp hx
          have htaps : d.taps = a.device.taps := by
            unfold Device.serve at hd
            split at hd
            · cases hd
              rfl
            · cases hd
          refine ⟨d, ?_, ?_, htaps⟩
          · rw [Device.next, hx']
          · exact refresh_nil a i d

theorem spec_announce {r : Except Trap App} (h : a.step .announce = some r) :
    ∃ d, a.device.next .announce = some d ∧ r = .ok (a.withDevice d) ∧
      d.taps = a.device.taps := by
  obtain ⟨x, hx, rfl⟩ := Option.map_eq_some_iff.mp h
  cases hann : a.device.announcements with
  | nil => simp only [Device.step, hann] at hx; cases hx
  | cons y rest =>
      have hstep : a.device.step .announce = some (.ok (a.device.heard y rest, [])) := by
        simp only [Device.step, hann]
      rw [hstep] at hx
      cases hx
      exact ⟨_, by rw [Device.next, hstep], rfl, rfl⟩

theorem step_deliver {i : Nat} {r : Except Trap App} (h : a.step (.deliver i) = some r) :
    ∃ req ans eff, a.device.calls i = some ⟨req, some ans⟩ ∧ completion req ans = .ok eff ∧
      a.device.next (.deliver i) = some (a.device.resumed i req ans eff) ∧
      r = a.refresh i (.ok (a.device.resumed i req ans eff, eff.ui)) := by
  obtain ⟨x, hx, rfl⟩ := Option.map_eq_some_iff.mp h
  cases hcall : a.device.calls i with
  | none => simp only [Device.step, hcall] at hx; cases hx
  | some call =>
      obtain ⟨req, answer⟩ := call
      cases answer with
      | none => simp only [Device.step, hcall] at hx; cases hx
      | some ans =>
          obtain ⟨eff, heff⟩ := completion_ok req ans
          have hun : ¬ a.device.Unannounced i := by
            intro hun
            simp only [Device.step, hcall, Device.deliver] at hx
            rw [if_pos hun] at hx
            cases hx
          have hstep : a.device.step (.deliver i) =
              some (.ok (a.device.resumed i req ans eff, eff.ui)) := by
            simp only [Device.step, hcall, Device.deliver, heff]
            rw [if_neg hun]
            rfl
          have hnext : a.device.next (.deliver i) = some (a.device.resumed i req ans eff) := by
            rw [Device.next, hstep]
          rw [hstep] at hx
          exact ⟨req, ans, eff, rfl, heff, hnext, by rw [Option.some.inj hx]⟩

theorem spec_deliver (ha : Sound a) {i : Nat} {r : Except Trap App}
    (h : a.step (.deliver i) = some r) :
    ∃ a', r = .ok a' ∧ Survives a (.deliver i) a' := by
  obtain ⟨req, ans, eff, hcall, heff, hnext, rfl⟩ := step_deliver h
  obtain ⟨t, ht⟩ := ha.lives.exists_tap hcall
  have hissues : t.Issues req := (issues_of_life (ha.lives.born i t ht)).1 _ hcall
  have hscenes := ha.taps t (List.mem_of_getElem? ht)
  rw [List.getElem?_map] at hscenes
  obtain ⟨c, hc, hscene⟩ := Option.map_eq_some_iff.mp hscenes
  have ht' : (a.device.resumed i req ans eff).taps[i]? = some t := ht
  obtain ⟨a', hdrawn, heffects⟩ := effects_of_draws
    (a := a.withDevice (a.device.resumed i req ans eff))
    (Tap.draws_of_completion hissues heff) hc hscene
  have hsurvives := survives_device ha (e := .deliver i) (fun h => h) nofun rfl hnext rfl hdrawn
  rw [refresh_some ht']
  obtain heffects | ⟨c', heffects, hc'⟩ := heffects
  · exact ⟨a', heffects, hsurvives⟩
  · have hdevice : a'.device = a.device.resumed i req ans eff := hdrawn.device
    rw [← hdevice] at hdrawn
    have hscene' : c'.scene = .myProfile ∨ c'.scene = .messaging :=
      hc'.imp And.right fun h => congrArg Controller.scene h
    refine ⟨_, heffects, hsurvives.arrive hdrawn ?_ ?_ ?_⟩
    · obtain ⟨⟨self, hinv⟩, hmyProfile⟩ | rfl := hc'
      · exact .registered ht hinv hmyProfile
      · exact .loggedIn
    · rcases hscene' with h | h <;> rw [h] <;> decide
    · rcases hscene' with h | h <;> rw [h] <;> decide

/-- The step of the app, read backwards. -/
theorem step_spec (ha : Sound a) {e : Event} {r : Except Trap App} (h : a.step e = some r) :
    (e.Hazard ∧ ∃ t, r = .error t) ∨ ∃ a', r = .ok a' ∧ Survives a e a' := by
  cases e with
  | tap b => exact spec_tap ha h
  | type field text =>
      obtain ⟨id, c, hid, hc⟩ := ha.exists_shown
      rw [step, hid, shownController_eq hid hc] at h
      obtain ⟨c', hc', rfl⟩ := Option.map_eq_some_iff.mp h
      exact .inr ⟨_, rfl, survives_redraw ha (fun h => h) nofun rfl
        (redrawn_update hc (Controller.scene_type hc'))⟩
  | pickImage editedImage =>
      obtain ⟨id, c, hid, hc⟩ := ha.exists_shown
      rw [step, hid, shownController_eq hid hc] at h
      obtain ⟨c', hc', rfl⟩ := Option.map_eq_some_iff.mp h
      exact .inr ⟨_, rfl, survives_redraw ha (fun h => h) nofun rfl
        (redrawn_update hc (Controller.scene_didFinishPicking hc'))⟩
  | tapGoogle =>
      rw [step] at h
      split at h
      · cases h
        exact .inr ⟨_, rfl, survives_redraw ha (fun h => h) nofun rfl ⟨rfl, rfl, rfl, rfl⟩⟩
      · cases h
  | googleSignIn user =>
      rw [step] at h
      split at h
      · cases h
        cases hprofile : user.bind (·.profile) with
        | none => exact .inl ⟨hprofile, AppDelegate.sign_of_none hprofile _⟩
        | some profile =>
            rw [AppDelegate.sign_of_some hprofile]
            have hsafe : ¬ (Event.googleSignIn user).Hazard := by
              show user.bind (·.profile) ≠ none
              rw [hprofile]
              exact Option.some_ne_none profile
            exact .inr ⟨_, rfl, survives_redraw ha hsafe nofun rfl ⟨rfl, rfl, rfl, rfl⟩⟩
      · cases h
  | serve i ans =>
      obtain ⟨d, hnext, rfl, htaps⟩ := spec_serve h
      exact .inr ⟨_, rfl, survives_device ha (fun h => h) nofun rfl hnext htaps (Redrawn.refl _)⟩
  | deliver i => exact .inr (spec_deliver ha h)
  | announce =>
      obtain ⟨d, hnext, rfl, htaps⟩ := spec_announce h
      exact .inr ⟨_, rfl, survives_device ha (fun h => h) nofun rfl hnext htaps (Redrawn.refl _)⟩
  | auth user =>
      cases h
      exact .inr ⟨_, rfl, survives_device ha (fun h => h) nofun rfl rfl rfl (Redrawn.refl _)⟩

end

/-! ## Runs -/

section

variable {a a' : App} {e : Event} {evs : List Event}

/-- The device takes a tap exactly when its button runs a submit handler. -/
theorem Survives.tap_device (ha : Sound a) {b : Button} (h : Survives a (.tap b) a') :
    ∃ id c, a.shown = some id ∧ a.shownController = some c ∧
      (b.submission c = none ∧ a'.device = a.device ∨
        ∃ inv eff, b.submission c = some inv ∧ inv.run a.device.currentUser = .ok eff ∧
          a'.device = a.device.tapped id inv eff) := by
  obtain ⟨id, c, hid, hc⟩ := ha.exists_shown
  have hdevice := h.device
  rw [deviceEvents_tap hid hc] at hdevice
  refine ⟨id, c, hid, shownController_eq hid hc, ?_⟩
  cases hsub : b.submission c with
  | none =>
      rw [hsub] at hdevice
      exact .inl ⟨rfl, (Option.some.inj hdevice).symm⟩
  | some inv =>
      rw [hsub] at hdevice
      obtain ⟨eff, heff⟩ := inv.run_ok a.device.currentUser
      have htapped : a.device.tapped id inv eff = a'.device :=
        Option.some.inj ((run_invoke heff).symm.trans hdevice)
      exact .inr ⟨inv, eff, rfl, heff, htapped.symm⟩

/-- A tap made by a step is the submission of the button that was tapped. -/
theorem Survives.new_tap (ha : Sound a) (h : Survives a e a') {t : Tap}
    (ht : t ∈ a'.device.taps) :
    t ∈ a.device.taps ∨ ∃ b c, e = .tap b ∧ a.shownController = some c ∧
      b.submission c = some t.invocation := by
  cases e with
  | tap b =>
      obtain ⟨id, c, -, hc, hdevice | ⟨inv, eff, hsub, -, hdevice⟩⟩ := h.tap_device ha
      · rw [hdevice.2] at ht
        exact .inl ht
      · rw [hdevice] at ht
        rcases List.mem_append.mp ht with ht | ht
        · exact .inl ht
        · rw [List.mem_singleton.mp ht]
          exact .inr ⟨b, c, rfl, hc, hsub⟩
  | _ =>
      rw [Device.taps_of_run h.device (by simp [deviceEvents])] at ht
      exact .inl ht

theorem Survives.taps_prefix (h : Survives a e a') : a.device.taps <+: a'.device.taps :=
  (Device.grows_of_run h.device).1

theorem step_of_next (h : a.next e = some a') : a.step e = some (.ok a') := by
  unfold next at h
  split at h
  · rename_i hstep
    cases h
    exact hstep
  · cases h

theorem survives_of_next (ha : Sound a) (h : a.next e = some a') : Survives a e a' := by
  obtain ⟨-, t, ht⟩ | ⟨a'', ha'', hsurvives⟩ := step_spec ha (step_of_next h)
  · cases ht
  · cases ha''
    exact hsurvives

theorem Sound.of_run (ha : Sound a) (h : run next a evs = some a') : Sound a' :=
  run_invariant (P := Sound) (fun hs hn => (survives_of_next hs hn).sound) ha h

/-- The device takes the answers of the backend and no others. -/
theorem mem_deviceEvents {i : Nat} {ans : Answer} :
    .serve i ans ∈ a.deviceEvents e ↔ e = .serve i ans := by
  cases e with
  | tap b =>
      rw [deviceEvents]
      split
      · cases Button.submission b _ <;> simp
      · simp
  | serve j ans' => simp [deviceEvents, eq_comm]
  | _ => simp [deviceEvents]

/-- Under a run of the app lies a run of its device. -/
theorem device_of_run (ha : Sound a) (h : run next a evs = some a') :
    ∃ devs, run Device.next a.device devs = some a'.device ∧
      ∀ i ans, .serve i ans ∈ devs ↔ .serve i ans ∈ evs := by
  refine run_rec (motive := fun evs a' => ∃ devs, run Device.next a.device devs =
    some a'.device ∧ ∀ i ans, .serve i ans ∈ devs ↔ .serve i ans ∈ evs)
    ⟨[], rfl, by simp⟩ (fun {es t e t'} hrun ih hs => ?_) h
  obtain ⟨devs, hdevs, hserve⟩ := ih
  have hsurvives := survives_of_next (ha.of_run hrun) hs
  refine ⟨devs ++ t.deviceEvents e, run_append_some.mpr ⟨_, hdevs, hsurvives.device⟩, ?_⟩
  intro i ans
  rw [List.mem_append, List.mem_append, List.mem_singleton, hserve, mem_deviceEvents, eq_comm]

end

end App

end Pompeius
