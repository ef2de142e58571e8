import Pompeius.Model.App
import Pompeius.Proofs.History

/-!
# What a tap does to the screen

One equation for each kind of button. The four submit buttons run a handler;
every other button with a connection either performs one segue or does
nothing, and `touch_plain` covers them all.

Most segues are wired twice, once from the handler and once from the button
itself, and only the first of the two presents anything: when the second is
performed its source is no longer the controller in the window
(`perform_hidden`). On the Register and Continue buttons the wiring of the
button is therefore what decides. Whatever the handler does or leaves undone,
the next screen comes up (`touch_register`, `touch_profileContinue`,
`touch_profile2Continue`).
-/

namespace Pompeius

open Lib

@[simp] theorem Scene.scene_instantiate (scene : Scene) : scene.instantiate.scene = scene := by
  cases scene <;> rfl

@[simp] theorem Controller.scene_showError (message : String) (c : Controller) :
    (c.showError message).scene = c.scene := by
  cases c <;> rfl

theorem bind_ok_self {α : Type} (x : Except Trap α) : (x >>= fun a => .ok a) = x := by
  cases x <;> rfl

/-- The buttons that submit no form and lead to no question. -/
def Button.plain : Button → Bool
  | login | register | profileContinue | profile2Continue => false
  | beginSurvey | q1Continue | q1Back | q2Back | q2Continue => false
  | _ => true

namespace App

variable {a : App} {id : Nat} {c : Controller}

/-! ## Segues -/

@[simp] theorem arrive_shownController (a : App) (c : Controller) :
    (a.arrive c).shownController = some c := by
  simp [arrive, shownController]

theorem arrive_shown_ne (hc : a.controllers[id]? = some c) (c' : Controller) :
    (a.arrive c').shown ≠ some id := by
  have hlt := (List.getElem?_eq_some_iff.mp hc).1
  show some a.controllers.length ≠ some id
  intro h
  rw [Option.some.inj h] at hlt
  exact Nat.lt_irrefl _ hlt

/-- `prepare` is overridden for one segue only. -/
theorem prepare_eq (id : Nat) {segue : Segue} (hid : segue.identifier ≠ some "toMyProfile")
    (destination : Controller) : a.prepare id segue destination = .ok (a, destination) := by
  unfold prepare
  split
  · exact if_neg hid
  · rfl

theorem perform_shown (hshown : a.shown = some id) {segue : Segue}
    (hid : segue.identifier ≠ some "toMyProfile") (hq : segue.destination ≠ .q1) :
    a.perform id segue = .ok (a.arrive segue.destination.instantiate) := by
  rw [perform, prepare_eq id hid, ok_bind]
  show a.present id segue.destination.instantiate = _
  rw [present, if_pos hshown, Scene.scene_instantiate, Scene.load_eq, if_neg hq]
  rfl

theorem perform_hidden (hshown : a.shown ≠ some id) {segue : Segue}
    (hid : segue.identifier ≠ some "toMyProfile") : a.perform id segue = .ok a := by
  rw [perform, prepare_eq id hid, ok_bind]
  show a.present id segue.destination.instantiate = _
  rw [present, if_neg hshown]
  rfl

/-- A segue from the handler and the same one from the button: the second
finds its source out of the window. -/
theorem perform_twice (hshown : a.shown = some id) (hc : a.controllers[id]? = some c)
    {segue : Segue} (hid : segue.identifier ≠ some "toMyProfile")
    (hq : segue.destination ≠ .q1) :
    (a.perform id segue >>= fun a => a.perform id segue) =
      .ok (a.arrive segue.destination.instantiate) := by
  rw [perform_shown hshown hid hq, ok_bind]
  exact perform_hidden (arrive_shown_ne hc _) hid

/-- The app after `prepare` has handed out a document id. -/
def numbered (a : App) (id : Nat) (self : RegisterViewController) : App :=
  { a.update id (.register { self with docID := toString a.documentIDs }) with
    documentIDs := a.documentIDs + 1 }

def toMyProfile : Segue := ⟨some "toMyProfile", .myProfile⟩

theorem perform_toMyProfile {self : RegisterViewController}
    (hc : a.controllers[id]? = some (.register self)) :
    a.perform id toMyProfile =
      .ok (if a.shown = some id then
        (a.numbered id self).arrive (.myProfile { currentUserDocId := toString a.documentIDs })
      else a.numbered id self) := by
  rw [perform, prepare, hc]
  show (a.numbered id self).present id _ = _
  by_cases hshown : a.shown = some id
  · have hshown' : (a.numbered id self).shown = some id := hshown
    rw [present, if_pos hshown', if_pos hshown, Controller.scene, Scene.load_eq]
    rfl
  · have hshown' : (a.numbered id self).shown ≠ some id := hshown
    rw [present, if_neg hshown', if_neg hshown]
    rfl

theorem performSegue_eq (hc : a.controllers[id]? = some c) {identifier : String} {segue : Segue}
    (hfind : c.scene.segues.find? (·.identifier = some identifier) = some segue) :
    a.performSegue id identifier = a.perform id segue := by
  unfold performSegue
  generalize a.controllers[id]? = found at hc
  subst hc
  simp only [hfind]

theorem send_eq (hc : a.controllers[id]? = some c) (selector : Selector) :
    a.send id selector =
      match c.respond selector with
      | some (.submit h) => a.submit id h
      | some (.performSegue identifier) => a.performSegue id identifier
      | some .nothing => .ok a
      | none => .error (.unrecognizedSelector (reprStr selector)) := by
  unfold send
  generalize a.controllers[id]? = found at hc
  subst hc
  rfl

/-! ## Plain buttons -/

theorem touch_of_delivered {b : Button} {action : Action} (hb : b.delivered = [action]) :
    a.touch id b = (a.send id action.selector >>= fun a =>
      b.segues.foldlM (fun a segue => a.perform id segue) a) := by
  rw [touch, hb]
  cases h : a.send id action.selector with
  | error t => simp [h]
  | ok a' => simp [h]

/-- How a button acts on the controller of its own scene. -/
inductive Wiring (b : Button) (c : Controller) : Prop
  /-- The handler performs the segue that is attached to the button. -/
  | twice {action : Action} {identifier : String} {segue : Segue} : b.delivered = [action] →
      c.respond action.selector = some (.performSegue identifier) → b.segues = [segue] →
      c.scene.segues.find? (·.identifier = some identifier) = some segue →
      segue.identifier ≠ some "toMyProfile" → segue.destination ≠ .q1 → Wiring b c
  /-- The handler does nothing and leaves it to the segue of the button. -/
  | once {action : Action} {segue : Segue} : b.delivered = [action] →
      c.respond action.selector = some .nothing → b.segues = [segue] →
      segue.identifier ≠ some "toMyProfile" → segue.destination ≠ .q1 → Wiring b c
  | idle {action : Action} : b.delivered = [action] →
      c.respond action.selector = some .nothing → b.segues = [] → Wiring b c
  /-- The actions all name another scene. -/
  | stray : b.delivered = [] → b.segues = [] → Wiring b c

theorem wiring_of_plain {b : Button} (hscene : c.scene = b.scene) (hb : b.plain = true) :
    Wiring b c := by
  cases b <;> first
    | exact absurd hb (by decide)
    | exact .stray rfl rfl
    | cases c <;> first
      | (cases hscene; done)
      | exact .twice rfl rfl rfl rfl (by decide) (by decide)
      | exact .once rfl rfl rfl (by decide) (by decide)
      | exact .idle rfl rfl rfl

/-- A plain button brings up the destination of its segue, if it has one. -/
theorem touch_plain {b : Button} (hshown : a.shown = some id)
    (hc : a.controllers[id]? = some c) (hscene : c.scene = b.scene) (hb : b.plain = true) :
    a.touch id b = .ok (match b.segues with
      | [] => a
      | segue :: _ => a.arrive segue.destination.instantiate) := by
  cases wiring_of_plain hscene hb with
  | @twice action identifier segue hdelivered hrespond hsegues hfind hid hq =>
      have hsend : a.send id action.selector = a.perform id segue := by
        rw [send_eq hc, hrespond]
        exact performSegue_eq hc hfind
      rw [touch_of_delivered hdelivered, hsend, hsegues]
      show _ = Except.ok (a.arrive segue.destination.instantiate)
      rw [← perform_twice hshown hc hid hq]
      simp only [List.foldlM_cons, List.foldlM_nil, pure_eq_ok, bind_ok_self]
  | @once action segue hdelivered hrespond hsegues hid hq =>
      rw [touch_of_delivered hdelivered, send_eq hc, hrespond, hsegues]
      show a.perform id segue >>= pure = Except.ok (a.arrive segue.destination.instantiate)
      rw [perform_shown hshown hid hq]
      rfl
  | idle hdelivered hrespond hsegues =>
      rw [touch_of_delivered hdelivered, send_eq hc, hrespond, hsegues]
      rfl
  | stray hdelivered hsegues =>
      rw [touch, hdelivered, hsegues]
      rfl

/-! ## Submit buttons -/

/-- The same screens over another device. -/
abbrev withDevice (a : App) (device : Device) : App := { a with device }

theorem submit_eq {h : Invocation} {eff : Effects} (heff : h.run a.device.currentUser = .ok eff) :
    a.submit id h = (a.withDevice (a.device.tapped id h eff)).effects id eff.ui := by
  rw [submit, Device.invoke, heff]
  rfl

/-- A submission that shows nothing, or performs the segue of its button: in
either case the segue of the button brings up its destination. -/
theorem touch_submit {b : Button} {action : Action} {h : Invocation} {eff : Effects}
    {identifier : String} {segue : Segue} (hshown : a.shown = some id)
    (hc : a.controllers[id]? = some c) (hdelivered : b.delivered = [action])
    (hrespond : c.respond action.selector = some (.submit h)) (hsegues : b.segues = [segue])
    (heff : h.run a.device.currentUser = .ok eff)
    (hui : eff.ui = [] ∨ eff.ui = [.performSegue identifier])
    (hfind : c.scene.segues.find? (·.identifier = some identifier) = some segue)
    (hid : segue.identifier ≠ some "toMyProfile") (hq : segue.destination ≠ .q1) :
    a.touch id b =
      .ok ((a.withDevice (a.device.tapped id h eff)).arrive segue.destination.instantiate) := by
  have hshown' : (a.withDevice (a.device.tapped id h eff)).shown = some id := hshown
  have hc' : (a.withDevice (a.device.tapped id h eff)).controllers[id]? = some c := hc
  have htouch : a.touch id b = (a.submit id h >>= fun a' => a'.perform id segue) := by
    rw [touch_of_delivered hdelivered, send_eq hc, hrespond, hsegues]
    simp only [List.foldlM_cons, List.foldlM_nil, bind_pure]
  rw [htouch, submit_eq heff]
  rcases hui with hui | hui
  · rw [hui]
    exact perform_shown hshown' hid hq
  · rw [hui, ← perform_twice hshown' hc' hid hq, ← performSegue_eq hc' hfind]
    show ((_ >>= pure) >>= _) = _
    rw [bind_pure]
    rfl

theorem touch_login {self : ViewController} (hc : a.controllers[id]? = some (.login self)) :
    ∃ eff, self.loginButton = .ok eff ∧
      a.touch id .login = .ok (a.withDevice (a.device.tapped id (.loginButton self) eff)) := by
  have heff : (Invocation.loginButton self).run a.device.currentUser = .ok _ :=
    self.loginButton_eq
  refine ⟨_, self.loginButton_eq, ?_⟩
  rw [touch_of_delivered (b := .login) rfl, send_eq hc]
  show (a.submit id (.loginButton self) >>= _) = _
  rw [submit_eq heff]
  rfl

/-- Whatever `continueButton` does, page 2 comes up. -/
theorem touch_profileContinue {self : MyProfileViewController} {eff : Effects}
    (hshown : a.shown = some id) (hc : a.controllers[id]? = some (.myProfile self))
    (heff : self.continueButton a.device.currentUser = .ok eff) :
    a.touch id .profileContinue =
      .ok ((a.withDevice (a.device.tapped id (.profileContinue self) eff)).arrive
        (.myProfile2 {})) := by
  have hui : eff.ui = [] ∨ eff.ui = [.performSegue "continueProfile"] := by
    rw [self.continueButton_eq] at heff
    cases heff
    cases self.imageData with
    | none => exact .inl rfl
    | some imageData => exact .inr rfl
  exact touch_submit (h := .profileContinue self) hshown hc rfl rfl rfl heff hui rfl
    (by decide) (by decide)

/-- Whatever `continueButton` does, the survey introduction comes up. -/
theorem touch_profile2Continue {self : MyProfile2ViewController} {eff : Effects}
    (hshown : a.shown = some id) (hc : a.controllers[id]? = some (.myProfile2 self))
    (heff : self.continueButton a.device.currentUser = .ok eff) :
    a.touch id .profile2Continue =
      .ok ((a.withDevice (a.device.tapped id (.profile2Continue self) eff)).arrive
        .surveyIntroduction) := by
  have hui : eff.ui = [] ∨ eff.ui = [.performSegue "toSurveyIntro"] := by
    rw [self.continueButton_eq] at heff
    cases heff
    exact .inr rfl
  exact touch_submit (h := .profile2Continue self) hshown hc rfl rfl rfl heff hui rfl
    (by decide) (by decide)

/-! ## Redrawing -/

/-- The same screens in the same place, whatever is written on them. -/
structure Redrawn (a a' : App) : Prop where
  device : a'.device = a.device
  shown : a'.shown = a.shown
  presented : a'.presented = a.presented
  scenes : a'.controllers.map Controller.scene = a.controllers.map Controller.scene

theorem Redrawn.refl (a : App) : Redrawn a a := ⟨rfl, rfl, rfl, rfl⟩

theorem Redrawn.trans {a a' a'' : App} (h : Redrawn a a') (h' : Redrawn a' a'') :
    Redrawn a a'' :=
  ⟨h'.device.trans h.device, h'.shown.trans h.shown, h'.presented.trans h.presented,
    h'.scenes.trans h.scenes⟩

theorem redrawn_update (hc : a.controllers[id]? = some c) {c' : Controller}
    (hscene : c'.scene = c.scene) : Redrawn a (a.update id c') := by
  refine ⟨rfl, rfl, rfl, ?_⟩
  show (a.controllers.set id c').map Controller.scene = _
  obtain ⟨hlt, hget⟩ := List.getElem?_eq_some_iff.mp hc
  have hlt' : id < (a.controllers.map Controller.scene).length := by simpa using hlt
  have hold : c.scene = (a.controllers.map Controller.scene)[id] := by
    rw [List.getElem_map, hget]
  rw [List.map_set, hscene, hold, List.set_getElem_self]

theorem redrawn_numbered {self : RegisterViewController}
    (hc : a.controllers[id]? = some (.register self)) : Redrawn a (a.numbered id self) := by
  have h : Redrawn a (a.update id (.register { self with docID := toString a.documentIDs })) :=
    redrawn_update hc rfl
  exact ⟨h.device, h.shown, h.presented, h.scenes⟩

/-- Showing an error redraws the screen it is shown on. -/
theorem effects_showError (hc : a.controllers[id]? = some c) (message : String) :
    a.effects id [.showError message] = .ok (a.update id (c.showError message)) := by
  rw [effects, List.foldlM_cons, effect, hc]
  rfl

theorem ui_registerButton {self : RegisterViewController}
    {eff : Effects} (heff : self.registerButton = .ok eff) :
    eff.ui = [] ∨ ∃ message, eff.ui = [.showError message] := by
  rw [self.registerButton_eq] at heff
  have h := Except.ok.inj heff
  split at h
  · rw [← h]
    exact .inr ⟨_, rfl⟩
  · rw [← h]
    exact .inl rfl

/-- The handler, and then the segue of the button. -/
theorem touch_register_eq {self : RegisterViewController}
    (hc : a.controllers[id]? = some (.register self)) :
    a.touch id .register =
      (a.submit id (.registerButton self) >>= fun a' => a'.perform id toMyProfile) := by
  rw [touch_of_delivered (b := .register) rfl, send_eq hc]
  show (a.submit id (.registerButton self) >>= fun a' => a'.perform id toMyProfile >>= pure) = _
  simp only [bind_pure]

/-- Whatever `registerButton` does, page 1 comes up. -/
theorem touch_register {self : RegisterViewController} {eff : Effects}
    (hshown : a.shown = some id) (hc : a.controllers[id]? = some (.register self))
    (heff : self.registerButton = .ok eff) :
    ∃ a' docID, Redrawn (a.withDevice (a.device.tapped id (.registerButton self) eff)) a' ∧
      a.touch id .register = .ok (a'.arrive (.myProfile { currentUserDocId := docID })) := by
  have hsegue : ∀ a' self', a'.shown = some id → a'.controllers[id]? = some (.register self') →
      Redrawn (a.withDevice (a.device.tapped id (.registerButton self) eff)) a' →
      ∃ a'' docID, Redrawn (a.withDevice (a.device.tapped id (.registerButton self) eff)) a'' ∧
        a'.perform id toMyProfile =
          .ok (a''.arrive (.myProfile { currentUserDocId := docID })) := by
    intro a' self' hshown' hc' hdrawn
    refine ⟨a'.numbered id self', toString a'.documentIDs,
      hdrawn.trans (redrawn_numbered hc'), ?_⟩
    rw [perform_toMyProfile hc', if_pos hshown']
  rw [touch_register_eq hc, submit_eq (h := .registerButton self) heff]
  have hc' : (a.withDevice (a.device.tapped id (.registerButton self) eff)).controllers[id]? =
      some (.register self) := hc
  obtain hui | ⟨message, hui⟩ := ui_registerButton heff
  · rw [hui]
    exact hsegue _ self hshown hc (Redrawn.refl _)
  · rw [hui, effects_showError hc']
    refine hsegue _ { self with errorLabel := ⟨message, 1⟩ } hshown ?_
      (redrawn_update hc' (Controller.scene_showError message _))
    show (a.controllers.set id _)[id]? = _
    rw [List.getElem?_set_self (List.getElem?_eq_some_iff.mp hc).1]
    rfl

end App

end Pompeius
