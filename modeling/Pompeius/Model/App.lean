import Pompeius.Model.Device
import Pompeius.Model.Storyboard

/-!
# The running app

Controllers live in a heap that only grows: a segue always instantiates its
destination anew, and nothing in the program dismisses a controller, so of the
screens below the shown one only the closures they left in flight are ever
seen again. A controller is known by its index.

A tap on a button of the shown screen sends the actions the storyboard
delivers, in order, and then performs the segues attached to the button. UIKit
presents only from the controller whose view is in the window: a segue
performed by any other controller runs its `prepare` and presents nothing.

`step` answers `none` for an event that cannot happen, and a `Trap` when the
process dies of it. `presented`, newest first, is there for statements.
-/

namespace Pompeius

inductive Controller where
  | login (self : ViewController)
  | register (self : RegisterViewController)
  | myProfile (self : MyProfileViewController)
  | myProfile2 (self : MyProfile2ViewController)
  | surveyIntroduction
  | q1
  | q2
  | messaging
  | explore
  | editProfile
  deriving DecidableEq, Repr

def Controller.scene : Controller → Scene
  | login _ => .login
  | register _ => .register
  | myProfile _ => .myProfile
  | myProfile2 _ => .myProfile2
  | surveyIntroduction => .surveyIntroduction
  | q1 => .q1
  | q2 => .q2
  | messaging => .messaging
  | explore => .explore
  | editProfile => .editProfile

/-- A new controller of a scene, its fields empty. -/
def Scene.instantiate : Scene → Controller
  | .login => .login {}
  | .register => .register {}
  | .myProfile => .myProfile {}
  | .myProfile2 => .myProfile2 {}
  | .surveyIntroduction => .surveyIntroduction
  | .q1 => .q1
  | .q2 => .q2
  | .messaging => .messaging
  | .explore => .explore
  | .editProfile => .editProfile

/-- The text fields, by the names of their outlets. -/
inductive Field where
  | email | password | firstName | lastName
  | occupation | age | height | gender | countryOrigin | countryRaised
  | currentResidence | employment | religiousness | citizenship | preference
  deriving DecidableEq, Repr

namespace Controller

/-- The controller with a text typed into one of its fields, if it has it. -/
def type (text : String) : Controller → Field → Option Controller
  | login self, .email => some (login { self with emailField := ⟨text⟩ })
  | login self, .password => some (login { self with passwordField := ⟨text⟩ })
  | register self, .firstName => some (register { self with firstNameField := ⟨text⟩ })
  | register self, .lastName => some (register { self with lastNameField := ⟨text⟩ })
  | register self, .password => some (register { self with passwordField := ⟨text⟩ })
  | register self, .email => some (register { self with emailField := ⟨text⟩ })
  | myProfile self, .occupation => some (myProfile { self with occupationTextField := ⟨text⟩ })
  | myProfile self, .age => some (myProfile { self with ageTextField := ⟨text⟩ })
  | myProfile self, .height => some (myProfile { self with heightTextField := ⟨text⟩ })
  | myProfile self, .gender => some (myProfile { self with genderTextField := ⟨text⟩ })
  | myProfile self, .countryOrigin =>
      some (myProfile { self with countryOriginTextField := ⟨text⟩ })
  | myProfile self, .countryRaised =>
      some (myProfile { self with countryRaisedTextField := ⟨text⟩ })
  | myProfile2 self, .currentResidence =>
      some (myProfile2 { self with currentResidenceTextField := ⟨text⟩ })
  | myProfile2 self, .employment => some (myProfile2 { self with employmentTextField := ⟨text⟩ })
  | myProfile2 self, .religiousness =>
      some (myProfile2 { self with religiousnessTextField := ⟨text⟩ })
  | myProfile2 self, .citizenship =>
      some (myProfile2 { self with citizenshipTextField := ⟨text⟩ })
  | myProfile2 self, .preference => some (myProfile2 { self with preferenceTextField := ⟨text⟩ })
  | _, _ => none

/-- `imagePickerController(_:didFinishPickingMediaWithInfo:)`. -/
def didFinishPicking (editedImage : Option UIImage) : Controller → Option Controller
  | myProfile self =>
      match editedImage with
      | some imageSelected => some (myProfile { self with image := some imageSelected })
      | none => some (myProfile self)
  | _ => none

def showError (message : String) : Controller → Controller
  | login self => login { self with errorLabel := ⟨message, 1⟩ }
  | register self => register { self with errorLabel := ⟨message, 1⟩ }
  | myProfile self => myProfile { self with errorLabel := ⟨message, 1⟩ }
  | myProfile2 self => myProfile2 { self with errorLabel := ⟨message, 1⟩ }
  | c => c

end Controller

/-! ## Action methods -/

/-- What the body of an action method does. -/
inductive Response where
  | submit (h : Invocation)
  | performSegue (identifier : String)
  | nothing
  deriving DecidableEq, Repr

/-- The action methods of the classes, by selector. -/
def Controller.respond : Controller → Selector → Option Response
  | login self, .loginButton => some (.submit (.loginButton self))
  | login _, .registerHereButton => some (.performSegue "toRegister")
  | register self, .registerButton => some (.submit (.registerButton self))
  | register _, .registerWithGoogleButton => some .nothing
  | register _, .backButton => some (.performSegue "toLogin")
  | myProfile self, .continueButton => some (.submit (.profileContinue self))
  | myProfile _, .backButton => some (.performSegue "backToRegister")
  | myProfile2 self, .continueButton => some (.submit (.profile2Continue self))
  | myProfile2 _, .backButton => some (.performSegue "backToProfile")
  | surveyIntroduction, .backButton => some (.performSegue "backButtonSeg")
  | surveyIntroduction, .beginSurveyButton => some (.performSegue "toQuestions")
  | q1, .backButton => some (.performSegue "backToBeginSurvery")
  | q1, .continueButton => some (.performSegue "nextQuestions")
  | q2, .backButton => some (.performSegue "backToQ1Set")
  | q2, .continueButton => some .nothing
  | messaging, .exploreButton => some .nothing
  | messaging, .settingsButton => some .nothing
  | explore, .messagesButton => some .nothing
  | explore, .settingsButton => some .nothing
  | editProfile, .messagesButton => some .nothing
  | editProfile, .exploreButton => some .nothing
  | editProfile, .logOutButton => some .nothing
  | _, _ => none

/-! ## Google sign-in -/

structure GIDProfileData where
  email : Option String
  deriving DecidableEq, Repr

structure GIDGoogleUser where
  profile : Option GIDProfileData
  deriving DecidableEq, Repr

/-- `AppDelegate.sign(_:didSignInFor:withError:)` prints this line and does
nothing else. -/
def AppDelegate.sign (user : Option GIDGoogleUser) : Except Trap String := do
  let user ← forceUnwrap "user" user
  let profile ← forceUnwrap "profile" user.profile
  return "User email: " ++ profile.email.getD "No Email"

/-! ## Screens -/

structure App where
  device : Device
  controllers : List Controller
  /-- The controller whose view is in the window. -/
  shown : Option Nat
  /-- Sign-ins with Google the delegate has not heard of yet. -/
  googleSignIns : Nat := 0
  /-- The automatic document ids handed out so far. -/
  documentIDs : Nat := 0
  presented : List Scene

namespace App

def shownController (a : App) : Option Controller := a.shown.bind (a.controllers[·]?)

def update (a : App) (id : Nat) (c : Controller) : App :=
  { a with controllers := a.controllers.set id c }

/-- The app with a new controller in the window. -/
def arrive (a : App) (c : Controller) : App :=
  { a with
    controllers := a.controllers ++ [c]
    shown := some a.controllers.length
    presented := c.scene :: a.presented }

def present (a : App) (source : Nat) (destination : Controller) : Except Trap App := do
  if a.shown = some source then
    destination.scene.load
    return a.arrive destination
  else
    return a

/-- `prepare(for:)`, which only `registerViewController` overrides. -/
def prepare (a : App) (source : Nat) (segue : Segue) (destination : Controller) :
    Except Trap (App × Controller) :=
  match a.controllers[source]? with
  | some (.register self) =>
      if segue.identifier = some "toMyProfile" then
        match destination with
        | .myProfile vc =>
            let docID := toString a.documentIDs
            .ok ({ a.update source (.register { self with docID }) with
                documentIDs := a.documentIDs + 1 },
              .myProfile { vc with currentUserDocId := docID })
        | _ => .error (.failedCast "MyProfileViewController")
      else .ok (a, destination)
  | _ => .ok (a, destination)

def perform (a : App) (source : Nat) (segue : Segue) : Except Trap App := do
  let (a, destination) ← a.prepare source segue segue.destination.instantiate
  a.present source destination

def performSegue (a : App) (source : Nat) (identifier : String) : Except Trap App :=
  match a.controllers[source]? with
  | none => .ok a
  | some c =>
      match c.scene.segues.find? (·.identifier = some identifier) with
      | none => .error (.noSegue identifier)
      | some segue => a.perform source segue

def instantiateViewController (identifier : String) : Except Trap Controller :=
  match (Button.all.map Button.scene).find? (·.storyboardIdentifier = some identifier) with
  | none => .error (.noViewController identifier)
  | some scene => .ok scene.instantiate

/-- `transitionToNextView`: `as? MessagingViewController`, and the root of the
window is set only while the controller's view is in one. -/
def setRoot (a : App) (source : Nat) (identifier : String) : Except Trap App := do
  let c ← instantiateViewController identifier
  if a.shown = some source then
    match c with
    | .messaging =>
        c.scene.load
        return a.arrive c
    | _ => return { a with shown := none }
  else
    return a

def effect (a : App) (id : Nat) : UIEffect → Except Trap App
  | .showError message =>
      match a.controllers[id]? with
      | some c => .ok (a.update id (c.showError message))
      | none => .ok a
  | .performSegue identifier => a.performSegue id identifier
  | .setRoot identifier => a.setRoot id identifier

def effects (a : App) (id : Nat) (ui : List UIEffect) : Except Trap App :=
  ui.foldlM (fun a e => a.effect id e) a

/-- Run a submit handler. -/
def submit (a : App) (id : Nat) (h : Invocation) : Except Trap App := do
  let (device, ui) ← a.device.invoke id h
  let a := { a with device }
  a.effects id ui

/-! ## Taps -/

/-- Send an action message to a controller. -/
def send (a : App) (id : Nat) (selector : Selector) : Except Trap App :=
  match a.controllers[id]? with
  | none => .ok a
  | some c =>
      match c.respond selector with
      | some (.submit h) => a.submit id h
      | some (.performSegue identifier) => a.performSegue id identifier
      | some .nothing => .ok a
      | none => .error (.unrecognizedSelector (reprStr selector))

/-- A touch on a button of the controller `id`: its actions, then its segues. -/
def touch (a : App) (id : Nat) (button : Button) : Except Trap App := do
  let a ← button.delivered.foldlM (fun a action => a.send id action.selector) a
  button.segues.foldlM (fun a segue => a.perform id segue) a

/-! ## Steps -/

inductive Event where
  | tap (button : Button)
  | type (field : Field) (text : String)
  | pickImage (editedImage : Option UIImage)
  /-- A touch on the `GIDSignInButton` of the login screen. -/
  | tapGoogle
  /-- The Google delegate hears of a sign-in; the user is `nil` after an error
  or a cancellation. -/
  | googleSignIn (user : Option GIDGoogleUser)
  | serve (i : Nat) (answer : Answer)
  | deliver (i : Nat)
  | announce
  | auth (user : Option User)
  deriving DecidableEq, Repr

/-- Show what a step of the device does to the screen of tap `i`. -/
def refresh (a : App) (i : Nat) (r : Except Trap (Device × List UIEffect)) :
    Except Trap App := do
  let (device, ui) ← r
  let a := { a with device }
  match device.taps[i]? with
  | some t => a.effects t.self ui
  | none => return a

def step (a : App) : Event → Option (Except Trap App)
  | .tap button =>
      match a.shown, a.shownController with
      | some id, some c => if c.scene = button.scene then some (a.touch id button) else none
      | _, _ => none
  | .type field text =>
      match a.shown, a.shownController with
      | some id, some c => (c.type text field).map fun c => .ok (a.update id c)
      | _, _ => none
  | .pickImage editedImage =>
      match a.shown, a.shownController with
      | some id, some c => (c.didFinishPicking editedImage).map fun c => .ok (a.update id c)
      | _, _ => none
  | .tapGoogle =>
      if a.shownController.map Controller.scene = some .login then
        some (.ok { a with googleSignIns := a.googleSignIns + 1 })
      else none
  | .googleSignIn user =>
      if 0 < a.googleSignIns then
        some ((AppDelegate.sign user).map fun _ =>
          { a with googleSignIns := a.googleSignIns - 1 })
      else none
  | .serve i answer => (a.device.step (.serve i answer)).map (a.refresh i)
  | .deliver i => (a.device.step (.deliver i)).map (a.refresh i)
  | .announce => (a.device.step .announce).map fun r => r.map fun p => { a with device := p.1 }
  | .auth user => (a.device.step (.auth user)).map fun r => r.map fun p => { a with device := p.1 }

/-- The step of a process that may have died; the dead do not move. -/
def advance : Except Trap App → Event → Option (Except Trap App)
  | .ok a, e => a.step e
  | .error _, _ => none

/-- The step of a process that lives. -/
def next (a : App) (e : Event) : Option App :=
  match a.step e with
  | some (.ok a') => some a'
  | _ => none

/-- The login screen of an app on which nothing has happened yet. -/
def initial (b : Backend) : App :=
  { device := .launch b, controllers := [.login {}], shown := some 0, presented := [.login] }

def launch (b : Backend) : Except Trap App := do
  Scene.login.load
  return initial b

end App

end Pompeius
