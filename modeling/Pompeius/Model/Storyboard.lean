import Pompeius.Model.UIKit

/-!
# The storyboard (`Main.storyboard`)

The scenes, the buttons that have a connection, and the connections. A button
carries its actions and its segues; an action names the scene whose controller
it is sent to, and several name another scene than the button's own, left
there by copying. The navigation controller the app starts with shows the
login scene as its root and is not told apart from it.

`outlets` are the outlets the storyboard connects, `properties` the outlets
the class declares, and `unwrapped` those its code unwraps; a scene loads when
the first are among the second and the third among the first.

Left out: constraints, labels and images, and the buttons without connections.
-/

namespace Pompeius

inductive Scene where
  | login | register | myProfile | myProfile2 | surveyIntroduction | q1 | q2
  | messaging | explore | editProfile
  deriving DecidableEq, Repr

inductive Selector where
  | loginButton | registerHereButton | registerButton | registerWithGoogleButton
  | backButton | continueButton | beginSurveyButton
  | exploreButton | settingsButton | messagesButton | logOutButton
  deriving DecidableEq, Repr

structure Action where
  selector : Selector
  destination : Scene
  deriving DecidableEq, Repr

structure Segue where
  identifier : Option String
  destination : Scene
  deriving DecidableEq, Repr

inductive Button where
  | login | registerHere
  | register | registerWithGoogle | registerBack
  | profileContinue | profileBack
  | profile2Continue | profile2Back
  | surveyBack | beginSurvey
  | q1Continue | q1Back
  | q2Back | q2Continue
  | messagingSettings | messagingExplore
  | exploreMessages | exploreSettings | exploreStraySettings | exploreStrayExplore
  | editMessages | editExplore | editLogOut
  deriving DecidableEq, Repr

namespace Button

def all : List Button :=
  [login, registerHere, register, registerWithGoogle, registerBack, profileContinue,
   profileBack, profile2Continue, profile2Back, surveyBack, beginSurvey, q1Continue, q1Back,
   q2Back, q2Continue, messagingSettings, messagingExplore, exploreMessages, exploreSettings,
   exploreStraySettings, exploreStrayExplore, editMessages, editExplore, editLogOut]

def scene : Button → Scene
  | login | registerHere => .login
  | register | registerWithGoogle | registerBack => .register
  | profileContinue | profileBack => .myProfile
  | profile2Continue | profile2Back => .myProfile2
  | surveyBack | beginSurvey => .surveyIntroduction
  | q1Continue | q1Back => .q1
  | q2Back | q2Continue => .q2
  | messagingSettings | messagingExplore => .messaging
  | exploreMessages | exploreSettings | exploreStraySettings | exploreStrayExplore => .explore
  | editMessages | editExplore | editLogOut => .editProfile

/-- The actions of a button, in the order of its connections. -/
def actions : Button → List Action
  | login => [⟨.loginButton, .login⟩]
  | registerHere => [⟨.registerHereButton, .login⟩]
  | register => [⟨.registerButton, .register⟩]
  | registerWithGoogle => [⟨.registerWithGoogleButton, .register⟩]
  | registerBack => [⟨.backButton, .register⟩]
  | profileContinue => [⟨.continueButton, .myProfile⟩]
  | profileBack => [⟨.backButton, .myProfile⟩]
  | profile2Continue => [⟨.continueButton, .myProfile⟩, ⟨.continueButton, .myProfile2⟩]
  | profile2Back => [⟨.backButton, .myProfile⟩, ⟨.backButton, .myProfile2⟩]
  | surveyBack =>
      [⟨.backButton, .surveyIntroduction⟩, ⟨.backButton, .myProfile⟩, ⟨.backButton, .myProfile2⟩]
  | beginSurvey => [⟨.beginSurveyButton, .surveyIntroduction⟩]
  | q1Continue => [⟨.continueButton, .q1⟩]
  | q1Back => [⟨.backButton, .q1⟩, ⟨.continueButton, .q1⟩]
  | q2Back => [⟨.backButton, .q1⟩, ⟨.backButton, .q2⟩, ⟨.continueButton, .q1⟩]
  | q2Continue => [⟨.continueButton, .q1⟩, ⟨.continueButton, .q2⟩]
  | messagingSettings => [⟨.settingsButton, .messaging⟩]
  | messagingExplore => [⟨.exploreButton, .messaging⟩]
  | exploreMessages => [⟨.messagesButton, .explore⟩]
  | exploreSettings => [⟨.settingsButton, .explore⟩]
  | exploreStraySettings => [⟨.settingsButton, .messaging⟩]
  | exploreStrayExplore => [⟨.exploreButton, .messaging⟩]
  | editMessages => [⟨.messagesButton, .editProfile⟩]
  | editExplore => [⟨.exploreButton, .editProfile⟩]
  | editLogOut => [⟨.logOutButton, .editProfile⟩]

/-- The segues of a button; all present their destination full screen. -/
def segues : Button → List Segue
  | registerHere => [⟨some "toRegister", .register⟩]
  | register => [⟨some "toMyProfile", .myProfile⟩]
  | registerBack => [⟨some "toLogin", .login⟩]
  | profileContinue => [⟨some "continueProfile", .myProfile2⟩]
  | profileBack => [⟨some "backToRegister", .register⟩]
  | profile2Continue => [⟨some "toSurveyIntro", .surveyIntroduction⟩]
  | profile2Back => [⟨some "backToProfile", .myProfile⟩]
  | surveyBack => [⟨some "backButtonSeg", .myProfile2⟩]
  | beginSurvey => [⟨some "toQuestions", .q1⟩]
  | q1Continue => [⟨some "nextQuestions", .q2⟩]
  | q1Back => [⟨some "backToBeginSurvery", .surveyIntroduction⟩]
  | q2Back => [⟨some "backToQ1Set", .q1⟩]
  | messagingSettings => [⟨some "toSettings", .editProfile⟩]
  | messagingExplore => [⟨some "toExplore", .explore⟩]
  | exploreMessages => [⟨some "toMessages", .messaging⟩]
  | exploreSettings => [⟨some "toSettings", .editProfile⟩]
  | editMessages => [⟨some "toMessages", .messaging⟩]
  | editExplore => [⟨none, .explore⟩]
  | _ => []

/-- The actions a tap delivers: those sent to the button's own scene. -/
def delivered (b : Button) : List Action :=
  b.actions.filter (·.destination = b.scene)

end Button

namespace Scene

/-- The segues a scene defines. -/
def segues (scene : Scene) : List Segue :=
  (Button.all.filter (·.scene = scene)).flatMap Button.segues

def storyboardIdentifier : Scene → Option String
  | .myProfile => some "MyProfileVC"
  | .messaging => some "MesaggingVC"
  | _ => none

def outlets : Scene → List String
  | .login => ["emailField", "errorLabel", "googleSignInButton", "passwordField"]
  | .register =>
      ["emailField", "errorLabel", "firstNameField", "lastNameField", "passwordField"]
  | .myProfile =>
      ["ageTextField", "avatar", "countryOriginTextField", "countryRaisedTextField",
       "errorLabel", "genderTextField", "heightTextField", "occupationTextField"]
  | .myProfile2 =>
      ["citizenshipTextField", "currentResidenceTextField", "employmentTextField",
       "errorLabel", "preferenceTextField", "religiousnessTextField"]
  | .q1 => ["continueButton"]
  | _ => []

def properties : Scene → List String
  | .login => ["googleSignInButton", "errorLabel", "emailField", "passwordField"]
  | .register =>
      ["firstNameField", "lastNameField", "passwordField", "emailField", "errorLabel"]
  | .myProfile =>
      ["avatar", "occupationTextField", "ageTextField", "heightTextField", "genderTextField",
       "countryOriginTextField", "countryRaisedTextField", "errorLabel", "textLabel"]
  | .myProfile2 =>
      ["currentResidenceTextField", "employmentTextField", "religiousnessTextField",
       "citizenshipTextField", "preferenceTextField", "errorLabel"]
  | _ => []

/-- `viewDidLoad` unwraps every outlet the handlers unwrap later. -/
def unwrapped : Scene → List String
  | .login => ["errorLabel", "emailField", "passwordField"]
  | .register =>
      ["errorLabel", "firstNameField", "lastNameField", "passwordField", "emailField"]
  | .myProfile =>
      ["avatar", "errorLabel", "occupationTextField", "ageTextField", "heightTextField",
       "genderTextField", "countryOriginTextField", "countryRaisedTextField"]
  | .myProfile2 =>
      ["errorLabel", "currentResidenceTextField", "employmentTextField",
       "religiousnessTextField", "citizenshipTextField", "preferenceTextField"]
  | _ => []

/-- Connect the outlets of a scene and run `viewDidLoad`. -/
def load (scene : Scene) : Except Trap Unit :=
  match scene.outlets.find? (· ∉ scene.properties) with
  | some key => .error (.undefinedKey key)
  | none =>
      match scene.unwrapped.find? (· ∉ scene.outlets) with
      | some outlet => .error (.unexpectedNil outlet)
      | none => .ok ()

theorem load_eq (scene : Scene) :
    scene.load =
      if scene = .q1 then .error (.undefinedKey "continueButton") else .ok () := by
  cases scene <;> decide

end Scene

end Pompeius
