import Pompeius.Model.Firebase
import Pompeius.Model.Utilities

/-!
# The view controllers with a form, and their handlers

One structure for each of the four controllers that validate a form, with the
handlers and completion handlers of its class. A handler reads its controller
and the signed-in user, and answers with what it sets going: at most one call
to Firebase, and what it does to the screen. A closure passed to Firebase is
the function of the same name below with `Completion` after it, applied to
what the closure captured.

All four `validateFields` begin with the same test, a comparison of each
trimmed text with a single space, spelled once as `checkFilled`; login and
registration go on to the password, spelled once as `checkPassword`. The
controllers' `showError` and the two assignments `loginButton` makes to its
label do the same thing and are one effect.

Left out: the prints, and the methods nothing calls.
-/

namespace Pompeius

/-- What a handler does to its screen. -/
inductive UIEffect where
  /-- `errorLabel.text = message; errorLabel.alpha = 1`. -/
  | showError (message : String)
  | performSegue (identifier : String)
  /-- Swap the window's root for a scene of the storyboard. -/
  | setRoot (identifier : String)
  deriving DecidableEq, Repr

structure Effects where
  request : Option Request := none
  ui : List UIEffect := []
  deriving DecidableEq, Repr

/-! ## Validation -/

def fillInAllFields : String := "Please fill in all fields."

def passwordPolicy : String :=
  "Password must contain 8 charaters, a special character and a number."

/-- `field.text?.trimmingCharacters(…) == " " || …`. -/
def checkFilled (fields : List UITextField) : Option String :=
  if fields.any fun field => field.trimmed? == some " " then some fillInAllFields
  else none

def checkPassword (passwordField : UITextField) : Except Trap (Option String) := do
  let cleanedPassword ← passwordField.trimmed!
  if Utilities.isPasswordValid cleanedPassword = false then
    return some passwordPolicy
  return none

/-! ## `ViewController`, the login screen -/

/-- The error label as `viewDidLoad` leaves it. -/
def hiddenLabel : UILabel := ⟨"Error", 0⟩

structure ViewController where
  emailField : UITextField := {}
  passwordField : UITextField := {}
  errorLabel : UILabel := hiddenLabel
  deriving DecidableEq, Repr

namespace ViewController

/-- The fields `validateFields` checks, in its order; likewise below. -/
def checkedFields (self : ViewController) : List UITextField :=
  [self.emailField, self.passwordField]

def validateFields (self : ViewController) : Except Trap (Option String) :=
  match checkFilled self.checkedFields with
  | some message => .ok (some message)
  | none => checkPassword self.passwordField

/-- The outcome of the validation is computed and then not looked at. -/
def loginButton (self : ViewController) : Except Trap Effects := do
  let _error ← self.validateFields
  let email ← self.emailField.trimmed!
  let password ← self.passwordField.trimmed!
  return { request := some (.signIn email password) }

/-- `Constants.Storyboard.messagingViewController`. -/
def messagingViewController : String := "MesaggingVC"

def signInCompletion (error : Option NSError) : Except Trap Effects := do
  if error.isSome then
    let error ← forceUnwrap "error" error
    return { ui := [.showError error.localizedDescription] }
  else
    return { ui := [.setRoot messagingViewController] }

end ViewController

/-! ## `registerViewController` -/

structure RegisterViewController where
  firstNameField : UITextField := {}
  lastNameField : UITextField := {}
  passwordField : UITextField := {}
  emailField : UITextField := {}
  errorLabel : UILabel := hiddenLabel
  docID : String := "Default Value"
  deriving DecidableEq, Repr

namespace RegisterViewController

def checkedFields (self : RegisterViewController) : List UITextField :=
  [self.firstNameField, self.lastNameField, self.passwordField, self.emailField]

def validateFields (self : RegisterViewController) : Except Trap (Option String) :=
  match checkFilled self.checkedFields with
  | some message => .ok (some message)
  | none => checkPassword self.passwordField

def registerButton (self : RegisterViewController) : Except Trap Effects := do
  match ← self.validateFields with
  | some error => return { ui := [.showError error] }
  | none =>
      let firstName ← self.firstNameField.trimmed!
      let lastName ← self.lastNameField.trimmed!
      let password ← self.passwordField.trimmed!
      let email ← self.emailField.trimmed!
      return { request := some (.createUser email password firstName lastName) }

/-- The document a new account starts with. -/
def registrationData (firstName lastName uid : String) : Dictionary :=
  [("firstName", firstName), ("lastName", lastName), ("uid", uid)]

def registrationWrite (firstName lastName uid : String) : DocumentWrite :=
  { document := "new", data := registrationData firstName lastName uid }

def createUserCompletion (firstName lastName : String) (result : Option AuthDataResult)
    (err : Option NSError) : Except Trap Effects := do
  if err.isSome then
    return { ui := [.showError "Email has been used already"] }
  else
    let result ← forceUnwrap "result" result
    return {
      request := some (.setData (registrationWrite firstName lastName result.user.uid) true)
      ui := [.performSegue "toMyProfile"] }

def setDataCompletion (error : Option NSError) : Except Trap Effects :=
  if error.isSome then
    .ok { ui := [.showError "User's name could not be uploaded to database"] }
  else .ok {}

end RegisterViewController

/-! ## `MyProfileViewController`, profile page 1 -/

structure MyProfileViewController where
  occupationTextField : UITextField := {}
  ageTextField : UITextField := {}
  heightTextField : UITextField := {}
  genderTextField : UITextField := {}
  countryOriginTextField : UITextField := {}
  countryRaisedTextField : UITextField := {}
  errorLabel : UILabel := hiddenLabel
  currentUserDocId : String := ""
  image : Option UIImage := none
  deriving DecidableEq, Repr

namespace MyProfileViewController

def checkedFields (self : MyProfileViewController) : List UITextField :=
  [self.occupationTextField, self.ageTextField, self.heightTextField,
   self.genderTextField, self.countryOriginTextField, self.countryRaisedTextField]

def validateFields (self : MyProfileViewController) : Except Trap (Option String) :=
  .ok (checkFilled self.checkedFields)

def userDictData (occupation age height gender countryOrigin countryRaised : String) :
    Dictionary :=
  [("occupation", occupation), ("age", age), ("height", height), ("gender", gender),
   ("country of origin", countryOrigin), ("country raised in", countryRaised),
   ("profileImageUrl", "")]

/-- `Storage.storage().reference(forURL: "gs://pompeius-e4abd.appspot.com")`. -/
def storageRef : StorageReference := ⟨"pompeius-e4abd.appspot.com", []⟩

/-- `storageRef.child("profiles").child(uid)`. -/
def storageProfileRef (uid : String) : StorageReference :=
  (storageRef.child "profiles").child uid

/-- The same two the way the SDK makes them. The bucket the options of the app
name stands in `GoogleService-Info.plist`. -/
def storageProfileReference (uid : String) : Except NSException FIRStorageReference := do
  let storage ← FIRStorage.storageForApp (some "pompeius-e4abd.appspot.com")
  let storageRef ← storage.referenceForURL "gs://pompeius-e4abd.appspot.com"
  return (storageRef.child "profiles").child uid

/-- A tap without a selected image, or with one that has no JPEG form, ends
here without a word; past that the page moves on whether or not a user is
signed in. -/
def continueButton (self : MyProfileViewController) (currentUser : Option User) :
    Except Trap Effects := do
  let some imageSelected := self.image | return {}
  let some imageData := imageSelected.jpegData | return {}
  match ← self.validateFields with
  | some error => return { ui := [.showError error] }
  | none =>
      let occupation ← self.occupationTextField.trimmed!
      let age ← self.ageTextField.trimmed!
      let height ← self.heightTextField.trimmed!
      let gender ← self.genderTextField.trimmed!
      let countryOrigin ← self.countryOriginTextField.trimmed!
      let countryRaised ← self.countryRaisedTextField.trimmed!
      if currentUser.isSome then
        let uid := (← forceUnwrap "user" currentUser).uid
        return {
          request := some (.putData (storageProfileRef uid) ⟨imageData, "image/jpg"⟩
            (userDictData occupation age height gender countryOrigin countryRaised))
          ui := [.performSegue "continueProfile"] }
      else
        return { ui := [.performSegue "continueProfile"] }

def putDataCompletion (storageProfileRef : StorageReference) (userDictData : Dictionary)
    (error : Option NSError) : Except Trap Effects :=
  if error.isSome then .ok {}
  else .ok { request := some (.downloadURL storageProfileRef userDictData) }

def profileWrite (userDictData : Dictionary) (metaImageUrl : String) : DocumentWrite :=
  { document := "new", data := userDictData.set "profileImageUrl" metaImageUrl, merge := true }

def downloadURLCompletion (userDictData : Dictionary) (url : Option String) :
    Except Trap Effects :=
  match url with
  | some metaImageUrl =>
      .ok { request := some (.setData (profileWrite userDictData metaImageUrl) false) }
  | none => .ok {}

end MyProfileViewController

/-! ## `MyProfile2ViewController`, profile page 2 -/

structure MyProfile2ViewController where
  currentResidenceTextField : UITextField := {}
  employmentTextField : UITextField := {}
  religiousnessTextField : UITextField := {}
  citizenshipTextField : UITextField := {}
  preferenceTextField : UITextField := {}
  errorLabel : UILabel := hiddenLabel
  deriving DecidableEq, Repr

namespace MyProfile2ViewController

def checkedFields (self : MyProfile2ViewController) : List UITextField :=
  [self.currentResidenceTextField, self.employmentTextField,
   self.religiousnessTextField, self.citizenshipTextField, self.preferenceTextField]

def validateFields (self : MyProfile2ViewController) : Except Trap (Option String) :=
  .ok (checkFilled self.checkedFields)

def profile2Data (currentResidence employment religion citizenship agePreference : String) :
    Dictionary :=
  [("current residence", currentResidence), ("employment", employment),
   ("religion standard", religion), ("citizenship", citizenship),
   ("age preference", agePreference)]

def profile2Write (currentResidence employment religion citizenship agePreference : String) :
    DocumentWrite :=
  { document := "new"
    data := profile2Data currentResidence employment religion citizenship agePreference
    merge := true }

def continueButton (self : MyProfile2ViewController) (currentUser : Option User) :
    Except Trap Effects := do
  match ← self.validateFields with
  | some error => return { ui := [.showError error] }
  | none =>
      let currentResidence ← self.currentResidenceTextField.trimmed!
      let employment ← self.employmentTextField.trimmed!
      let religion ← self.religiousnessTextField.trimmed!
      let citizenship ← self.citizenshipTextField.trimmed!
      let agePreference ← self.preferenceTextField.trimmed!
      if currentUser.isSome then
        return {
          request := some (.setData
            (profile2Write currentResidence employment religion citizenship agePreference) false)
          ui := [.performSegue "toSurveyIntro"] }
      else
        return { ui := [.performSegue "toSurveyIntro"] }

end MyProfile2ViewController

/-! ## Taps and completions -/

/-- A submit handler together with the controller it runs on. -/
inductive Invocation where
  | loginButton (self : ViewController)
  | registerButton (self : RegisterViewController)
  | profileContinue (self : MyProfileViewController)
  | profile2Continue (self : MyProfile2ViewController)
  deriving DecidableEq, Repr

def Invocation.run (h : Invocation) (currentUser : Option User) : Except Trap Effects :=
  match h with
  | .loginButton self => self.loginButton
  | .registerButton self => self.registerButton
  | .profileContinue self => self.continueButton currentUser
  | .profile2Continue self => self.continueButton currentUser

/-- Hand an answer to the completion handler of the request it answers. -/
def completion : Request → Answer → Except Trap Effects
  | .signIn _ _, .signIn reply => ViewController.signInCompletion reply.error
  | .createUser _ _ firstName lastName, .createUser reply =>
      RegisterViewController.createUserCompletion firstName lastName
        (reply.value.map fun uid => ⟨⟨uid⟩⟩) reply.error
  | .putData ref _ userDictData, .putData reply =>
      MyProfileViewController.putDataCompletion ref userDictData reply.error
  | .downloadURL ref userDictData, .downloadURL reply =>
      MyProfileViewController.downloadURLCompletion userDictData
        (reply.value.map ref.downloadURL)
  | .setData _ true, .setData reply => RegisterViewController.setDataCompletion reply.error
  | _, _ => .ok {}

end Pompeius
