import Pompeius.Proofs.Validation

/-!
# What the handlers set going

One equation for each handler, with the validators already evaluated: the
profile pages have no validation left in them, registration has the password
test. Nothing after this file unfolds a handler.

The last two theorems are the safety half: no handler and no completion
handler traps, because every value they force is one they have just tested or
one the SDK always supplies.
-/

namespace Pompeius

@[simp] theorem pure_eq_ok {α : Type} (a : α) : (pure a : Except Trap α) = .ok a := rfl

theorem ViewController.loginButton_eq (self : ViewController) :
    self.loginButton =
      .ok { request := some (.signIn self.emailField.cleaned self.passwordField.cleaned) } := by
  rw [loginButton, validateFields_eq]
  rfl

theorem RegisterViewController.registerButton_eq (self : RegisterViewController) :
    self.registerButton =
      .ok (if Utilities.isPasswordValid self.passwordField.cleaned = false then
          { ui := [.showError passwordPolicy] }
        else
          { request := some (.createUser self.emailField.cleaned self.passwordField.cleaned
              self.firstNameField.cleaned self.lastNameField.cleaned) }) := by
  rw [registerButton, validateFields_eq]
  cases Utilities.isPasswordValid self.passwordField.cleaned with
  | false => rfl
  | true => rfl

/-- The dictionary a tap on page 1 builds, its image URL still empty. -/
def MyProfileViewController.submitted (self : MyProfileViewController) : Dictionary :=
  userDictData self.occupationTextField.cleaned self.ageTextField.cleaned
    self.heightTextField.cleaned self.genderTextField.cleaned
    self.countryOriginTextField.cleaned self.countryRaisedTextField.cleaned

/-- The JPEG form of the selected image, when there is one. -/
def MyProfileViewController.imageData (self : MyProfileViewController) : Option Data :=
  self.image.bind (·.jpegData)

theorem MyProfileViewController.continueButton_eq (self : MyProfileViewController)
    (currentUser : Option User) :
    self.continueButton currentUser =
      .ok (match self.imageData with
        | none => {}
        | some imageData =>
            { request := currentUser.map fun user =>
                .putData (storageProfileRef user.uid) ⟨imageData, "image/jpg"⟩ self.submitted
              ui := [.performSegue "continueProfile"] }) := by
  unfold continueButton imageData
  cases self.image with
  | none => rfl
  | some imageSelected =>
      cases h : imageSelected.jpegData with
      | none => simp only [Option.bind_some, h]; rfl
      | some imageData =>
          simp only [Option.bind_some, h, validateFields_eq, ok_bind, UITextField.trimmed!_eq]
          cases currentUser with
          | none => rfl
          | some user => rfl

/-- What a tap on page 2 writes. -/
def MyProfile2ViewController.submitted (self : MyProfile2ViewController) : DocumentWrite :=
  profile2Write self.currentResidenceTextField.cleaned self.employmentTextField.cleaned
    self.religiousnessTextField.cleaned self.citizenshipTextField.cleaned
    self.preferenceTextField.cleaned

theorem MyProfile2ViewController.continueButton_eq (self : MyProfile2ViewController)
    (currentUser : Option User) :
    self.continueButton currentUser =
      .ok { request := currentUser.map fun _ => .setData self.submitted false
            ui := [.performSegue "toSurveyIntro"] } := by
  rw [continueButton, validateFields_eq]
  cases currentUser with
  | none => rfl
  | some user => rfl

/-! ## No handler traps -/

theorem Invocation.run_ok (h : Invocation) (currentUser : Option User) :
    ∃ eff, h.run currentUser = .ok eff := by
  cases h with
  | loginButton self => exact ⟨_, self.loginButton_eq⟩
  | registerButton self => exact ⟨_, self.registerButton_eq⟩
  | profileContinue self => exact ⟨_, self.continueButton_eq currentUser⟩
  | profile2Continue self => exact ⟨_, self.continueButton_eq currentUser⟩

theorem completion_ok (r : Request) (a : Answer) : ∃ eff, completion r a = .ok eff := by
  cases r with
  | signIn email password =>
      cases a with
      | signIn reply => cases reply <;> exact ⟨_, rfl⟩
      | _ => exact ⟨_, rfl⟩
  | createUser email password firstName lastName =>
      cases a with
      | createUser reply => cases reply <;> exact ⟨_, rfl⟩
      | _ => exact ⟨_, rfl⟩
  | putData ref object userDictData =>
      cases a with
      | putData reply => cases reply <;> exact ⟨_, rfl⟩
      | _ => exact ⟨_, rfl⟩
  | downloadURL ref userDictData =>
      cases a with
      | downloadURL reply => cases reply <;> exact ⟨_, rfl⟩
      | _ => exact ⟨_, rfl⟩
  | setData write awaits =>
      cases awaits with
      | false => exact ⟨_, by cases a <;> rfl⟩
      | true =>
          cases a with
          | setData reply => cases reply <;> exact ⟨_, rfl⟩
          | _ => exact ⟨_, rfl⟩

end Pompeius
