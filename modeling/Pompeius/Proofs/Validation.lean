import Pompeius.Model.Handlers

/-!
# What the validators reject

The four `validateFields` ask whether a trimmed text equals a single space.
Trimming removes spaces from both ends, so no trimmed text is one, and the
test never fires: `checkFilled_eq_none`. Login and registration are left with
the password policy alone, and the two profile pages accept everything.

The message about empty fields is therefore never returned, which is the right
answer exactly on the forms that have no empty field. The lemmas before it are
what the rest of the development cites instead of unfolding a validator.
-/

namespace Pompeius

theorem cleaned_ne_space (field : UITextField) : field.cleaned ≠ " " :=
  trimmingCharacters_ne_space field.stored

/-- The emptiness check never fires. -/
@[simp] theorem checkFilled_eq_none (fields : List UITextField) :
    checkFilled fields = none := by
  unfold checkFilled
  rw [if_neg]
  intro hany
  obtain ⟨field, -, heq⟩ := List.any_eq_true.mp hany
  rw [UITextField.trimmed?_eq, beq_iff_eq, Option.some.injEq] at heq
  exact cleaned_ne_space field heq

theorem checkPassword_eq (passwordField : UITextField) :
    checkPassword passwordField =
      .ok (if Utilities.isPasswordValid passwordField.cleaned = false then
        some passwordPolicy else none) := by
  rw [checkPassword, UITextField.trimmed!_eq, ok_bind]
  cases Utilities.isPasswordValid passwordField.cleaned with
  | false => rfl
  | true => rfl

theorem ViewController.validateFields_eq (self : ViewController) :
    self.validateFields =
      .ok (if Utilities.isPasswordValid self.passwordField.cleaned = false then
        some passwordPolicy else none) := by
  rw [validateFields, checkFilled_eq_none]
  exact checkPassword_eq self.passwordField

theorem RegisterViewController.validateFields_eq (self : RegisterViewController) :
    self.validateFields =
      .ok (if Utilities.isPasswordValid self.passwordField.cleaned = false then
        some passwordPolicy else none) := by
  rw [validateFields, checkFilled_eq_none]
  exact checkPassword_eq self.passwordField

@[simp] theorem MyProfileViewController.validateFields_eq (self : MyProfileViewController) :
    self.validateFields = .ok none := by
  rw [validateFields, checkFilled_eq_none]

@[simp] theorem MyProfile2ViewController.validateFields_eq (self : MyProfile2ViewController) :
    self.validateFields = .ok none := by
  rw [validateFields, checkFilled_eq_none]

/-! ## Empty fields -/

/-- A validator answers the message about empty fields exactly when one of the
fields it checks is empty after trimming. -/
def RejectsEmpty (result : Except Trap (Option String)) (fields : List UITextField) : Prop :=
  result = .ok (some "Please fill in all fields.") ↔ ∃ field ∈ fields, field.cleaned = ""

theorem rejectsEmpty_iff {result : Except Trap (Option String)} {fields : List UITextField}
    (h : result ≠ .ok (some "Please fill in all fields.")) :
    RejectsEmpty result fields ↔ ∀ field ∈ fields, field.cleaned ≠ "" := by
  unfold RejectsEmpty
  constructor
  · intro hiff field hmem hempty
    exact h (hiff.mpr ⟨field, hmem, hempty⟩)
  · intro hfilled
    constructor
    · intro hres
      exact absurd hres h
    · rintro ⟨field, hmem, hempty⟩
      exact absurd hempty (hfilled field hmem)

theorem passwordOutcome_ne (valid : Bool) :
    (Except.ok (if valid = false then some passwordPolicy else none) :
      Except Trap (Option String)) ≠ .ok (some "Please fill in all fields.") := by
  cases valid <;> decide

theorem passwordOutcome_eq_none {valid : Bool} :
    (Except.ok (if valid = false then some passwordPolicy else none) :
      Except Trap (Option String)) = .ok none ↔ valid = true := by
  cases valid <;> decide

theorem passwordOutcome_eq_some {valid : Bool} {message : String} :
    (Except.ok (if valid = false then some passwordPolicy else none) :
      Except Trap (Option String)) = .ok (some message) ↔
      valid = false ∧ message = passwordPolicy := by
  cases valid with
  | false => simp [eq_comm]
  | true => simp

/-- On each of the four forms the validator rejects empty fields as it should
exactly when there is no empty field to reject. -/
theorem validateFields_rejectsEmpty_iff (login : ViewController)
    (register : RegisterViewController) (page1 : MyProfileViewController)
    (page2 : MyProfile2ViewController) :
    (RejectsEmpty login.validateFields login.checkedFields ↔
      ∀ field ∈ login.checkedFields, field.cleaned ≠ "") ∧
    (RejectsEmpty register.validateFields register.checkedFields ↔
      ∀ field ∈ register.checkedFields, field.cleaned ≠ "") ∧
    (RejectsEmpty page1.validateFields page1.checkedFields ↔
      ∀ field ∈ page1.checkedFields, field.cleaned ≠ "") ∧
    (RejectsEmpty page2.validateFields page2.checkedFields ↔
      ∀ field ∈ page2.checkedFields, field.cleaned ≠ "") := by
  refine ⟨rejectsEmpty_iff ?_, rejectsEmpty_iff ?_, rejectsEmpty_iff ?_, rejectsEmpty_iff ?_⟩
  · rw [ViewController.validateFields_eq]
    exact passwordOutcome_ne _
  · rw [RegisterViewController.validateFields_eq]
    exact passwordOutcome_ne _
  · rw [MyProfileViewController.validateFields_eq]
    decide
  · rw [MyProfile2ViewController.validateFields_eq]
    decide

/-- Profile page 1 as it comes up, every field still blank, passes. -/
theorem blank_profile_not_rejected :
    ¬ RejectsEmpty (MyProfileViewController.validateFields {})
      (MyProfileViewController.checkedFields {}) := by
  rw [MyProfileViewController.validateFields_eq, rejectsEmpty_iff (by decide)]
  intro h
  exact h {} List.mem_cons_self (by decide)

end Pompeius
