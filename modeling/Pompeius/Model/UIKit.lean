import Pompeius.Lib.Segments

/-!
# The parts of Swift, Foundation and UIKit the program leans on

A Swift program dies on a forced unwrap of `nil`, on a failing `as!`, on a
segue or a scene its storyboard does not define, and on an outlet its class
does not declare. Those deaths are values here: the code runs in
`Except Trap`, and a handler that cannot trap is one that always answers `ok`.

`UITextField.text` is declared optional but never answers `nil` (assigning
`nil` stores the empty string), so a field stores a string and the getter
wraps it; the unwraps stay in the code that performs them.

`whitespacesAndNewlines` is the documented set: the separators of general
category Z, U+0009 to U+000D, and U+0085.
-/

namespace Pompeius

/-- The ways the process can die. -/
inductive Trap where
  | unexpectedNil (expression : String)
  | failedCast (className : String)
  | noSegue (identifier : String)
  | noViewController (identifier : String)
  | undefinedKey (key : String)
  | unrecognizedSelector (selector : String)
  deriving DecidableEq, Repr

/-- Swift's `expression!`. -/
def forceUnwrap {α : Type} (expression : String) : Option α → Except Trap α
  | some a => .ok a
  | none => .error (.unexpectedNil expression)

@[simp] theorem forceUnwrap_some {α : Type} {expression : String} {a : α} :
    forceUnwrap expression (some a) = .ok a := rfl

@[simp] theorem ok_bind {α β : Type} {a : α} {f : α → Except Trap β} :
    (Except.ok a >>= f) = f a := rfl

def whitespacesAndNewlines (c : Char) : Bool :=
  (0x09 ≤ c.toNat && c.toNat ≤ 0x0D) || (0x2000 ≤ c.toNat && c.toNat ≤ 0x200A) ||
    [0x20, 0x85, 0xA0, 0x1680, 0x2028, 0x2029, 0x202F, 0x205F, 0x3000].contains c.toNat

/-- `String.trimmingCharacters(in:)`. -/
def trimmingCharacters (s : String) (set : Char → Bool) : String :=
  String.ofList (Lib.trim set s.toList)

structure UITextField where
  stored : String := ""
  deriving DecidableEq, Repr

def UITextField.text (field : UITextField) : Option String := some field.stored

/-- `field.text?.trimmingCharacters(in: .whitespacesAndNewlines)`. -/
def UITextField.trimmed? (field : UITextField) : Option String :=
  field.text.map (trimmingCharacters · whitespacesAndNewlines)

/-- `field.text!.trimmingCharacters(in: .whitespacesAndNewlines)`. -/
def UITextField.trimmed! (field : UITextField) : Except Trap String := do
  let text ← forceUnwrap "text" field.text
  return trimmingCharacters text whitespacesAndNewlines

/-- What the user typed, trimmed. -/
def UITextField.cleaned (field : UITextField) : String :=
  trimmingCharacters field.stored whitespacesAndNewlines

@[simp] theorem UITextField.trimmed?_eq (field : UITextField) :
    field.trimmed? = some field.cleaned := rfl

@[simp] theorem UITextField.trimmed!_eq (field : UITextField) :
    field.trimmed! = .ok field.cleaned := rfl

/-- `alpha` is 0 for a hidden label and 1 for a visible one; the program sets
no other value. -/
structure UILabel where
  text : String
  alpha : Nat
  deriving DecidableEq, Repr

abbrev Data := List UInt8

/-- A picked image, known by the data `jpegData(compressionQuality: 0.4)`
makes of it, which is `nil` for an image that has no bitmap to encode. -/
structure UIImage where
  jpegData : Option Data
  deriving DecidableEq, Repr

theorem trimmingCharacters_ne_space (s : String) :
    trimmingCharacters s whitespacesAndNewlines ≠ " " := by
  intro h
  have hlist : Lib.trim whitespacesAndNewlines s.toList = [' '] := by
    have := congrArg String.toList h
    simpa [trimmingCharacters] using this
  exact Lib.trim_ne_singleton (by decide) hlist

end Pompeius
