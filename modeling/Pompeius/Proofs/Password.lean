import Pompeius.Lib.Matching
import Pompeius.Proofs.Validation

/-!
# The language of the password pattern, and the policy it stands for

The pattern anchors, looks ahead twice and then reads a class to the end. The
last part decides what the subject is made of, and that settles the
lookaheads: no character of the class is a line terminator, so where the whole
subject is of the class nothing stops the dot, and a lookahead for a class is
the question whether the subject has such a character. `fullMatch_passwordPattern`
is the pattern without its regular expression.

The message the app shows asks for eight characters, a special character and a
number. The pattern asks for a lowercase letter where the message says number,
so the two part over the passwords that are long enough and have a special
character but have only one of the two: `policy_enforced_iff`.
-/

namespace Pompeius

open Lib Regex Utilities

/-! ## The pattern -/

/-- `[A-Za-z\d$@$#!%*?&]`. -/
def isPasswordCharacter (c : Char) : Bool :=
  isLetterASCII c || isDecimalDigit c || isSpecialCharacter c

theorem isPasswordCharacter_iff {c : Char} :
    isPasswordCharacter c = true ↔
      isLetterASCII c = true ∨ isDecimalDigit c = true ∨ isSpecialCharacter c = true := by
  rw [isPasswordCharacter, Bool.or_eq_true, Bool.or_eq_true, or_assoc]

theorem isLineTerminator_iff {c : Char} :
    isLineTerminator c = true ↔ (0x0A ≤ c.toNat ∧ c.toNat ≤ 0x0D) ∨
      c.toNat = 0x85 ∨ c.toNat = 0x2028 ∨ c.toNat = 0x2029 := by
  simp [isLineTerminator]

theorem toNat_of_isLetterASCII {c : Char} (h : isLetterASCII c = true) :
    0x41 ≤ c.toNat ∧ c.toNat ≤ 0x7A := by
  have hle : ∀ {a b : Char}, a ≤ b → a.toNat ≤ b.toNat := fun hab => hab
  simp only [isLetterASCII, isLowercaseASCII, Bool.or_eq_true, Bool.and_eq_true,
    decide_eq_true_eq] at h
  rcases h with ⟨hA, hZ⟩ | ⟨ha, hz⟩
  · have hlo : 0x41 ≤ c.toNat := hle hA
    have hhi : c.toNat ≤ 0x5A := hle hZ
    omega
  · have hlo : 0x61 ≤ c.toNat := hle ha
    have hhi : c.toNat ≤ 0x7A := hle hz
    omega

/-- No block of digits has a line terminator in it. -/
theorem decimalDigitZeros_gap : ∀ z ∈ decimalDigitZeros, 0x0D < z ∧
    (z + 9 < 0x85 ∨ (0x85 < z ∧ z + 9 < 0x2028) ∨ 0x2029 < z) := by
  decide

theorem not_isLineTerminator {c : Char} (h : isPasswordCharacter c = true) :
    isLineTerminator c = false := by
  rw [Bool.eq_false_iff, Ne]
  rcases isPasswordCharacter_iff.mp h with hletter | hdigit | hspecial
  · have hrange := toNat_of_isLetterASCII hletter
    rw [isLineTerminator_iff]
    omega
  · obtain ⟨z, hz, hrange⟩ := List.any_eq_true.mp hdigit
    have hgap := decimalDigitZeros_gap z hz
    simp only [Bool.and_eq_true, decide_eq_true_eq] at hrange
    rw [isLineTerminator_iff]
    omega
  · have hall : ['$', '@', '$', '#', '!', '%', '*', '?', '&'].all
        (fun s => !isLineTerminator s) = true := by decide
    have hc := List.all_eq_true.mp hall c (List.contains_iff_mem.mp hspecial)
    simpa using hc

/-- A lookahead at the start of a subject of the class. -/
theorem matches_lookahead {s : List Char} (hs : ∀ c ∈ s, isPasswordCharacter c = true)
    (q : Char → Bool) :
    (∃ k, Matches (.seq (.rep 0 (.cls fun c => !isLineTerminator c)) (.cls q)) ⟨0, s⟩ k) ↔
      ∃ c ∈ s, q c = true := by
  refine matches_seek_of_forall (k := ⟨0, s⟩) fun c hc => ?_
  rw [not_isLineTerminator (hs c hc)]
  rfl

/-- The last part of the pattern, read to the end of the subject. -/
theorem matches_class {s : List Char} {k : Cursor} (hend : k.rest = []) :
    Matches (.rep 8 (.cls isPasswordCharacter)) ⟨0, s⟩ k ↔
      k = ⟨s.length, []⟩ ∧ 8 ≤ s.length ∧ ∀ c ∈ s, isPasswordCharacter c = true := by
  rw [matches_rep_cls]
  constructor
  · rintro ⟨read, hread, hlen, hall⟩
    have hs : s = read := by
      have hrest := hread.rest
      rw [hend, List.append_nil] at hrest
      exact hrest
    subst hs
    refine ⟨?_, hlen, hall⟩
    have hpos : k.pos = s.length := hread.pos.trans (Nat.zero_add _)
    cases k
    cases hend
    cases hpos
    rfl
  · rintro ⟨rfl, hlen, hall⟩
    exact ⟨s, .whole s, hlen, hall⟩

/-- What the pattern accepts. -/
theorem fullMatch_passwordPattern (s : List Char) :
    passwordPattern.fullMatch s = true ↔
      8 ≤ s.length ∧ (∀ c ∈ s, isPasswordCharacter c = true) ∧
        (∃ c ∈ s, isLowercaseASCII c = true) ∧ ∃ c ∈ s, isSpecialCharacter c = true := by
  rw [fullMatch_iff]
  constructor
  · rintro ⟨k, hmatch, hend⟩
    obtain ⟨k₁, hbol, hmatch⟩ := matches_seq.mp hmatch
    obtain ⟨-, rfl⟩ := matches_bol.mp hbol
    obtain ⟨k₂, hlook, hmatch⟩ := matches_seq.mp hmatch
    obtain ⟨hlower, rfl⟩ := matches_look.mp hlook
    obtain ⟨k₃, hlook, hclass⟩ := matches_seq.mp hmatch
    obtain ⟨hspecial, rfl⟩ := matches_look.mp hlook
    obtain ⟨-, hlen, hall⟩ := (matches_class hend).mp hclass
    exact ⟨hlen, hall, (matches_lookahead hall _).mp hlower,
      (matches_lookahead hall _).mp hspecial⟩
  · rintro ⟨hlen, hall, hlower, hspecial⟩
    have hlook : ∀ q, (∃ c ∈ s, q c = true) →
        Matches (.look (.seq (.rep 0 (.cls fun c => !isLineTerminator c)) (.cls q)))
          ⟨0, s⟩ ⟨0, s⟩ :=
      fun q hq => matches_look.mpr ⟨(matches_lookahead hall q).mpr hq, rfl⟩
    have hclass := (matches_class (k := ⟨s.length, []⟩) rfl).mpr ⟨rfl, hlen, hall⟩
    exact ⟨_, .seq (.bol rfl) (.seq (hlook _ hlower) (.seq (hlook _ hspecial) hclass)), rfl⟩

theorem isPasswordValid_iff (p : String) :
    isPasswordValid p = true ↔
      8 ≤ p.length ∧
      (∀ c ∈ p.toList, isLetterASCII c = true ∨ isDecimalDigit c = true ∨
        isSpecialCharacter c = true) ∧
      (∃ c ∈ p.toList, isLowercaseASCII c = true) ∧
      ∃ c ∈ p.toList, isSpecialCharacter c = true := by
  rw [isPasswordValid, fullMatch_passwordPattern, String.length_toList]
  simp only [isPasswordCharacter_iff]

/-! ## The policy -/

def isDigitASCII (c : Char) : Bool := '0' ≤ c && c ≤ '9'

/-- ASCII letters, ASCII digits and the special characters. -/
def InAlphabet (p : String) : Prop :=
  ∀ c ∈ p.toList, isLetterASCII c = true ∨ isDigitASCII c = true ∨ isSpecialCharacter c = true

instance (p : String) : Decidable (InAlphabet p) :=
  decidable_of_iff
    ((p.toList.all fun c => isLetterASCII c || isDigitASCII c || isSpecialCharacter c) = true)
    (by simp [InAlphabet, or_assoc])

/-- What the message asks for. -/
structure MeetsPolicy (p : String) : Prop where
  length : 8 ≤ p.length
  special : ∃ c ∈ p.toList, isSpecialCharacter c = true
  digit : ∃ c ∈ p.toList, isDigitASCII c = true

instance (p : String) : Decidable (MeetsPolicy p) :=
  decidable_of_iff (8 ≤ p.length ∧ p.toList.any isSpecialCharacter = true ∧
      p.toList.any isDigitASCII = true)
    ⟨fun h => ⟨h.1, List.any_eq_true.mp h.2.1, List.any_eq_true.mp h.2.2⟩,
      fun h => ⟨h.length, List.any_eq_true.mpr h.special, List.any_eq_true.mpr h.digit⟩⟩

/-- Where nothing else is missing, the lowercase letter the pattern asks for is
there exactly when the number the message asks for is. -/
def PolicyEnforced (p : String) : Prop :=
  8 ≤ p.length → (∃ c ∈ p.toList, isSpecialCharacter c = true) →
    (∀ c ∈ p.toList, isPasswordCharacter c = true) →
    ((∃ c ∈ p.toList, isLowercaseASCII c = true) ↔
      InAlphabet p ∧ ∃ c ∈ p.toList, isDigitASCII c = true)

theorem isDecimalDigit_of_isDigitASCII {c : Char} (h : isDigitASCII c = true) :
    isDecimalDigit c = true := by
  simp only [isDigitASCII, Bool.and_eq_true, decide_eq_true_eq] at h
  have hlo : 0x30 ≤ c.toNat := h.1
  have hhi : c.toNat ≤ 0x39 := h.2
  refine List.any_eq_true.mpr ⟨0x30, List.mem_cons_self, ?_⟩
  simp only [Bool.and_eq_true, decide_eq_true_eq]
  omega

/-- The alphabet of the policy lies in the class of the pattern. -/
theorem InAlphabet.isPasswordCharacter {p : String} (h : InAlphabet p) :
    ∀ c ∈ p.toList, isPasswordCharacter c = true := by
  intro c hc
  refine isPasswordCharacter_iff.mpr ((h c hc).imp_right fun hrest => ?_)
  exact hrest.imp_left isDecimalDigit_of_isDigitASCII

theorem accepts_iff_policyEnforced (p : String) :
    (passwordPattern.fullMatch p.toList = true ↔ InAlphabet p ∧ MeetsPolicy p) ↔
      PolicyEnforced p := by
  rw [fullMatch_passwordPattern, String.length_toList]
  constructor
  · intro h hlen hspecial hclass
    constructor
    · intro hlower
      obtain ⟨halphabet, hmeets⟩ := h.mp ⟨hlen, hclass, hlower, hspecial⟩
      exact ⟨halphabet, hmeets.digit⟩
    · rintro ⟨halphabet, hdigit⟩
      exact (h.mpr ⟨halphabet, hlen, hspecial, hdigit⟩).2.2.1
  · intro h
    constructor
    · rintro ⟨hlen, hclass, hlower, hspecial⟩
      obtain ⟨halphabet, hdigit⟩ := (h hlen hspecial hclass).mp hlower
      exact ⟨halphabet, hlen, hspecial, hdigit⟩
    · rintro ⟨halphabet, hlen, hspecial, hdigit⟩
      have hclass := halphabet.isPasswordCharacter
      exact ⟨hlen, hclass, (h hlen hspecial hclass).mpr ⟨halphabet, hdigit⟩, hspecial⟩

/-- The check enforces the policy, over the alphabet and on both forms, exactly
where the letter it asks for comes with the number it should ask for. -/
theorem policy_enforced_iff (p : String) (login : ViewController)
    (register : RegisterViewController) :
    (InAlphabet p → ((isPasswordValid p = true ↔ MeetsPolicy p) ↔ PolicyEnforced p)) ∧
    ((login.validateFields = .ok none ↔
        InAlphabet login.passwordField.cleaned ∧ MeetsPolicy login.passwordField.cleaned) ↔
      PolicyEnforced login.passwordField.cleaned) ∧
    ((register.validateFields = .ok none ↔
        InAlphabet register.passwordField.cleaned ∧ MeetsPolicy register.passwordField.cleaned) ↔
      PolicyEnforced register.passwordField.cleaned) := by
  refine ⟨fun halphabet => ?_, ?_, ?_⟩
  · rw [← accepts_iff_policyEnforced, and_iff_right halphabet]
    rfl
  · rw [ViewController.validateFields_eq, passwordOutcome_eq_none]
    exact accepts_iff_policyEnforced _
  · rw [RegisterViewController.validateFields_eq, passwordOutcome_eq_none]
    exact accepts_iff_policyEnforced _

/-- A password without a number is accepted, and one without a lowercase
letter is refused. -/
theorem policy_not_enforced :
    (InAlphabet "abcdefg!" ∧ isPasswordValid "abcdefg!" = true ∧ ¬ MeetsPolicy "abcdefg!") ∧
    (InAlphabet "ABCDEFG1!" ∧ isPasswordValid "ABCDEFG1!" = false ∧
      MeetsPolicy "ABCDEFG1!") :=
  ⟨⟨by decide, by decide, by decide⟩, by decide, by decide, by decide⟩

end Pompeius
