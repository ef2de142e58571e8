import Mathlib.Data.List.Basic

/-!
# Percent-encoding

Each byte is spelled either as itself, when it is one of an allowed set of
characters, or as a percent sign and two hexadecimal digits. The percent sign
is not allowed to stand for itself, so the first character of a spelling says
how long the spelling is: the encoding is a prefix code, and it is injective
on byte strings and so on Unicode strings.

Decoding is more lenient than encoding. It takes digits of either case, and
lets anything but a percent sign stand for itself.
-/

namespace Pompeius.Lib

/-- The upper-case hexadecimal digit of a number below sixteen. -/
def hexDigit (n : Nat) : Char :=
  Char.ofNat (if n < 10 then 0x30 + n else 0x37 + n)

theorem hexDigit_inj : ∀ m < 16, ∀ n < 16, hexDigit m = hexDigit n → m = n := by
  decide

/-- A hexadecimal digit is a digit or one of A to F. -/
theorem hexDigit_mem : ∀ n < 16, hexDigit n ∈ "0123456789ABCDEF".toList := by
  decide

def escapeByte (allowed : Char → Bool) (b : UInt8) : List Char :=
  if allowed (Char.ofUInt8 b) then [Char.ofUInt8 b]
  else ['%', hexDigit (b.toNat / 16), hexDigit (b.toNat % 16)]

/-- The percent-encoding of the UTF-8 bytes of a string. -/
def escape (allowed : Char → Bool) (s : String) : List Char :=
  s.toByteArray.data.toList.flatMap (escapeByte allowed)

section

variable {allowed : Char → Bool}

theorem ofUInt8_inj {b b' : UInt8} (h : Char.ofUInt8 b = Char.ofUInt8 b') :
    b = b' := by
  have hval : b.toUInt32.toNat = b'.toUInt32.toNat :=
    congrArg (fun c : Char => c.val.toNat) h
  rw [UInt8.toNat_toUInt32, UInt8.toNat_toUInt32] at hval
  exact UInt8.toNat_inj.mp hval

/-- The spelling of a byte can be read off the front of a text. -/
theorem escapeByte_append_inj (hpct : allowed '%' = false) {b b' : UInt8}
    {t t' : List Char} (h : escapeByte allowed b ++ t = escapeByte allowed b' ++ t') :
    b = b' ∧ t = t' := by
  unfold escapeByte at h
  split at h <;> rename_i ha <;> split at h <;> rename_i ha'
  · simp only [List.cons_append, List.nil_append, List.cons.injEq] at h
    exact ⟨ofUInt8_inj h.1, h.2⟩
  · simp only [List.cons_append, List.nil_append, List.cons.injEq] at h
    rw [h.1, hpct] at ha
    cases ha
  · simp only [List.cons_append, List.nil_append, List.cons.injEq] at h
    rw [← h.1, hpct] at ha'
    cases ha'
  · simp only [List.cons_append, List.nil_append, List.cons.injEq, true_and] at h
    obtain ⟨hhi, hlo, ht⟩ := h
    have hb := b.toNat_lt
    have hb' := b'.toNat_lt
    have h1 := hexDigit_inj _ (by omega) _ (by omega) hhi
    have h2 := hexDigit_inj _ (Nat.mod_lt _ (by omega)) _ (Nat.mod_lt _ (by omega)) hlo
    exact ⟨UInt8.toNat_inj.mp (by omega), ht⟩

theorem flatMap_escapeByte_inj (hpct : allowed '%' = false) :
    ∀ {bs bs' : List UInt8},
      bs.flatMap (escapeByte allowed) = bs'.flatMap (escapeByte allowed) → bs = bs' := by
  have hne : ∀ b, escapeByte allowed b ≠ [] := by
    intro b
    unfold escapeByte
    split <;> exact List.cons_ne_nil _ _
  intro bs
  induction bs with
  | nil =>
      intro bs' h
      cases bs' with
      | nil => rfl
      | cons b bs' =>
          rw [List.flatMap_nil, List.flatMap_cons] at h
          exact absurd (List.append_eq_nil_iff.mp h.symm).1 (hne b)
  | cons b bs ih =>
      intro bs' h
      cases bs' with
      | nil =>
          rw [List.flatMap_nil, List.flatMap_cons] at h
          exact absurd (List.append_eq_nil_iff.mp h).1 (hne b)
      | cons b' bs' =>
          rw [List.flatMap_cons, List.flatMap_cons] at h
          obtain ⟨rfl, ht⟩ := escapeByte_append_inj hpct h
          rw [ih ht]

theorem escape_inj (hpct : allowed '%' = false) {s s' : String}
    (h : escape allowed s = escape allowed s') : s = s' := by
  have hbytes := flatMap_escapeByte_inj hpct h
  refine String.toByteArray_inj.mp (ByteArray.ext ?_)
  exact Array.toList_inj.mp hbytes

/-- A character that is neither allowed, nor the percent sign, nor a
hexadecimal digit does not occur in an encoded text. -/
theorem not_mem_escape {c : Char} (hc : allowed c = false) (hpct : c ≠ '%')
    (hhex : c ∉ "0123456789ABCDEF".toList) (s : String) : c ∉ escape allowed s := by
  intro hmem
  obtain ⟨b, -, hb⟩ := List.mem_flatMap.mp hmem
  have hlt := b.toNat_lt
  unfold escapeByte at hb
  split at hb <;> rename_i ha
  · rw [List.mem_singleton] at hb
    rw [← hb, hc] at ha
    cases ha
  · simp only [List.mem_cons, List.not_mem_nil, or_false] at hb
    rcases hb with rfl | rfl | rfl
    · exact hpct rfl
    · exact hhex (hexDigit_mem _ (by omega))
    · exact hhex (hexDigit_mem _ (Nat.mod_lt _ (by omega)))

end

/-- Two texts cut at their first occurrence of a character agree before it. -/
theorem append_cons_inj_left {α : Type*} {a : α} {l l' r r' : List α} (hl : a ∉ l)
    (hl' : a ∉ l') (h : l ++ a :: r = l' ++ a :: r') : l = l' := by
  induction l generalizing l' with
  | nil =>
      cases l' with
      | nil => rfl
      | cons x l' =>
          injection h with hx
          exact absurd (hx ▸ List.mem_cons_self) hl'
  | cons x l ih =>
      cases l' with
      | nil =>
          injection h with hx
          exact absurd (hx ▸ List.mem_cons_self) hl
      | cons y l' =>
          injection h with hx ht
          rw [hx, ih (fun hm => hl (List.mem_cons_of_mem x hm))
            (fun hm => hl' (List.mem_cons_of_mem y hm)) ht]

/-! ## Decoding -/

/-- The value of a hexadecimal digit of either case. -/
def hexValue? (c : Char) : Option Nat :=
  if 0x30 ≤ c.toNat ∧ c.toNat ≤ 0x39 then some (c.toNat - 0x30)
  else if 0x41 ≤ c.toNat ∧ c.toNat ≤ 0x46 then some (c.toNat - 0x37)
  else if 0x61 ≤ c.toNat ∧ c.toNat ≤ 0x66 then some (c.toNat - 0x57)
  else none

/-- The bytes a text spells; `none` when a percent sign is not followed by two
digits. -/
def unescapeBytes : List Char → Option (List UInt8)
  | [] => some []
  | '%' :: hi :: lo :: l => do
      let hi ← hexValue? hi
      let lo ← hexValue? lo
      return UInt8.ofNat (16 * hi + lo) :: (← unescapeBytes l)
  | '%' :: _ => none
  | c :: l => (unescapeBytes l).map (String.utf8EncodeChar c ++ ·)

/-- The string a text spells; `none` when the bytes are not UTF-8. -/
def unescape (l : List Char) : Option String :=
  (unescapeBytes l).bind fun bytes => String.fromUTF8? ⟨bytes.toArray⟩

theorem hexValue?_hexDigit : ∀ n < 16, hexValue? (hexDigit n) = some n := by
  decide

theorem unescapeBytes_cons {c : Char} (hc : c ≠ '%') (l : List Char) :
    unescapeBytes (c :: l) = (unescapeBytes l).map (String.utf8EncodeChar c ++ ·) := by
  rw [unescapeBytes]
  · exact fun _ _ _ hpct => absurd hpct hc
  · exact hc

/-- A text without percent signs spells itself. -/
theorem unescapeBytes_append {l : List Char} (hl : '%' ∉ l) (m : List Char) :
    unescapeBytes (l ++ m) = (unescapeBytes m).map (l.flatMap String.utf8EncodeChar ++ ·) := by
  induction l with
  | nil =>
      rw [List.nil_append, List.flatMap_nil]
      exact Option.map_id'.symm
  | cons c l ih =>
      rw [List.mem_cons, not_or] at hl
      rw [List.cons_append, unescapeBytes_cons (Ne.symm hl.1), ih hl.2, Option.map_map,
        List.flatMap_cons]
      exact congrArg (Option.map · _) (funext fun bytes => (List.append_assoc _ _ _).symm)

theorem utf8EncodeChar_ofUInt8 {b : UInt8} (h : b.toNat < 0x80) :
    String.utf8EncodeChar (Char.ofUInt8 b) = [b] := by
  have hb : b.toNat = (Char.ofUInt8 b).val.toNat := (UInt8.toNat_toUInt32 b).symm
  rw [String.utf8EncodeChar_eq_singleton]
  · exact congrArg ([·]) (UInt8.toUInt8_toUInt32 b)
  · unfold Char.utf8Size
    rw [if_pos]
    exact UInt32.le_iff_toNat_le.mpr (by rw [← hb]; exact Nat.le_of_lt_succ h)

section

variable {allowed : Char → Bool}

/-- What stands for itself has to be one byte in UTF-8 for this, and the percent
sign must not be among it. -/
theorem unescapeBytes_escapeByte (hpct : allowed '%' = false)
    (hascii : ∀ c, allowed c = true → c.toNat < 0x80) (b : UInt8) (l : List Char) :
    unescapeBytes (escapeByte allowed b ++ l) = (unescapeBytes l).map (b :: ·) := by
  unfold escapeByte
  split
  · rename_i ha
    have hne : Char.ofUInt8 b ≠ '%' := by
      intro h
      rw [h, hpct] at ha
      cases ha
    have hlt : b.toNat < 0x80 := (UInt8.toNat_toUInt32 b) ▸ hascii _ ha
    rw [List.singleton_append, unescapeBytes_cons hne, utf8EncodeChar_ofUInt8 hlt]
    rfl
  · have hb := b.toNat_lt
    have hbyte : UInt8.ofNat (16 * (b.toNat / 16) + b.toNat % 16) = b := by
      rw [Nat.div_add_mod, UInt8.ofNat_toNat]
    show (hexValue? _ >>= fun hi => hexValue? _ >>= fun lo => unescapeBytes l >>= fun bytes =>
      some (UInt8.ofNat (16 * hi + lo) :: bytes)) = _
    rw [hexValue?_hexDigit _ (by omega), hexValue?_hexDigit _ (Nat.mod_lt _ (by omega)),
      Option.bind_eq_bind, Option.bind_some, Option.bind_eq_bind, Option.bind_some, hbyte]
    exact Option.map_eq_bind.symm

theorem unescapeBytes_flatMap (hpct : allowed '%' = false)
    (hascii : ∀ c, allowed c = true → c.toNat < 0x80) (bs : List UInt8) :
    unescapeBytes (bs.flatMap (escapeByte allowed)) = some bs := by
  induction bs with
  | nil => rfl
  | cons b bs ih =>
      rw [List.flatMap_cons, unescapeBytes_escapeByte hpct hascii, ih]
      rfl

theorem fromUTF8?_toByteArray (s : String) : String.fromUTF8? s.toByteArray = some s := by
  unfold String.fromUTF8?
  rw [dif_pos s.isValidUTF8]
  rfl

/-- What is written after a plain text is read back after it. -/
theorem unescape_append_escape (hpct : allowed '%' = false)
    (hascii : ∀ c, allowed c = true → c.toNat < 0x80) {l : List Char} (hl : '%' ∉ l)
    (s : String) : unescape (l ++ escape allowed s) = some (String.ofList l ++ s) := by
  have hbytes : (⟨(l.flatMap String.utf8EncodeChar ++ s.toByteArray.data.toList).toArray⟩ :
      ByteArray) = (String.ofList l ++ s).toByteArray := by
    rw [String.toByteArray_append, String.toByteArray_ofList]
    refine ByteArray.ext (Array.toList_inj.mp ?_)
    rw [ByteArray.data_append, Array.toList_append]
    refine congrArg (· ++ _) ?_
    rw [List.utf8Encode, List.data_toByteArray]
  unfold unescape escape
  rw [unescapeBytes_append hl, unescapeBytes_flatMap hpct hascii, Option.map_some,
    Option.bind_some, hbytes, fromUTF8?_toByteArray]

end

end Pompeius.Lib
