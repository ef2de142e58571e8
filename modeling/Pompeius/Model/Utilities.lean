import Pompeius.Lib.Regex
import Pompeius.Model.UIKit

/-!
# The password check (`Utilities.swift`)

`isPasswordValid` hands one pattern to an `NSPredicate` with `MATCHES`, which
asks ICU for a match of the whole string. The pattern is written out below
construct by construct, in the order it is spelled in the source:

`^(?=.*[a-z])(?=.*[$@$#!%*?&])[A-Za-z\d$@$#!%*?&]{8,}`

ICU's `.` stops at the line terminators U+000A to U+000D, U+0085, U+2028 and
U+2029, and its `\d` is any character of general category Nd; the table is the
one of Unicode 13, each entry the first of ten consecutive digits.
-/

namespace Pompeius

def decimalDigitZeros : List Nat :=
  [0x30, 0x660, 0x6F0, 0x7C0, 0x966, 0x9E6, 0xA66, 0xAE6, 0xB66, 0xBE6, 0xC66,
   0xCE6, 0xD66, 0xDE6, 0xE50, 0xED0, 0xF20, 0x1040, 0x1090, 0x17E0, 0x1810,
   0x1946, 0x19D0, 0x1A80, 0x1A90, 0x1B50, 0x1BB0, 0x1C40, 0x1C50, 0xA620,
   0xA8D0, 0xA900, 0xA9D0, 0xA9F0, 0xAA50, 0xABF0, 0xFF10, 0x104A0, 0x10D30,
   0x11066, 0x110F0, 0x11136, 0x111D0, 0x112F0, 0x11450, 0x114D0, 0x11650,
   0x116C0, 0x11730, 0x118E0, 0x11950, 0x11C50, 0x11D50, 0x11DA0, 0x16A60,
   0x16B50, 0x1D7CE, 0x1D7D8, 0x1D7E2, 0x1D7EC, 0x1D7F6, 0x1E140, 0x1E2F0,
   0x1E950, 0x1FBF0]

def isDecimalDigit (c : Char) : Bool :=
  decimalDigitZeros.any fun z => z ≤ c.toNat && c.toNat ≤ z + 9

def isLineTerminator (c : Char) : Bool :=
  (0x0A ≤ c.toNat && c.toNat ≤ 0x0D) || [0x85, 0x2028, 0x2029].contains c.toNat

def isLowercaseASCII (c : Char) : Bool := 'a' ≤ c && c ≤ 'z'

def isLetterASCII (c : Char) : Bool :=
  ('A' ≤ c && c ≤ 'Z') || isLowercaseASCII c

/-- `[$@$#!%*?&]`. -/
def isSpecialCharacter (c : Char) : Bool :=
  ['$', '@', '$', '#', '!', '%', '*', '?', '&'].contains c

namespace Utilities

open Lib

def passwordPattern : Regex :=
  let dot := Regex.cls fun c => !isLineTerminator c
  .seq .bol <|
  .seq (.look (.seq (.rep 0 dot) (.cls isLowercaseASCII))) <|
  .seq (.look (.seq (.rep 0 dot) (.cls isSpecialCharacter))) <|
  .rep 8 (.cls fun c => isLetterASCII c || isDecimalDigit c || isSpecialCharacter c)

def isPasswordValid (password : String) : Bool :=
  passwordPattern.fullMatch password.toList

end Utilities

end Pompeius
