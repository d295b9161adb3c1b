import GhostApi.Policy.CredentialGlobs
import GhostApi.Security.Secrets

/-!
# Texts of an evidence report

The report cuts texts by code units, so a text of the report is a list of code
units and may end in half of a surrogate pair. The patterns of the masking
match code units too: a surrogate is a character of its own for them, neither
a space nor a letter.
-/

namespace GhostApi.Evidence

open Js
open Policy (CodeUnit JsString units codePoints isHighSurrogate isLowSurrogate)
open Security (sanitizeChars)

def isSurrogate (unit : CodeUnit) : Bool := isHighSurrogate unit || isLowSurrogate unit

/-- The character that stands for a code unit; a surrogate is moved to a private plane. -/
def unitChar (unit : CodeUnit) : Char := Char.ofNat (if isSurrogate unit then 0x100000 + unit.toNat else unit.toNat)

def charUnit (c : Char) : CodeUnit := UInt16.ofNat c.toNat

def sanitizeSecretString (value : JsString) : JsString := (sanitizeChars (value.map unitChar)).map charUnit

/-- replace(/[\r\n\t]/g, " ") -/
def blankUnit (unit : CodeUnit) : CodeUnit := if unit = 13 ∨ unit = 10 ∨ unit = 9 then 32 else unit

def limitText (value : JsString) : JsString :=
  let sanitized := (sanitizeSecretString value).map blankUnit
  if 2000 < sanitized.length then sanitized.take 2000 ++ units "[truncated]" else sanitized

def readString (value : Option JsString) : Option JsString := match value with
  | some text => if text.any fun unit => !isSpace (unitChar unit) then some (limitText (sanitizeSecretString text)) else none
  | none => none

def unitLe (a b : JsString) : Bool := !b.lex a

/-- Array.sort on texts. -/
def sortTexts (texts : List JsString) : List JsString := texts.mergeSort unitLe

def uniqueSorted (values : List JsString) : List JsString := sortTexts (values.map limitText).eraseDups

/-! ## Texts as paths -/

/-- A code point in UTF-8; half a pair is written as the replacement character. -/
def scalar : JsString → Char
  | [high, low] => Char.ofNat (0x10000 + (high.toNat - 0xd800) * 0x400 + (low.toNat - 0xdc00))
  | [unit] => if isSurrogate unit then '\ufffd' else Char.ofNat unit.toNat
  | _ => '\ufffd'

def pathText (value : JsString) : String := String.ofList ((codePoints value).map scalar)

end GhostApi.Evidence
