import GhostApi.Evidence.Text
import GhostApi.Scenarios.Bundle

/-!
# Paths of an evidence report

A path is masked and its query is cut to names and values. The value of a
query name that is sensitive once it is decoded is hidden.
-/

namespace GhostApi.Evidence

open Js
open Policy (CodeUnit JsString units)

/-! ## decodeURIComponent -/

def percent : CodeUnit := 37

def hexOf (unit : CodeUnit) : Option Nat :=
  if 48 ≤ unit.toNat ∧ unit.toNat ≤ 57 then some (unit.toNat - 48)
  else if 65 ≤ unit.toNat ∧ unit.toNat ≤ 70 then some (unit.toNat - 55)
  else if 97 ≤ unit.toNat ∧ unit.toNat ≤ 102 then some (unit.toNat - 87) else none

def percentByte : JsString → Option (Nat × JsString)
  | mark :: high :: low :: rest => do
    let h ← hexOf high
    let l ← hexOf low
    if mark = percent then some (16 * h + l, rest) else none
  | _ => none

def continuation : Nat → Nat → JsString → Option (Nat × JsString)
  | 0, value, text => some (value, text)
  | count + 1, value, text => do
    let (byte, rest) ← percentByte text
    if 0x80 ≤ byte ∧ byte < 0xc0 then continuation count (64 * value + (byte - 0x80)) rest else none

/-- The number of bytes after the first one, what the first one contributes, and the least value of that length. -/
def leadByte (byte : Nat) : Option (Nat × Nat × Nat) :=
  if byte < 0x80 then some (0, byte, 0) else if 0xc0 ≤ byte ∧ byte < 0xe0 then some (1, byte - 0xc0, 0x80)
  else if 0xe0 ≤ byte ∧ byte < 0xf0 then some (2, byte - 0xe0, 0x800)
  else if 0xf0 ≤ byte ∧ byte < 0xf8 then some (3, byte - 0xf0, 0x10000) else none

def escapedPoint (text : JsString) : Option (JsString × JsString) := do
  let (first, rest) ← percentByte text
  let (count, start, least) ← leadByte first
  let (value, rest) ← continuation count start rest
  if least ≤ value ∧ value.isValidChar then some ((Json.utf16 (Char.ofNat value)).map UInt16.ofNat, rest) else none

def decodeGo : Nat → JsString → Option JsString
  | _, [] => some []
  | 0, _ :: _ => none
  | fuel + 1, unit :: rest =>
    if unit = percent then do
      let (point, rest) ← escapedPoint (unit :: rest)
      (decodeGo fuel rest).map (point ++ ·)
    else (decodeGo fuel rest).map (unit :: ·)

def decodeURIComponent (text : JsString) : Option JsString := decodeGo text.length text

def decodeURIComponentSafe (value : JsString) : JsString := (decodeURIComponent value).getD value

/-! ## sanitizePath -/

def SENSITIVE_QUERY_KEYS : List String :=
  ["api_key", "apikey", "access_token", "refresh_token", "token", "secret", "key", "client_secret", "password", "authorization",
   "cookie"]

/-- The letters of the sensitive names are ASCII, and so is the letter that the Kelvin sign is lowered to. -/
def lowerUnit (unit : CodeUnit) : CodeUnit :=
  if 65 ≤ unit.toNat ∧ unit.toNat ≤ 90 then unit + 32 else if unit.toNat = 0x212a then 107 else unit

def isSensitive (key : JsString) : Bool :=
  (SENSITIVE_QUERY_KEYS.map units).contains ((decodeURIComponentSafe key).map lowerUnit)

def questionMark : CodeUnit := 63

def ampersand : CodeUnit := 38

def equalsSign : CodeUnit := 61

/-- const [left, right = ""] = text.split(separator, 2) -/
def splitTwo (separator : CodeUnit) (text : JsString) : JsString × JsString :=
  match text.splitOn separator with
  | left :: right :: _ => (left, right)
  | [left] => (left, [])
  | [] => ([], [])

def sanitizeParam (part : JsString) : JsString :=
  let (key, value) := splitTwo equalsSign part
  key ++ equalsSign :: (if isSensitive key then units "***" else sanitizeSecretString value)

def sanitizePath (path : JsString) : JsString :=
  let (pathname, query) := splitTwo questionMark (sanitizeSecretString path)
  if query = [] then limitText pathname
  else limitText (pathname ++ questionMark :: [ampersand].intercalate ((query.splitOn ampersand).map sanitizeParam))

example : sanitizePath (units "/a?%4BEY=1&b=2&c") = units "/a?%4BEY=***&b=2&c=" := by decide +kernel

end GhostApi.Evidence
