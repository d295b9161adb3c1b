import GhostApi.Js.Text

/-!
# Values and JSON texts

JsValue is what an untyped argument can be: its objects may hold explicit
undefined members. Json is the plain data that the program hashes and writes
to disk. Integers are printed in full; a finite number that is no integer is
known by its printed text only.
-/

namespace Js

structure JsError where
  name : String
  message : String
  code : Option String := none
  deriving DecidableEq

inductive JsNumber
  | integer (z : Int)
  | fraction (text : String)
  | nonFinite
  deriving DecidableEq

inductive JsValue
  | undefined
  | null
  | bool (b : Bool)
  | number (n : JsNumber)
  | string (s : String)
  | array (items : List JsValue)
  | object (fields : List (String × JsValue))

abbrev Fields := List (String × JsValue)

def Fields.get (fields : Fields) (key : String) : JsValue := (fields.lookup key).getD .undefined

def JsValue.isUndefined : JsValue → Bool
  | .undefined => true
  | _ => false

inductive Json
  | null
  | bool (b : Bool)
  | number (z : Int)
  | fraction (text : String)
  | string (s : String)
  | array (items : List Json)
  | object (fields : List (String × Json))

namespace Json

def hexDigit (n : Nat) : Char := "0123456789abcdef".toList.getD n '0'

def escape (c : Char) : List Char :=
  if c == '"' then ['\\', '"'] else if c == '\\' then ['\\', '\\']
  else if c == '\x08' then ['\\', 'b'] else if c == '\x0c' then ['\\', 'f']
  else if c == '\n' then ['\\', 'n'] else if c == '\r' then ['\\', 'r']
  else if c == '\t' then ['\\', 't']
  else if isControl c then ['\\', 'u', '0', '0', hexDigit (c.toNat / 16), hexDigit (c.toNat % 16)]
  else [c]

/-- JSON.stringify on a string. -/
def quote (s : String) : String := "\"" ++ String.ofList (s.toList.flatMap escape) ++ "\""

/-- The UTF-16 code units of a character, the order of Array.sort on strings. -/
def utf16 (c : Char) : List Nat :=
  if c.val < 0x10000 then [c.toNat]
  else [0xd800 + (c.toNat - 0x10000) / 0x400, 0xdc00 + (c.toNat - 0x10000) % 0x400]

def keyLe (a b : String) : Bool := !(b.toList.flatMap utf16).lex (a.toList.flatMap utf16)

def sortKeys (members : List (String × String)) : List (String × String) :=
  members.mergeSort fun a b => keyLe a.1 b.1

def join (separator : String) (parts : List String) : String := separator.intercalate parts

mutual
/-- The canonical text: members in key order, no whitespace. -/
def canonical : Json → String
  | .null => "null"
  | .bool b => if b then "true" else "false"
  | .number z => toString z
  | .fraction text => text
  | .string s => quote s
  | .array items => "[" ++ join "," (canonicalItems items) ++ "]"
  | .object fields => "\x7b" ++ join ","
      ((sortKeys (canonicalFields fields)).map fun member => quote member.1 ++ ":" ++ member.2) ++ "\x7d"

def canonicalItems : List Json → List String
  | [] => []
  | item :: rest => canonical item :: canonicalItems rest

def canonicalFields : List (String × Json) → List (String × String)
  | [] => []
  | (key, value) :: rest => (key, canonical value) :: canonicalFields rest
end

def indentText (depth : Nat) : String := String.ofList (List.replicate (2 * depth) ' ')

mutual
/-- JSON.stringify(value, null, 2) at a given nesting depth. -/
def pretty (depth : Nat) : Json → String
  | .null => "null"
  | .bool b => if b then "true" else "false"
  | .number z => toString z
  | .fraction text => text
  | .string s => quote s
  | .array [] => "[]"
  | .array (item :: rest) => "[\n" ++ join ",\n" (prettyItems (depth + 1) (item :: rest)) ++
      "\n" ++ indentText depth ++ "]"
  | .object [] => "\x7b\x7d"
  | .object (member :: rest) => "\x7b\n" ++ join ",\n" (prettyFields (depth + 1) (member :: rest)) ++
      "\n" ++ indentText depth ++ "\x7d"

def prettyItems (depth : Nat) : List Json → List String
  | [] => []
  | item :: rest => (indentText depth ++ pretty depth item) :: prettyItems depth rest

def prettyFields (depth : Nat) : List (String × Json) → List String
  | [] => []
  | (key, value) :: rest =>
    (indentText depth ++ quote key ++ ": " ++ pretty depth value) :: prettyFields depth rest
end

def fileText (value : Json) : String := pretty 0 value ++ "\n"

/-- An optional member, left out when it is undefined. -/
def optional (key : String) : Option Json → List (String × Json)
  | none => []
  | some value => [(key, value)]

end Json

end Js
