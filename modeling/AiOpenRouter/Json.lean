/-
JSON values, as the converters see them through `serde_json::Value`.

Integers keep their value; a float keeps its text, since no converter
computes with it.  Object fields are a list of pairs with distinct keys, and
the accessors below are the `Value` methods the source calls (`get`,
`as_str`, `as_i64`, `as_array`, `pointer`).

Parsing and printing belong to `serde_json`, a third-party crate: they are
fields of `Env`, next to the random v4 uuids.
-/
import Mathlib.Data.Nat.Notation
import Mathlib.Data.Int.Notation
import Mathlib.Data.List.Sort

namespace AiOpenRouter

/-- A JSON number: an integer, or a float kept as its text. -/
inductive JsonNumber where
  | int (n : ℤ)
  | float (text : String)
  deriving DecidableEq

/-- `serde_json::Value`. -/
inductive Json where
  | null
  | bool (b : Bool)
  | num (n : JsonNumber)
  | str (s : String)
  | arr (items : List Json)
  | obj (fields : List (String × Json))

namespace Json

/-- An integer literal. -/
def int (n : ℤ) : Json := .num (.int n)

/-- `Value::get` with a key. -/
def get : Json → String → Option Json
  | .obj fields, key => fields.lookup key
  | _, _ => none

/-- `Value::as_str`. -/
def asStr : Json → Option String
  | .str s => some s
  | _ => none

/-- `Value::as_i64`: an integer outside the `i64` range is a `u64`, and no `i64`. -/
def asI64 : Json → Option ℤ
  | .num (.int n) => if -9223372036854775808 ≤ n ∧ n < 9223372036854775808 then some n else none
  | _ => none

/-- `Value::as_u64`. -/
def asU64 : Json → Option ℕ
  | .num (.int n) => if 0 ≤ n ∧ n ≤ 18446744073709551615 then some n.toNat else none
  | _ => none

/-- `Value::as_array`. -/
def asArray : Json → Option (List Json)
  | .arr items => some items
  | _ => none

/-- `value.get(key).and_then(|v| v.as_str())`. -/
def getStr (data : Json) (key : String) : Option String :=
  (data.get key).bind asStr

/-- `value.get(key).and_then(|v| v.as_i64())`. -/
def getI64 (data : Json) (key : String) : Option ℤ :=
  (data.get key).bind asI64

/-- `Value::pointer` along object keys. -/
def pointer (data : Json) : List String → Option Json
  | [] => some data
  | key :: path => (data.get key).bind fun v => v.pointer path

/-- `Map::insert`: replaces the value of a key the map has, adds the pair otherwise. -/
def insertField (fields : List (String × Json)) (key : String) (value : Json) :
    List (String × Json) :=
  if fields.any (·.1 = key) then
    fields.map fun field => if field.1 = key then (key, value) else field
  else fields ++ [(key, value)]

/-! ### Compact printing -/

/-- One character of a JSON string, escaped as `serde_json` escapes it. -/
def escapeChar (c : Char) : List Char :=
  if c = '"' then ['\\', '"']
  else if c = '\\' then ['\\', '\\']
  else if c.toNat = 8 then ['\\', 'b']
  else if c.toNat = 9 then ['\\', 't']
  else if c.toNat = 10 then ['\\', 'n']
  else if c.toNat = 12 then ['\\', 'f']
  else if c.toNat = 13 then ['\\', 'r']
  else if c.toNat < 32 then
    ['\\', 'u', '0', '0', Nat.digitChar (c.toNat / 16), Nat.digitChar (c.toNat % 16)]
  else [c]

def quote (s : String) : String :=
  "\"" ++ String.ofList (s.toList.flatMap escapeChar) ++ "\""

mutual

/-- `serde_json::to_string`: no blanks, the fields of an object in key order. -/
def compact : Json → String
  | .null => "null"
  | .bool true => "true"
  | .bool false => "false"
  | .num (.int n) => toString n
  | .num (.float text) => text
  | .str s => quote s
  | .arr items => "[" ++ ",".intercalate (compactItems items) ++ "]"
  | .obj fields =>
    let sorted := (compactFields fields).insertionSort (fun a b => a.1 ≤ b.1)
    "\x7b" ++ ",".intercalate (sorted.map fun field => quote field.1 ++ ":" ++ field.2) ++ "\x7d"

def compactItems : List Json → List String
  | [] => []
  | item :: items => item.compact :: compactItems items

def compactFields : List (String × Json) → List (String × String)
  | [] => []
  | (key, value) :: fields => (key, value.compact) :: compactFields fields

end

end Json

/-- What the converters take from outside the repository: `serde_json` parsing
and printing, the text of serde's error for a JSON text that is no chat chunk,
and the stream of random uuids. -/
structure Env where
  fromStr : String → Except String Json
  toStr : Json → String
  chunkError : String → String
  uuidV4 : ℕ → String

/-- An environment that parses the texts of the listed values only: enough to run a
converter on concrete inputs. -/
def Env.ofValues (values : List Json) : Env where
  fromStr text :=
    match values.find? fun value => value.compact == text with
    | some value => .ok value
    | none => .error "expected value at line 1 column 1"
  toStr := Json.compact
  chunkError _ := "missing field"
  uuidV4 n := toString n

theorem toOption_eq_some_iff {ε α : Type} {result : Except ε α} {a : α} :
    result.toOption = some a ↔ result = .ok a := by
  cases result <;> simp [Except.toOption]

end AiOpenRouter
