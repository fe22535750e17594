/-
TOML documents, as `toml_edit` has them, without their format.

A container of TOML has several forms: a table, an inline table, an array of tables.

* `toFields` is `toml_to_map`, in which a table and an inline table look the same;
* `childTable` and `updateTable` are `ensure_toml_table`, for which they do not.
-/
import AiOpenRouter.JsonPaths

namespace AiOpenRouter

/-- `toml_edit::Value`; a float is none when JSON does not have it. -/
inductive TomlValue where
  | string (s : String)
  | integer (n : ℤ)
  | float (text : Option String)
  | boolean (b : Bool)
  | datetime (text : String)
  | array (items : List TomlValue)
  | inlineTable (entries : List (String × TomlValue))

/-- `toml_edit::Item`. -/
inductive TomlItem where
  | value (v : TomlValue)
  | table (entries : List (String × TomlItem))
  | arrayOfTables (tables : List (List (String × TomlItem)))

/-- `toml_edit::Table`, and the root of a document. -/
abbrev TomlTable : Type := List (String × TomlItem)

namespace TomlValue

mutual

/-- `toml_value_to_value` -/
def toValue : TomlValue → Json
  | .string s => .str s
  | .integer n => .num (.int n)
  | .float (some text) => .num (.float text)
  | .float none => .null
  | .boolean b => .bool b
  | .datetime text => .str text
  | .array items => .arr (toValues items)
  | .inlineTable entries => .obj (toFields entries)

def toValues : List TomlValue → List Json
  | [] => []
  | item :: items => item.toValue :: toValues items

def toFields : List (String × TomlValue) → Json.Fields
  | [] => []
  | (key, value) :: entries => (key, value.toValue) :: toFields entries

end

end TomlValue

namespace TomlItem

mutual

/-- `toml_item_to_value` -/
def toValue : TomlItem → Json
  | .value v => v.toValue
  | .table entries => .obj (toFields entries)
  | .arrayOfTables tables => .arr (toObjects tables)

/-- `toml_to_map` -/
def toFields : List (String × TomlItem) → Json.Fields
  | [] => []
  | (key, item) :: entries => (key, item.toValue) :: toFields entries

def toObjects : List (List (String × TomlItem)) → List Json
  | [] => []
  | entries :: tables => .obj (toFields entries) :: toObjects tables

end

/-- `Item::as_str` -/
def asStr : TomlItem → Option String
  | .value (.string s) => some s
  | _ => none

/-- `Item::as_table` -/
def asTable : TomlItem → Option TomlTable
  | .table entries => some entries
  | _ => none

end TomlItem

namespace TomlTable

def insert (entries : TomlTable) (key : String) (item : TomlItem) : TomlTable :=
  (key, item) :: entries.filter (·.1 ≠ key)

/-- `Table::remove` -/
def remove (entries : TomlTable) (key : String) : TomlTable := entries.filter (·.1 ≠ key)

def childTable (parent : TomlTable) (key : String) : TomlTable :=
  ((parent.lookup key).bind TomlItem.asTable).getD []

/-- `ensure_toml_table`: something is done to the table under a key, and what is there is replaced
when it is no table. -/
def updateTable (parent : TomlTable) (key : String) (f : TomlTable → TomlTable) : TomlTable :=
  insert parent key (.table (f (childTable parent key)))

variable (entries : TomlTable)

theorem lookup_filter_ne {key key' : String} (h : key' ≠ key) :
    (entries.filter (·.1 ≠ key)).lookup key' = entries.lookup key' := by
  induction entries with
  | nil => rfl
  | cons entry entries ih =>
    by_cases hentry : entry.1 = key
    · rw [List.filter_cons_of_neg (by simpa using hentry), ih, List.lookup_cons, hentry,
        beq_false_of_ne h]
    · rw [List.filter_cons_of_pos (by simpa using hentry), List.lookup_cons, List.lookup_cons, ih]

@[simp] theorem lookup_insert (key key' : String) (item : TomlItem) :
    (insert entries key item).lookup key' =
      if key' = key then some item else entries.lookup key' := by
  unfold insert
  by_cases hkey : key' = key
  · rw [if_pos hkey, hkey, List.lookup_cons, beq_self_eq_true]
  · rw [if_neg hkey, List.lookup_cons, beq_false_of_ne hkey]
    exact lookup_filter_ne entries hkey

theorem lookup_toFields (key : String) :
    (TomlItem.toFields entries).lookup key = (entries.lookup key).map TomlItem.toValue := by
  induction entries with
  | nil => rfl
  | cons entry entries ih =>
    rw [TomlItem.toFields, List.lookup_cons, List.lookup_cons, ih]
    by_cases hkey : key = entry.1
    · rw [hkey, beq_self_eq_true]
      rfl
    · rw [beq_false_of_ne hkey]

theorem lookup_toFields_updateTable (parent : TomlTable) (key key' : String)
    (f : TomlTable → TomlTable) :
    (TomlItem.toFields (updateTable parent key f)).lookup key' =
      if key' = key then some (.obj (TomlItem.toFields (f (childTable parent key))))
      else (TomlItem.toFields parent).lookup key' := by
  rw [lookup_toFields, lookup_toFields, updateTable, lookup_insert]
  by_cases hkey : key' = key
  · rw [if_pos hkey, if_pos hkey, Option.map_some, TomlItem.toValue]
  · rw [if_neg hkey, if_neg hkey]

end TomlTable

end AiOpenRouter
