/-
Reading JSON text back (`serde_json::from_str`), and the readers that serde
derives for a struct whose fields have defaults.

A number that was printed as a float is read by a best-effort algorithm, so that
it may come back as another number: `ReadEnv.readFloat` is that reading, and
`ReadEnv.reread` what a printed value comes back as.

* `mapFloats_eq_self_iff`: a value comes back as it was exactly when each of its
  floats does;
* `reread_eq_self` is the case of a value all of whose floats do.
-/
import AiOpenRouter.ChatChunk
import AiOpenRouter.HashMaps

namespace AiOpenRouter

/-! ### The floats of a value -/

namespace Json

mutual

def floats : Json → List String
  | .num (.float text) => [text]
  | .arr items => floatsItems items
  | .obj fields => floatsFields fields
  | _ => []

def floatsItems : List Json → List String
  | [] => []
  | item :: items => item.floats ++ floatsItems items

def floatsFields : List (String × Json) → List String
  | [] => []
  | (_, value) :: fields => value.floats ++ floatsFields fields

end

mutual

def mapFloats (f : String → String) : Json → Json
  | .num (.float text) => .num (.float (f text))
  | .arr items => .arr (mapFloatsItems f items)
  | .obj fields => .obj (mapFloatsFields f fields)
  | value => value

def mapFloatsItems (f : String → String) : List Json → List Json
  | [] => []
  | item :: items => item.mapFloats f :: mapFloatsItems f items

def mapFloatsFields (f : String → String) : List (String × Json) → List (String × Json)
  | [] => []
  | (key, value) :: fields => (key, value.mapFloats f) :: mapFloatsFields f fields

end

theorem floatsItems_eq (items : List Json) : floatsItems items = items.flatMap floats := by
  induction items with
  | nil => rfl
  | cons item items ih => rw [floatsItems, ih, List.flatMap_cons]

theorem floatsFields_eq (fields : List (String × Json)) :
    floatsFields fields = fields.flatMap fun field => field.2.floats := by
  induction fields with
  | nil => rfl
  | cons field fields ih => rw [floatsFields, ih, List.flatMap_cons]

theorem mapFloatsItems_eq (f : String → String) (items : List Json) :
    mapFloatsItems f items = items.map (mapFloats f) := by
  induction items with
  | nil => rfl
  | cons item items ih => rw [mapFloatsItems, ih, List.map_cons]

theorem mapFloatsFields_eq (f : String → String) (fields : List (String × Json)) :
    mapFloatsFields f fields = fields.map fun field => (field.1, field.2.mapFloats f) := by
  induction fields with
  | nil => rfl
  | cons field fields ih => rw [mapFloatsFields, ih, List.map_cons]

mutual

/-- **A value stays the same exactly when its floats do.** -/
theorem mapFloats_eq_self_iff (f : String → String) : ∀ value : Json,
    value.mapFloats f = value ↔ ∀ text ∈ value.floats, f text = text
  | .null => by simp [mapFloats, floats]
  | .bool _ => by simp [mapFloats, floats]
  | .num (.int _) => by simp [mapFloats, floats]
  | .num (.float text) => by simp [mapFloats, floats]
  | .str _ => by simp [mapFloats, floats]
  | .arr items => by rw [mapFloats, floats, Json.arr.injEq, mapFloatsItems_eq_self_iff f items]
  | .obj fields => by rw [mapFloats, floats, Json.obj.injEq, mapFloatsFields_eq_self_iff f fields]

theorem mapFloatsItems_eq_self_iff (f : String → String) : ∀ items : List Json,
    mapFloatsItems f items = items ↔ ∀ text ∈ floatsItems items, f text = text
  | [] => by simp [mapFloatsItems, floatsItems]
  | item :: items => by
    rw [mapFloatsItems, floatsItems, List.cons.injEq, mapFloats_eq_self_iff f item,
      mapFloatsItems_eq_self_iff f items, List.forall_mem_append]

theorem mapFloatsFields_eq_self_iff (f : String → String) : ∀ fields : List (String × Json),
    mapFloatsFields f fields = fields ↔ ∀ text ∈ floatsFields fields, f text = text
  | [] => by simp [mapFloatsFields, floatsFields]
  | (key, value) :: fields => by
    rw [mapFloatsFields, floatsFields, List.cons.injEq, Prod.mk.injEq,
      mapFloats_eq_self_iff f value, mapFloatsFields_eq_self_iff f fields, List.forall_mem_append]
    exact and_congr_left fun _ => ⟨fun h => h.2, fun h => ⟨rfl, h⟩⟩

end

end Json

/-! ### What is read from outside -/

/-- What reading takes from outside: the float that a printed text is read as (none when it is out
of range), the text of an integer read as a float, the iteration order of each hash map that is
built (by its place in the input), and the text of serde's error. -/
structure ReadEnv where
  readFloat : String → Option String
  floatOfInt : ℤ → String
  order : {α : Type} → List ℕ → HashMap α → HashMap α
  order_sameAs : ∀ {α : Type} (place : List ℕ) (m : HashMap α), (order place m).SameAs m
  errorText : Json → String

namespace ReadEnv

/-- An environment that reads every float as it was printed, and keeps the order of maps. -/
def plain : ReadEnv where
  readFloat := some
  floatOfInt n := toString n ++ ".0"
  order _ m := m
  order_sameAs _ m := List.Perm.refl m.entries
  errorText _ := "invalid type"

def floatRead (env : ReadEnv) (text : String) : String := (env.readFloat text).getD text

def reread (env : ReadEnv) (value : Json) : Option Json :=
  if value.floats.all fun text => (env.readFloat text).isSome then
    some (value.mapFloats env.floatRead)
  else none

def ReadsFloats (env : ReadEnv) (value : Json) : Prop :=
  ∀ text ∈ value.floats, env.readFloat text = some text

variable {env : ReadEnv} {value : Json}

theorem reread_eq_self (h : env.ReadsFloats value) : env.reread value = some value := by
  have hread : (value.floats.all fun text => (env.readFloat text).isSome) = true := by
    refine List.all_eq_true.2 fun text hmem => ?_
    rw [h text hmem]
    rfl
  rw [reread, if_pos hread, Option.some_inj, Json.mapFloats_eq_self_iff]
  intro text hmem
  rw [floatRead, h text hmem]
  rfl

theorem reread_eq_some {value' : Json} (h : env.reread value = some value') :
    value' = value.mapFloats env.floatRead ∧
      ∀ text ∈ value.floats, env.readFloat text = some (env.floatRead text) := by
  unfold reread at h
  by_cases hread : (value.floats.all fun text => (env.readFloat text).isSome) = true
  · rw [if_pos hread, Option.some_inj] at h
    refine ⟨h.symm, fun text hmem => ?_⟩
    obtain ⟨text', htext⟩ := Option.isSome_iff_exists.1 (List.all_eq_true.1 hread text hmem)
    rw [floatRead, htext]
    rfl
  · rw [if_neg hread] at h
    cases h

theorem readsFloats_of_floats_eq_nil (h : value.floats = []) : env.ReadsFloats value := by
  intro text hmem
  rw [h] at hmem
  cases hmem

end ReadEnv

/-! ### Derived readers -/

namespace Decode

/-- The values of a struct's fields, each marked with whether it has a default: an array may end
before fields that have one. -/
def structFields (names : List (String × Bool)) : Json → Option (List (Option Json))
  | .obj entries => some (names.map fun name => entries.lookup name.1)
  | .arr items =>
    if items.length ≤ names.length ∧ (names.drop items.length).all (·.2) then
      some (items.map some ++ List.replicate (names.length - items.length) none)
    else none
  | _ => none

def withDefault {α : Type} (default : α) (decode : Option Json → Option α) :
    Option Json → Option α
  | none => some default
  | some value => decode (some value)

/-- A `bool` field. -/
def bool : Option Json → Option Bool
  | some (.bool b) => some b
  | _ => none

/-- A `u16` field. -/
def u16 (value : Option Json) : Option UInt16 :=
  (integer 0 65535 value).map fun n => UInt16.ofNat n.toNat

/-- A `u32` field. -/
def u32 (value : Option Json) : Option UInt32 :=
  (integer 0 4294967295 value).map fun n => UInt32.ofNat n.toNat

/-- The name of a variant without data: its text, or an object of its text and `null`. -/
def unitVariant : Option Json → Option String
  | some (.str name) => some name
  | some (.obj [(name, .null)]) => some name
  | _ => none

/-- A `Vec` field whose items are read by their place. -/
def listAt {α : Type} (decode : ℕ → Option Json → Option α) : Option Json → Option (List α)
  | some (.arr items) => items.zipIdx.mapM fun item => decode item.2 (some item.1)
  | _ => none

/-- A `HashMap<String, _>` field. -/
def hashMap {α : Type} (order : HashMap α → HashMap α) (decode : Option Json → Option α) :
    Option Json → Option (HashMap α)
  | some (.obj fields) =>
    (fields.mapM fun field => (decode (some field.2)).map (Prod.mk field.1)).map fun entries =>
      order (HashMap.ofEntries entries)
  | _ => none

end Decode

end AiOpenRouter
