/-
Changing a JSON object in place, and what stays.

* `childObject` and `updateChild` are `ensure_child_object`, before and after the
  change of the child;
* `SameOff` compares two values path by path, but for the paths that were touched;
* `sameOff_obj_iff` takes the comparison one key down.
-/
import AiOpenRouter.JsonReading
import AiOpenRouter.Requests

namespace AiOpenRouter

namespace Json

/-- `Map<String, Value>` -/
abbrev Fields : Type := List (String × Json)

/-- `Value::as_object` -/
def asObject : Json → Option Fields
  | .obj fields => some fields
  | _ => none

/-- `Map::remove` -/
def removeField (fields : Fields) (key : String) : Fields := fields.filter (·.1 ≠ key)

/-- `Map::extend`: the keys of a map differ, so that the order of the entries does not matter. -/
def extendFields (fields patch : Fields) : Fields :=
  patch.foldr (fun field fields => insertField fields field.1 field.2) fields

def childObject (parent : Fields) (key : String) : Fields :=
  ((parent.lookup key).bind asObject).getD []

/-- `ensure_child_object`: something is done to the object under a key, and what is there is
replaced when it is no object. -/
def updateChild (parent : Fields) (key : String) (f : Fields → Fields) : Fields :=
  insertField parent key (.obj (f (childObject parent key)))

@[simp] theorem lookup_updateChild (parent : Fields) (key key' : String) (f : Fields → Fields) :
    (updateChild parent key f).lookup key' =
      if key' = key then some (.obj (f (childObject parent key))) else parent.lookup key' :=
  lookup_insertField parent key key' _

variable (fields : Fields)

@[simp] theorem lookup_removeField (key key' : String) :
    (removeField fields key).lookup key' = if key' = key then none else fields.lookup key' := by
  induction fields with
  | nil =>
    rw [removeField, List.filter_nil, List.lookup_nil, ite_self]
  | cons field fields ih =>
    unfold removeField at ih ⊢
    by_cases hfield : field.1 = key
    · rw [List.filter_cons_of_neg (by simpa using hfield), ih, List.lookup_cons]
      by_cases hkey : key' = key
      · rw [if_pos hkey, if_pos hkey]
      · rw [if_neg hkey, if_neg hkey, hfield, beq_false_of_ne hkey]
    · rw [List.filter_cons_of_pos (by simpa using hfield), List.lookup_cons, List.lookup_cons, ih]
      by_cases hkey : key' = key
      · rw [if_pos hkey, if_pos hkey, hkey, beq_false_of_ne (Ne.symm hfield)]
      · rw [if_neg hkey, if_neg hkey]

@[simp] theorem lookup_extendFields (patch : Fields) (key : String) :
    (extendFields fields patch).lookup key = (patch.lookup key).or (fields.lookup key) := by
  unfold extendFields
  induction patch with
  | nil => rfl
  | cons field patch ih =>
    rw [List.foldr_cons, lookup_insertField, ih, List.lookup_cons]
    by_cases hkey : key = field.1
    · rw [if_pos hkey, hkey, beq_self_eq_true]
      rfl
    · rw [if_neg hkey, beq_false_of_ne hkey]

theorem lookup_mapFloatsFields (f : String → String) (fields : Fields) (key : String) :
    (mapFloatsFields f fields).lookup key = (fields.lookup key).map (mapFloats f) := by
  induction fields with
  | nil => rfl
  | cons field fields ih =>
    rw [mapFloatsFields, List.lookup_cons, List.lookup_cons, ih]
    by_cases hkey : key = field.1
    · rw [hkey, beq_self_eq_true]
      rfl
    · rw [beq_false_of_ne hkey]

/-! ### Values at paths -/

def at? (value : Option Json) (path : List String) : Option Json :=
  value.bind fun v => v.pointer path

@[simp] theorem at?_nil (value : Option Json) : at? value [] = value := by
  cases value <;> rfl

theorem at?_cons (key : String) (path : List String) :
    at? (some (.obj fields)) (key :: path) = at? (fields.lookup key) path := rfl

theorem at?_mapFloats (f : String → String) (value : Option Json) (path : List String) :
    at? (value.map (mapFloats f)) path = (at? value path).map (mapFloats f) := by
  induction path generalizing value with
  | nil => rw [at?_nil, at?_nil]
  | cons key path ih =>
    rcases value with _ | value
    · rfl
    · have hget : (value.mapFloats f).get key = (value.get key).map (mapFloats f) := by
        cases value with
        | obj fields => exact lookup_mapFloatsFields f fields key
        | num n => cases n <;> rfl
        | _ => rfl
      have hstep : ∀ v : Json, at? (some v) (key :: path) = at? (v.get key) path := fun _ => rfl
      rw [Option.map_some, hstep, hget, ih, hstep]

theorem at?_childObject (parent : Fields) (key key' : String) (path : List String) :
    at? (some (.obj (childObject parent key))) (key' :: path) =
      at? (parent.lookup key) (key' :: path) := by
  unfold childObject
  rcases parent.lookup key with _ | value
  · rfl
  · cases value <;> rfl

def leaf : Json → Json
  | .obj _ => .obj []
  | value => value

theorem leaf_of_asObject {value : Json} (h : value.asObject = none) : value.leaf = value := by
  cases value with
  | obj fields => cases h
  | _ => rfl

def Off (touched : List (List String)) (path : List String) : Prop :=
  ∀ t ∈ touched, ¬ path <+: t ∧ ¬ t <+: path

def SameOff (touched : List (List String)) (value value' : Option Json) : Prop :=
  ∀ path, Off touched path → (at? value' path).map leaf = (at? value path).map leaf

def under (key : String) (touched : List (List String)) : List (List String) :=
  touched.filterMap fun t => if t.head? = some key then some t.tail else none

section Comparison

variable {touched : List (List String)} {value value' : Option Json}

theorem SameOff.refl (touched : List (List String)) (value : Option Json) :
    SameOff touched value value := fun _ _ => rfl

theorem SameOff.asStr_at? (h : SameOff [] value value') (path : List String) :
    (at? value' path).bind asStr = (at? value path).bind asStr := by
  have hleaf : ∀ v : Option Json, v.bind asStr = (v.map leaf).bind asStr := by
    intro v
    rcases v with _ | v
    · rfl
    · cases v <;> rfl
  rw [hleaf, hleaf (at? value path), h path (fun _ ht => nomatch ht)]

variable {path : List String}

theorem off_cons_iff (htouched : [] ∉ touched) {key : String} :
    Off touched (key :: path) ↔ Off (under key touched) path := by
  unfold Off under
  constructor
  · intro h t ht
    obtain ⟨t', ht', hhead⟩ := List.mem_filterMap.1 ht
    split_ifs at hhead with hkey
    cases hhead
    obtain ⟨rest, rfl⟩ := List.head?_eq_some_iff.1 hkey
    simpa using h _ ht'
  · intro h t ht
    cases t with
    | nil => exact absurd ht htouched
    | cons key' rest =>
      by_cases hkey : key' = key
      · subst hkey
        have := h rest (List.mem_filterMap.2 ⟨key' :: rest, ht, if_pos rfl⟩)
        simpa using this
      · constructor
        · intro hprefix
          exact hkey (List.cons_prefix_cons.1 hprefix).1.symm
        · intro hprefix
          exact hkey (List.cons_prefix_cons.1 hprefix).1

/-- **Two objects are compared key by key.** -/
theorem sameOff_obj_iff (htouched : [] ∉ touched) {fields fields' : Fields} :
    SameOff touched (some (.obj fields)) (some (.obj fields')) ↔
      ∀ key, SameOff (under key touched) (fields.lookup key) (fields'.lookup key) := by
  constructor
  · intro h key path hpath
    exact h (key :: path) ((off_cons_iff htouched).2 hpath)
  · intro h path hpath
    cases path with
    | nil => rfl
    | cons key path => exact h key path ((off_cons_iff htouched).1 hpath)

theorem sameOff_of_mem (htouched : [] ∈ touched) : SameOff touched value value' :=
  fun _ hpath => absurd List.nil_prefix (hpath [] htouched).2

theorem sameOff_childObject_iff (htouched : touched ≠ []) {parent : Fields} {key : String} :
    SameOff touched (parent.lookup key) value' ↔
      SameOff touched (some (.obj (childObject parent key))) value' := by
  have hat : ∀ path, Off touched path →
      at? (parent.lookup key) path = at? (some (.obj (childObject parent key))) path := by
    intro path hpath
    cases path with
    | nil =>
      obtain ⟨t, ht⟩ := List.exists_mem_of_ne_nil touched htouched
      exact absurd List.nil_prefix (hpath t ht).1
    | cons key' path => exact (at?_childObject parent key key' path).symm
  constructor
  · intro h path hpath
    rw [h path hpath, hat path hpath]
  · intro h path hpath
    rw [h path hpath, hat path hpath]

theorem sameOff_nil_none : SameOff [] value none ↔ value = none := by
  constructor
  · intro h
    have := h [] (fun _ ht => nomatch ht)
    rw [at?_nil, at?_nil, Option.map_none, eq_comm, Option.map_eq_none_iff] at this
    exact this
  · rintro rfl
    exact SameOff.refl [] none

theorem SameOff.symm (h : SameOff touched value value') : SameOff touched value' value :=
  fun path hpath => (h path hpath).symm

theorem SameOff.trans {value'' : Option Json} (h : SameOff touched value value')
    (h' : SameOff touched value' value'') : SameOff touched value value'' :=
  fun path hpath => (h' path hpath).trans (h path hpath)

theorem leaf_mapFloats (f : String → String) (v : Json) :
    (v.mapFloats f).leaf = v.leaf.mapFloats f := by
  cases v with
  | num n => cases n <;> rfl
  | _ => rfl

theorem SameOff.mapFloats (h : SameOff touched value value') (f : String → String) :
    SameOff touched (value.map (Json.mapFloats f)) (value'.map (Json.mapFloats f)) := by
  intro path hpath
  have hleaf : ∀ v : Option Json, (v.map (Json.mapFloats f)).map leaf =
      (v.map leaf).map (Json.mapFloats f) := by
    intro v
    rw [Option.map_map, Option.map_map]
    exact congrArg (Option.map · v) (funext (leaf_mapFloats f))
  rw [at?_mapFloats, at?_mapFloats, hleaf, hleaf, h path hpath]

/-- What is read behind a change is the same when it would be without the change. -/
theorem sameOff_mapFloats_iff (h : SameOff touched value value') (f : String → String) :
    SameOff touched value (value'.map (Json.mapFloats f)) ↔
      SameOff touched value (value.map (Json.mapFloats f)) :=
  ⟨fun h' => h'.trans (h.symm.mapFloats f), fun h' => h'.trans (h.mapFloats f)⟩

theorem SameOff.at?_eq {f : String → String}
    (h : SameOff touched value (value'.map (Json.mapFloats f))) (hpath : Off touched path)
    (hplain : ∀ v, at? value' path = some v → v.asObject = none ∧ v.mapFloats f = v) :
    at? value path = at? value' path := by
  have hat := h path hpath
  rw [at?_mapFloats] at hat
  rcases hwritten : at? value' path with _ | v
  · rw [hwritten] at hat
    exact Option.map_eq_none_iff.1 hat.symm
  · obtain ⟨hobject, hfloats⟩ := hplain v hwritten
    rw [hwritten, Option.map_some, hfloats, Option.map_some, leaf_of_asObject hobject] at hat
    obtain ⟨old, hold, hleaf⟩ := Option.map_eq_some_iff.1 hat.symm
    cases old with
    | obj fields =>
      rw [← hleaf] at hobject
      cases hobject
    | _ => rw [hold, ← hleaf]; rfl

theorem SameOff.exists_obj {f : String → String}
    (h : SameOff touched value (value'.map (Json.mapFloats f))) (hpath : Off touched path)
    {fields : Fields} (hobject : at? value' path = some (.obj fields)) :
    ∃ old, at? value path = some (.obj old) := by
  have hat := h path hpath
  rw [at?_mapFloats, hobject, Option.map_some, Option.map_some] at hat
  obtain ⟨old, hold, hleaf⟩ := Option.map_eq_some_iff.1 hat.symm
  cases old with
  | obj old => exact ⟨old, hold⟩
  | _ => cases hleaf

end Comparison

/-! ### The paths of one value -/

def aliases (path keys : List String) : List (List String) := keys.map fun key => path ++ [key]

section Aliases

variable {path keys : List String} {fields fields' : Fields} {key : String}

theorem aliases_ne_nil (h : keys ≠ []) : aliases path keys ≠ [] := by
  rwa [aliases, Ne, List.map_eq_nil_iff]

theorem nil_notMem_aliases : [] ∉ aliases path keys := by
  intro h
  obtain ⟨key, -, hnil⟩ := List.mem_map.1 h
  exact absurd (List.append_eq_nil_iff.1 hnil).2 (List.cons_ne_nil _ _)

theorem under_aliases_self : under key (aliases (key :: path) keys) = aliases path keys := by
  unfold under aliases
  rw [List.filterMap_map, ← List.filterMap_eq_map]
  refine List.filterMap_congr fun head _ => ?_
  exact if_pos rfl

theorem under_aliases_of_ne {key' : String} (h : key' ≠ key) :
    under key' (aliases (key :: path) keys) = [] := by
  unfold under aliases
  rw [List.filterMap_map, List.filterMap_eq_nil_iff]
  intro head _
  exact if_neg fun hhead => h (Option.some.inj hhead).symm

theorem under_aliases_nil_of_notMem (h : key ∉ keys) : under key (aliases [] keys) = [] := by
  unfold under aliases
  rw [List.filterMap_map, List.filterMap_eq_nil_iff]
  intro head hhead
  refine if_neg fun heq => h ?_
  obtain rfl : head = key := Option.some.inj heq
  exact hhead

theorem nil_mem_under_aliases_nil (h : key ∈ keys) : [] ∈ under key (aliases [] keys) := by
  unfold under aliases
  rw [List.filterMap_map, List.mem_filterMap]
  exact ⟨key, h, if_pos rfl⟩

/-- **One key further on the way.** -/
theorem sameOff_aliases_cons_iff :
    SameOff (aliases (key :: path) keys) (some (.obj fields)) (some (.obj fields')) ↔
      (∀ key', key' ≠ key → SameOff [] (fields.lookup key') (fields'.lookup key')) ∧
        SameOff (aliases path keys) (fields.lookup key) (fields'.lookup key) := by
  rw [sameOff_obj_iff nil_notMem_aliases]
  constructor
  · intro h
    refine ⟨fun key' hkey => ?_, ?_⟩
    · have := h key'
      rwa [under_aliases_of_ne hkey] at this
    · have := h key
      rwa [under_aliases_self] at this
  · rintro ⟨hother, hself⟩ key'
    by_cases hkey : key' = key
    · rw [hkey, under_aliases_self]
      exact hself
    · rw [under_aliases_of_ne hkey]
      exact hother key' hkey

theorem sameOff_aliases_nil_iff :
    SameOff (aliases [] keys) (some (.obj fields)) (some (.obj fields')) ↔
      ∀ key, key ∉ keys → SameOff [] (fields.lookup key) (fields'.lookup key) := by
  rw [sameOff_obj_iff nil_notMem_aliases]
  refine forall_congr' fun key => ?_
  by_cases hkey : key ∈ keys
  · exact iff_of_true (sameOff_of_mem (nil_mem_under_aliases_nil hkey)) fun h => absurd hkey h
  · rw [under_aliases_nil_of_notMem hkey, forall_prop_of_true hkey]

/-- **A change of an object on the way is one of this object.** -/
theorem sameOff_updateChild_iff (h : keys ≠ []) {parent : Fields} {g : Fields → Fields} :
    SameOff (aliases (key :: path) keys) (some (.obj parent))
        (some (.obj (updateChild parent key g))) ↔
      SameOff (aliases path keys) (some (.obj (childObject parent key)))
        (some (.obj (g (childObject parent key)))) := by
  rw [sameOff_aliases_cons_iff, lookup_updateChild, if_pos rfl,
    sameOff_childObject_iff (aliases_ne_nil h)]
  refine and_iff_right fun key' hkey => ?_
  rw [lookup_updateChild, if_neg hkey]
  exact SameOff.refl [] _

theorem sameOff_nil_obj_iff :
    SameOff [] (some (.obj fields)) (some (.obj fields')) ↔
      ∀ key, SameOff [] (fields.lookup key) (fields'.lookup key) :=
  sameOff_obj_iff List.not_mem_nil

theorem sameOff_nil_updateChild {parent child : Fields} {g : Fields → Fields}
    (hchild : parent.lookup key = some (.obj child))
    (h : SameOff [] (some (.obj child)) (some (.obj (g child)))) :
    SameOff [] (some (.obj parent)) (some (.obj (updateChild parent key g))) := by
  rw [sameOff_nil_obj_iff]
  intro key'
  rw [lookup_updateChild]
  by_cases hkey : key' = key
  · rw [if_pos hkey, hkey, hchild, childObject, hchild]
    exact h
  · rw [if_neg hkey]
    exact SameOff.refl [] _

theorem at?_updateChild (parent : Fields) (key : String) (g : Fields → Fields)
    (path : List String) :
    at? (some (.obj (updateChild parent key g))) (key :: path) =
      at? (some (.obj (g (childObject parent key)))) path := by
  rw [at?_cons, lookup_updateChild, if_pos rfl]

theorem off_aliases_cons_iff {path' : List String} :
    Off (aliases (key :: path) keys) (key :: path') ↔
    Off (aliases path keys) path' := by
  rw [off_cons_iff nil_notMem_aliases, under_aliases_self]

theorem off_aliases_nil (h : key ∉ keys) : Off (aliases [] keys) [key] := by
  intro t ht
  obtain ⟨head, hhead, rfl⟩ := List.mem_map.1 ht
  have hne : key ≠ head := by
    rintro rfl
    exact h hhead
  constructor
  · intro hprefix
    exact hne (List.cons_prefix_cons.1 hprefix).1
  · intro hprefix
    exact hne (List.cons_prefix_cons.1 hprefix).1.symm

theorem off_aliases_of_ne {key' : String} (h : key' ≠ key) (path' : List String) :
    Off (aliases (key :: path) keys) (key' :: path') := by
  rw [off_cons_iff nil_notMem_aliases, under_aliases_of_ne h]
  exact fun t ht => nomatch ht

end Aliases

end Json

end AiOpenRouter
