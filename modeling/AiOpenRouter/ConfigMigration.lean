/-
Configuration files of older versions (`migrate_config`).

A file without a version is of version 1; each step leads to the next version, and
the current version is written last, whatever the steps wrote.

* `migrateSteps` is the loop;
* `migrateConfig_of_current`: a file of the current version stays as it is.
-/
import AiOpenRouter.ConfigNormalization
import AiOpenRouter.Requests

namespace AiOpenRouter

/-! ### Reading and changing values -/

/-- `map.entry(key).or_insert(value)`. -/
def entryOrInsert (fields : List (String × Json)) (key : String) (value : Json) :
    List (String × Json) :=
  if (fields.lookup key).isSome then fields else Json.insertField fields key value

def changeObject (fields : List (String × Json)) (key : String)
    (change : List (String × Json) → List (String × Json)) : List (String × Json) :=
  match fields.lookup key with
  | none => Json.insertField fields key (.obj (change []))
  | some (.obj inner) => Json.insertField fields key (.obj (change inner))
  | some _ => fields

def changeArray (fields : List (String × Json)) (key : String)
    (change : List Json → List Json) : List (String × Json) :=
  match fields.lookup key with
  | some (.arr items) => Json.insertField fields key (.arr (change items))
  | _ => fields

/-- `obj.get(key).and_then(Value::as_str).unwrap_or(default)`. -/
def strOr (fields : List (String × Json)) (key default : String) : String :=
  ((fields.lookup key).bind Json.asStr).getD default

/-! ### The steps -/

/-- `ensure_object_root`: the fields of an object, and none of anything else. -/
def ensureObjectRoot : Json → List (String × Json)
  | .obj fields => fields
  | _ => []

/-- `detect_config_version`. -/
def detectConfigVersion (root : List (String × Json)) : ℕ :=
  (((root.lookup "configVersion").bind Json.asU64).filter (· ≤ 4294967295)).getD 1

/-- `migrate_v1_to_v2`. -/
def migrateV1ToV2 (root : List (String × Json)) : List (String × Json) :=
  let locale := ((((root.lookup "ui").bind fun ui => ui.get "locale").bind Json.asStr).getD "en-US")
  let defaultLocaleMode := if locale = "zh-CN" then "manual" else "auto"
  let root := changeObject root "ui" fun ui =>
    entryOrInsert ui "localeMode" (.str defaultLocaleMode)
  let root := changeObject root "remoteGit" fun remote =>
    let hasRemote := trimmed (strOr remote "repoUrl" "") ≠ "" ||
        trimmed (strOr remote "token" "") ≠ ""
    let enabled := entryOrInsert remote "enabled" (.bool hasRemote)
    if trimmed (strOr enabled "branch" "") = "" then
      Json.insertField enabled "branch" (.str "main")
    else enabled
  Json.insertField root "configVersion" (.int 2)

/-- `migrate_v2_to_v3`. -/
def migrateV2ToV3 (root : List (String × Json)) : List (String × Json) :=
  let root := changeObject root "ui" fun ui => entryOrInsert ui "autoStartServer" (.bool true)
  Json.insertField root "configVersion" (.int 3)

/-- `migrate_v3_to_v4`, which writes version 5. -/
def migrateV3ToV4 (root : List (String × Json)) : List (String × Json) :=
  let root := changeObject root "ui" fun ui => entryOrInsert ui "autoUpdateEnabled" (.bool true)
  Json.insertField root "configVersion" (.int 5)

/-- Whether a price is not zero: `as_f64().unwrap_or(0.0) != 0.0`. -/
def isPriced (cost : Json) (key : String) : Bool :=
  match cost.get key with
  | some (.num (.int n)) => n ≠ 0
  | some (.num (.float text)) => !F64.isZero ⟨text⟩
  | _ => false

/-- `is_meaningfully_configured_legacy_cost` of a JSON value. -/
def isMeaningfullyConfiguredLegacyCostJson (cost : Json) : Bool :=
  match cost with
  | .obj _ =>
    ((cost.get "enabled").bind Json.asBool).getD false || isPriced cost "inputPricePerM"
      || isPriced cost "outputPricePerM" || isPriced cost "cacheInputPricePerM"
      || isPriced cost "cacheOutputPricePerM" || (cost.getStr "currency").getD "USD" ≠ "USD"
      || (cost.get "template").any fun template => !template.isNull
  | _ => false

/-- `migrate_legacy_provider_cost`. -/
def migrateLegacyProviderCost (provider : Json) : Json :=
  match provider with
  | .obj fields =>
    match fields.lookup "cost", fields.lookup "models" with
    | some cost, some (.arr models) =>
      let declaredModels := ((models.filterMap Json.asStr).map trimmed).filter (· ≠ "")
      if isMeaningfullyConfiguredLegacyCostJson cost ∧ declaredModels ≠ [] ∧
          (fields.lookup "modelCosts").isNone then
        .obj (Json.insertField fields "modelCosts"
          (.obj (declaredModels.foldl (fun costs model => entryOrInsert costs model cost) [])))
      else provider
    | _, _ => provider
  | _ => provider

/-- `migrate_v4_to_v5`, which writes version 4. -/
def migrateV4ToV5 (root : List (String × Json)) : List (String × Json) :=
  let root := changeArray root "groups" fun groups =>
    groups.filter fun group =>
      (group.get "routingTable").isSome || (group.get "routing_table").isSome
  let root := changeArray root "providers" fun providers =>
    (providers.map migrateLegacyProviderCost).filter fun provider => (provider.get "models").isSome
  let root := changeArray root "groups" fun groups => groups.map fun group =>
    match group with
    | .obj fields =>
      .obj (changeArray fields "providers" fun providers => providers.map migrateLegacyProviderCost)
    | other => other
  Json.insertField root "configVersion" (.int 4)

def migrator : ℕ → Option (List (String × Json) → List (String × Json))
  | 1 => some migrateV1ToV2
  | 2 => some migrateV2ToV3
  | 3 => some migrateV3ToV4
  | 4 => some migrateV4ToV5
  | _ => none

def migrateSteps : ℕ → ℕ → List (String × Json) → Except String (List (String × Json))
  | 0, _, root => .ok root
  | left + 1, version, root =>
    match migrator version with
    | some step => migrateSteps left (version + 1) (step root)
    | none =>
      .error ("missing migrator for configVersion " ++ toString version ++ " -> " ++
        toString (version + 1))

/-- `migrate_config`. -/
def migrateConfig (input : Json) : Except String Json :=
  let root := ensureObjectRoot input
  let version := detectConfigVersion root
  if currentConfigVersion.toNat < version then
    .error ("configVersion " ++ toString version ++ " is newer than supported version " ++
      toString currentConfigVersion)
  else
    (migrateSteps (currentConfigVersion.toNat - version) version root).map fun root =>
      .obj (Json.insertField root "configVersion" (.int currentConfigVersion.toNat))

/-! ### The current version -/

theorem insertField_of_lookup {fields : List (String × Json)} {key : String} {value : Json}
    (hnodup : (fields.map Prod.fst).Nodup) (h : fields.lookup key = some value) :
    Json.insertField fields key value = fields := by
  let m : HashMap Json := ⟨fields, hnodup⟩
  have hmem : (key, value) ∈ m.entries := HashMap.get_eq_some_iff.1 h
  have hany : (fields.any fun field => decide (field.1 = key)) = true :=
    List.any_eq_true.2 ⟨_, hmem, decide_eq_true rfl⟩
  rw [Json.insertField, if_pos hany]
  refine (List.map_congr_left fun field hfield => ?_).trans (List.map_id _)
  by_cases hkey : field.1 = key
  · have hfound : fields.lookup field.1 = some field.2 :=
      HashMap.get_eq_some_iff.2 (show (field.1, field.2) ∈ m.entries from hfield)
    rw [hkey, h, Option.some_inj] at hfound
    rw [if_pos hkey, hfound, ← hkey]
    rfl
  · rw [if_neg hkey]
    rfl

/-- **A file of the current version stays as it is.** -/
theorem migrateConfig_of_current {fields : List (String × Json)}
    (hnodup : (fields.map Prod.fst).Nodup)
    (h : fields.lookup "configVersion" = some (.int currentConfigVersion.toNat)) :
    migrateConfig (.obj fields) = .ok (.obj fields) := by
  have hversion : detectConfigVersion fields = currentConfigVersion.toNat := by
    rw [detectConfigVersion, h]
    rfl
  have hroot : ensureObjectRoot (.obj fields) = fields := rfl
  unfold migrateConfig
  dsimp only
  rw [hroot, hversion, if_neg (lt_irrefl _), Nat.sub_self, migrateSteps]
  show Except.ok (Json.obj (Json.insertField fields "configVersion" _)) = _
  rw [insertField_of_lookup hnodup h]

end AiOpenRouter
