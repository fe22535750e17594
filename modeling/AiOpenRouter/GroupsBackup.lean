/-
The backup of groups and providers, and its import (`backup.rs`,
`import_groups_payload`).

* `createGroupsBackupPayload` holds the groups, whose providers are embedded, and
  the providers;
* `extractGroupsAndProvidersFromImportPayload` reads a backup, an array of groups, or
  a whole configuration;
* `importConfig` replaces the groups and providers of a configuration.
-/
import AiOpenRouter.ConfigStore

namespace AiOpenRouter

/-! ### The payload -/

/-- `GroupsBackupPayload`. -/
structure GroupsBackupPayload where
  format : String
  version : UInt8
  exportedAt : String
  groups : List Group
  providers : List Rule

/-- `create_groups_backup_payload`, at a time that is printed. -/
def createGroupsBackupPayload (now : String) (groups : List Group) (providers : List Rule) :
    GroupsBackupPayload where
  format := "ai-open-router-groups-backup"
  version := 1
  exportedAt := now
  groups := groups
  providers := providers

/-- The derived serializer: no providers are left out. -/
def GroupsBackupPayload.toJson (payload : GroupsBackupPayload) : Json :=
  .obj ([("format", .str payload.format), ("version", .int payload.version.toNat),
    ("exportedAt", .str payload.exportedAt),
    ("groups", .arr (payload.groups.map Group.toJson))] ++
      if payload.providers.isEmpty then []
      else [("providers", .arr (payload.providers.map Rule.toJson))])

/-! ### Reading a payload -/

/-- `serde_json::from_value` of the groups; their places start with 0. -/
def importedGroups (env : ReadEnv) (what : String) (value : Json) : Except String (List Group) :=
  match Decode.listAt (fun i => Decode.group env [i, 0]) (some value) with
  | some groups => .ok groups
  | none => .error ("Invalid " ++ what ++ ": " ++ env.errorText value)

/-- `serde_json::from_value` of the providers; their places start with 1. -/
def importedProviders (env : ReadEnv) (what : String) (value : Json) : Except String (List Rule) :=
  match Decode.listAt (fun i => Decode.rule env [i, 1]) (some value) with
  | some providers => .ok providers
  | none => .error ("Invalid " ++ what ++ ": " ++ env.errorText value)

def payloadProviders (env : ReadEnv) (input : Json) : Except String (List Rule) :=
  match input.get "providers" with
  | some value => importedProviders env "providers field" value
  | none =>
    match (input.get "config").bind fun config => config.get "providers" with
    | some value => importedProviders env "config.providers field" value
    | none => .ok []

def payloadGroups (env : ReadEnv) (input : Json) : Except String (List Group) :=
  match input.asArray with
  | some items => importedGroups env "groups array" (.arr items)
  | none =>
    match input.get "groups" with
    | some value => importedGroups env "groups field" value
    | none =>
      match (input.get "config").bind fun config => config.get "groups" with
      | some value => importedGroups env "config.groups field" value
      | none => .error "Invalid import JSON: expected a groups array"

/-- `extract_groups_and_providers_from_import_payload`. -/
def extractGroupsAndProvidersFromImportPayload (env : ReadEnv) (input : Json) :
    Except String (List Group × List Rule) := do
  let providers ← payloadProviders env input
  let groups ← payloadGroups env input
  return (groups, providers)

/-! ### The import -/

def allProviders (groups : List Group) : List Rule :=
  (groups.flatMap fun group => group.providers.getD []).foldl
    (fun all provider => if all.any (·.id = provider.id) then all else all ++ [provider]) []

def importConfig (prev : ProxyConfig) (groups : List Group) (providers : List Rule) : ProxyConfig :=
  { prev with
    groups := groups
    providers := if providers.isEmpty then allProviders groups else providers }

/-- `import_groups_payload`, up to `save_config`. -/
def importGroupsPayload (env : RestartEnv) (parsed : Json) (store : ConfigStore) :
    Except String ProxyConfig × ConfigStore :=
  match extractGroupsAndProvidersFromImportPayload env.read parsed with
  | .error message => (.error message, store)
  | .ok (groups, providers) =>
    store.saveConfig env.normalize (importConfig store.config groups providers)

theorem settings_acceptConfig {env : NormalizeEnv} {config accepted : ProxyConfig}
    (h : acceptConfig env config = .ok accepted) : accepted.settings = config.settings := by
  obtain ⟨rfl, -⟩ := acceptConfig_eq_ok_iff.1 h
  rfl

end AiOpenRouter
