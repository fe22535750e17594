/-
The configuration of OpenClaw, which is spread over several files.

The providers stand in `openclaw.json`, and again in `models.json` of an agent; in
either file they may be at two places.

* `parseOpenclawConfigWithSources` merges the two files;
* `formatOpenclawPrimarySource` sets the provider of `openclaw.json`;
* `syncProvider` sets that of `models.json`.
-/
import AiOpenRouter.AgentConfigs

namespace AiOpenRouter

open Json (Fields)

/-! ### Reading -/

/-- `resolve_openclaw_agent_id_from_config` -/
def resolveOpenclawAgentId (config : Option AgentConfig) : String :=
  (nonBlank (config.bind AgentConfig.agentId)).getD "default"

/-- The object `models.providers`. -/
def nestedProviders (root : Fields) : Option Fields :=
  ((root.lookup "models").bind Json.asObject).bind fun models =>
    (models.lookup "providers").bind Json.asObject

/-- `get_openclaw_providers_object` -/
def getOpenclawProvidersObject (root : Fields) : Option Fields :=
  (nestedProviders root).or ((root.lookup "providers").bind Json.asObject)

/-- `get_openclaw_provider_object` -/
def getOpenclawProviderObject (root : Fields) (providerId : String) : Option Fields :=
  (getOpenclawProvidersObject root).bind fun providers =>
    (providers.lookup providerId).bind Json.asObject

def sortedKeys (fields : Fields) : List String :=
  (fields.map Prod.fst).insertionSort (fun a b => a ≤ b)

def pickProvider (keys : List String) : Option String :=
  if "aor_shared" ∈ keys then some "aor_shared" else keys.find? fun key => trimmed key ≠ ""

/-- `resolve_openclaw_provider_name` -/
def resolveOpenclawProviderName (primaryRoot : Fields) (modelsRoot : Option Fields)
    (config : Option AgentConfig) : String :=
  match nonBlank (config.bind AgentConfig.providerId) with
  | some providerId => providerId
  | none =>
    let picked (root : Fields) : Option String :=
      (getOpenclawProvidersObject root).bind fun providers => pickProvider (sortedKeys providers)
    ((picked primaryRoot).or (modelsRoot.bind picked)).getD "aor_shared"

/-- `parse_string_array` -/
def parseStringArray (value : Option Json) : Option (List String) :=
  let list :=
    match value with
    | some (.arr items) => items.filterMap fun item =>
      (nonBlank item.asStr).or (nonBlank ((item.get "id").bind Json.asStr))
    | some (.str raw) =>
      (raw.toList.splitOn ',').filterMap fun piece => nonBlank (some (String.ofList piece))
    | _ => []
  if list.isEmpty then none else some list

/-- `OpenClawEditorConfig`, and `OpenClawEditorConfigDto`, which has the same fields. -/
structure OpenClawEditorConfig where
  agentId : String
  providerId : String
  primaryModel : Option String
  fallbackModels : List String
  apiFormat : Option String
  baseUrl : Option String
  apiKey : Option String

/-- `openclaw_editor_from_agent_config` -/
def openclawEditorFromAgentConfig (config : AgentConfig) : OpenClawEditorConfig where
  agentId := resolveOpenclawAgentId (some config)
  providerId := (nonBlank config.providerId).getD "aor_shared"
  primaryModel := config.model
  fallbackModels := config.fallbackModels.getD []
  apiFormat := config.apiFormat
  baseUrl := config.url
  apiKey := config.apiToken

/-- `openclaw_editor_to_agent_config` -/
def openclawEditorToAgentConfig (editor : OpenClawEditorConfig) : AgentConfig where
  agentId := some editor.agentId
  providerId := some editor.providerId
  url := editor.baseUrl
  apiToken := editor.apiKey
  apiFormat := editor.apiFormat
  model := editor.primaryModel
  fallbackModels := if editor.fallbackModels.isEmpty then none else some editor.fallbackModels

def firstText (fields : Fields) (keys : List String) : Option String :=
  keys.findSome? fun key => nonBlank (textAt fields key)

/-- The profiles in `auth-profiles.json`. -/
def authProfilesOf (root : Fields) : Fields :=
  ((root.lookup "profiles").bind Json.asObject).getD root

/-- `lookup_openclaw_auth_profile_token` -/
def lookupOpenclawAuthProfileToken (root : Option Fields) (profileId : String) : Option String :=
  if trimmed profileId = "" then none
  else
    root.bind fun root =>
      (((authProfilesOf root).lookup (trimmed profileId)).bind Json.asObject).bind fun profile =>
        firstText profile ["apiKey", "key", "token", "secret"]

/-- `resolve_openclaw_auth_profile_id` -/
def resolveOpenclawAuthProfileId (provider : Fields) : Option String :=
  let auth := ((provider.lookup "auth").bind Json.asObject).bind fun auth =>
    ((auth.lookup "profile").or (auth.lookup "profileId")).bind Json.asStr
  nonBlank ((((textAt provider "authProfile").or (textAt provider "authProfileId")).or
    (textAt provider "profile")).or auth)

/-- `openclaw_auth_profile_exists` -/
def openclawAuthProfileExists (root : Option Fields) (profileId : String) : Bool :=
  if trimmed profileId = "" then false
  else
    match root with
    | none => false
    | some root => ((authProfilesOf root).lookup (trimmed profileId)).isSome

/-- `extract_openclaw_api_token` -/
def extractOpenclawApiToken (provider : Fields) (authProfilesRoot : Option Fields) :
    Option String :=
  (firstText provider ["apiKey", "api_key", "key", "token"]).or
    ((resolveOpenclawAuthProfileId provider).bind
      (lookupOpenclawAuthProfileToken authProfilesRoot))

/-- The provider of both files: what `models.json` says overrides what `openclaw.json` says. -/
def mergedProvider (primaryRoot : Fields) (modelsRoot : Option Fields) (providerId : String) :
    Fields :=
  Json.extendFields ((getOpenclawProviderObject primaryRoot providerId).getD [])
    ((modelsRoot.bind fun root => getOpenclawProviderObject root providerId).getD [])

def providerUrl (provider : Fields) : Option String :=
  ((provider.lookup "baseUrl").or (provider.lookup "baseURL")).bind Json.asStr

/-- `agents.defaults.model` of `openclaw.json`. -/
def modelConfigOf (root : Fields) : Fields :=
  Json.childObject (Json.childObject (Json.childObject root "agents") "defaults") "model"

/-- `parse_openclaw_config_with_sources` -/
def parseOpenclawConfigWithSources (primaryRoot : Fields)
    (modelsRoot authProfilesRoot : Option Fields) (config : Option AgentConfig) : AgentConfig :=
  let providerId := resolveOpenclawProviderName primaryRoot modelsRoot config
  let provider := mergedProvider primaryRoot modelsRoot providerId
  { agentId := some (resolveOpenclawAgentId config)
    providerId := some providerId
    url := providerUrl provider
    apiToken := extractOpenclawApiToken provider authProfilesRoot
    apiFormat := textAt provider "api"
    model := textAt (modelConfigOf primaryRoot) "primary"
    fallbackModels := parseStringArray ((modelConfigOf primaryRoot).lookup "fallbacks") }

/-- `parse_openclaw_editor_config` -/
def parseOpenclawEditorConfig (primaryRoot : Fields) (modelsRoot authProfilesRoot : Option Fields)
    (config : Option AgentConfig) : OpenClawEditorConfig :=
  let parsed := parseOpenclawConfigWithSources primaryRoot modelsRoot authProfilesRoot config
  { agentId := parsed.agentId.getD (resolveOpenclawAgentId config)
    providerId :=
      parsed.providerId.getD (resolveOpenclawProviderName primaryRoot modelsRoot config)
    primaryModel := parsed.model
    fallbackModels := parsed.fallbackModels.getD []
    apiFormat := parsed.apiFormat
    baseUrl := parsed.url
    apiKey := parsed.apiToken }

/-- `validate_openclaw_editor_config` -/
def validateOpenclawEditorConfig (editor : OpenClawEditorConfig) (primaryRoot : Fields)
    (modelsRoot authProfilesRoot : Option Fields) : Except AppError Unit :=
  let providerId := trimmed editor.providerId
  if providerId = "" then .error (.validation "openclaw provider is required")
  else
    match (getOpenclawProviderObject primaryRoot providerId).or
        (modelsRoot.bind fun root => getOpenclawProviderObject root providerId) with
    | none =>
      .error (.validation ("openclaw provider reference not found: " ++ providerId))
    | some provider =>
      match resolveOpenclawAuthProfileId provider with
      | none => .ok ()
      | some profileId =>
        if openclawAuthProfileExists authProfilesRoot profileId then .ok ()
        else
          .error (.validation ("openclaw auth profile reference not found: " ++ profileId))

/-! ### Writing -/

def snapshotApi (editor : OpenClawEditorConfig) : String :=
  (nonBlank editor.apiFormat).getD "openai-responses"

/-- `build_openclaw_provider_snapshot` -/
def buildOpenclawProviderSnapshot (editor : OpenClawEditorConfig) (includeApiKey : Bool) : Fields :=
  let provider := insertText [("api", .str (snapshotApi editor))] "baseUrl"
      (nonBlank editor.baseUrl)
  if includeApiKey then insertText provider "apiKey" (nonBlank editor.apiKey) else provider

/-- The models that `format_openclaw_primary_source` sets. -/
def setDefaultModels (editor : OpenClawEditorConfig) (modelConfig : Fields) : Fields :=
  let modelConfig :=
    match nonBlank editor.primaryModel with
    | some model => Json.insertField modelConfig "primary" (.str model)
    | none => Json.removeField modelConfig "primary"
  if editor.fallbackModels.isEmpty then Json.removeField modelConfig "fallbacks"
  else
    let texts := (editor.fallbackModels.map trimmed).filter (· ≠ "")
    Json.insertField modelConfig "fallbacks" (.arr (texts.map .str))

/-- A change of one of the providers that `ensure_openclaw_primary_provider_map` leads to. -/
def updatePrimaryProvider (root : Fields) (providerId : String) (f : Fields → Fields) : Fields :=
  Json.updateChild root "models" fun models =>
    Json.updateChild models "providers" fun providers => Json.updateChild providers providerId f

/-- `format_openclaw_primary_source` -/
def formatOpenclawPrimarySource (editor : OpenClawEditorConfig) (root : Fields) :
    Except AppError Fields :=
  let providerId := trimmed editor.providerId
  if providerId = "" then .error (.validation "openclaw provider is required")
  else
    let root := updatePrimaryProvider root providerId fun _ =>
      buildOpenclawProviderSnapshot editor false
    .ok (Json.updateChild root "agents" fun agents =>
      Json.updateChild agents "defaults" fun defaults =>
        Json.updateChild defaults "model" (setDefaultModels editor))

/-- Whether `ensure_openclaw_registry_provider_map` leads to the `providers` of the root. -/
def registryAtRoot (root : Fields) : Bool :=
  (root.lookup "providers").isSome || (root.lookup "models").isNone

/-- A change of the map that `ensure_openclaw_registry_provider_map` leads to. -/
def updateRegistry (root : Fields) (f : Fields → Fields) : Fields :=
  if registryAtRoot root then Json.updateChild root "providers" f
  else Json.updateChild root "models" fun models => Json.updateChild models "providers" f

/-- `merge_openclaw_provider` -/
def mergeOpenclawProvider (existingProvider : Option Fields) (providerPatch : Fields) : Fields :=
  let drop (merged : Fields) (key other : String) : Fields :=
    if (providerPatch.lookup key).isSome then Json.removeField merged other else merged
  let merged := existingProvider.getD []
  let merged := drop merged "baseUrl" "baseURL"
  let merged := drop merged "baseURL" "baseUrl"
  let merged := drop merged "apiKey" "api_key"
  let merged := drop merged "api_key" "apiKey"
  Json.extendFields merged providerPatch

/-- The provider that `sync_openclaw_provider_to_models_file` sets. -/
def nextProvider (existingProvider : Option Fields) (providerValue : Fields)
    (preserveExisting : Bool) : Fields :=
  if preserveExisting then mergeOpenclawProvider existingProvider providerValue else providerValue

/-- What `sync_openclaw_provider_to_models_file` sets. -/
def syncProvider (providerId : String) (providerValue : Fields) (preserveExisting : Bool)
    (root : Fields) : Fields :=
  updateRegistry root fun providers =>
    Json.insertField providers providerId (.obj (nextProvider
      ((providers.lookup providerId).bind Json.asObject) providerValue preserveExisting))

/-- `build_openclaw_entry_url` -/
def buildOpenclawEntryUrl (entryUrl : String) : String :=
  let base := Text.trimEndMatches (· = '/') (Text.trim entryUrl.toList)
  if "/v1".toList <:+ base then String.ofList base else String.ofList base ++ "/v1"

/-- What `write_openclaw_config` makes of `openclaw.json`: the editor with the new base URL. -/
def openclawEntryEditor (config : Option AgentConfig) (entryUrl : String) (root : Fields) :
    OpenClawEditorConfig :=
  { parseOpenclawEditorConfig root none none config with
    baseUrl := some (buildOpenclawEntryUrl entryUrl) }

/-- What `write_openclaw_full_config` makes of `openclaw.json`. -/
def setOpenclawConfig (editor : OpenClawEditorConfig) (root : Fields) : Except AppError Fields :=
  (formatOpenclawPrimarySource editor root).map fun root =>
    match nonBlank editor.apiKey with
    | some token =>
      updatePrimaryProvider root editor.providerId fun provider =>
        Json.removeField (Json.insertField provider "apiKey" (.str token)) "api_key"
    | none => root

/-! ### Floats do not matter for the base URL -/

section Floats

variable (f : String → String)

theorem asObject_mapFloats (value : Option Json) :
    (value.map (Json.mapFloats f)).bind Json.asObject =
      (value.bind Json.asObject).map (Json.mapFloatsFields f) := by
  rcases value with _ | value
  · rfl
  · cases value with
    | num n => cases n <;> rfl
    | _ => rfl

theorem asStr_mapFloats (value : Option Json) :
    (value.map (Json.mapFloats f)).bind Json.asStr = value.bind Json.asStr := by
  rcases value with _ | value
  · rfl
  · cases value with
    | num n => cases n <;> rfl
    | _ => rfl

theorem sortedKeys_mapFloats (fields : Fields) :
    sortedKeys (Json.mapFloatsFields f fields) = sortedKeys fields := by
  unfold sortedKeys
  rw [Json.mapFloatsFields_eq, List.map_map]
  rfl

variable (root : Fields)

theorem nestedProviders_mapFloats :
    nestedProviders (Json.mapFloatsFields f root) =
      (nestedProviders root).map (Json.mapFloatsFields f) := by
  unfold nestedProviders
  rw [Json.lookup_mapFloatsFields, asObject_mapFloats]
  rcases (root.lookup "models").bind Json.asObject with _ | models
  · rfl
  · rw [Option.map_some, Option.bind_some, Option.bind_some, Json.lookup_mapFloatsFields,
      asObject_mapFloats]

theorem getOpenclawProvidersObject_mapFloats :
    getOpenclawProvidersObject (Json.mapFloatsFields f root) =
      (getOpenclawProvidersObject root).map (Json.mapFloatsFields f) := by
  unfold getOpenclawProvidersObject
  rw [nestedProviders_mapFloats, Json.lookup_mapFloatsFields, asObject_mapFloats]
  rcases nestedProviders root with _ | providers <;> rfl

theorem getOpenclawProviderObject_mapFloats (providerId : String) :
    getOpenclawProviderObject (Json.mapFloatsFields f root) providerId =
      (getOpenclawProviderObject root providerId).map (Json.mapFloatsFields f) := by
  unfold getOpenclawProviderObject
  rw [getOpenclawProvidersObject_mapFloats]
  rcases getOpenclawProvidersObject root with _ | providers
  · rfl
  · rw [Option.map_some, Option.bind_some, Option.bind_some, Json.lookup_mapFloatsFields,
      asObject_mapFloats]

theorem resolveOpenclawProviderName_mapFloats (primaryRoot modelsRoot : Fields)
    (config : Option AgentConfig) :
    resolveOpenclawProviderName (Json.mapFloatsFields f primaryRoot)
        (some (Json.mapFloatsFields f modelsRoot)) config =
      resolveOpenclawProviderName primaryRoot (some modelsRoot) config := by
  have hpicked : ∀ root : Fields,
      ((getOpenclawProvidersObject (Json.mapFloatsFields f root)).bind fun providers =>
          pickProvider (sortedKeys providers)) =
        (getOpenclawProvidersObject root).bind fun providers =>
          pickProvider (sortedKeys providers) := by
    intro root
    rw [getOpenclawProvidersObject_mapFloats]
    rcases getOpenclawProvidersObject root with _ | providers
    · rfl
    · rw [Option.map_some, Option.bind_some, Option.bind_some, sortedKeys_mapFloats]
  unfold resolveOpenclawProviderName
  simp only [Option.bind_some, hpicked]

theorem providerUrl_extendFields (primary models : Fields) :
    providerUrl (Json.extendFields primary models) =
      (((models.lookup "baseUrl").or (primary.lookup "baseUrl")).or
        ((models.lookup "baseURL").or (primary.lookup "baseURL"))).bind Json.asStr := by
  rw [providerUrl, Json.lookup_extendFields, Json.lookup_extendFields]

theorem providerUrl_mergedProvider_mapFloats (primaryRoot modelsRoot : Fields)
    (providerId : String) :
    providerUrl (mergedProvider (Json.mapFloatsFields f primaryRoot)
        (some (Json.mapFloatsFields f modelsRoot)) providerId) =
      providerUrl (mergedProvider primaryRoot (some modelsRoot) providerId) := by
  unfold mergedProvider
  have hgetD : ∀ fields : Option Fields, (fields.map (Json.mapFloatsFields f)).getD [] =
      Json.mapFloatsFields f (fields.getD []) := by
    rintro (_ | fields) <;> rfl
  have hor : ∀ value value' : Option Json, (value.map (Json.mapFloats f)).or
      (value'.map (Json.mapFloats f)) = (value.or value').map (Json.mapFloats f) := by
    rintro (_ | value) value' <;> rfl
  rw [Option.bind_some, Option.bind_some, getOpenclawProviderObject_mapFloats,
    getOpenclawProviderObject_mapFloats, hgetD, hgetD, providerUrl_extendFields,
    providerUrl_extendFields]
  simp only [Json.lookup_mapFloatsFields, hor, asStr_mapFloats]

end Floats

end AiOpenRouter
