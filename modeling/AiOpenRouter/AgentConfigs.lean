/-
The configuration of an agent, as its files give it and as they are changed.

An agent is Claude, Codex, OpenCode or OpenClaw; each has files of its own, in which
its base URL stands at a place of its own.

* `parseClaudeConfig` and its siblings read the configuration of an agent;
* `setClaudeEntry` and its siblings set the base URL only;
* `setClaudeConfig` and its siblings set everything that a configuration has.

OpenClaw, whose configuration is in several files, has a module of its own.
-/
import AiOpenRouter.JsonText
import AiOpenRouter.Paths
import AiOpenRouter.ProviderStore
import AiOpenRouter.TomlItems

namespace AiOpenRouter

open Json (Fields)

/-! ### Agents, targets and files -/

/-- `IntegrationClientKind` -/
inductive IntegrationClientKind where
  | claude
  | codex
  | openclaw
  | opencode
  deriving DecidableEq

/-- `AgentConfig` -/
structure AgentConfig where
  agentId : Option String := none
  providerId : Option String := none
  url : Option String := none
  apiToken : Option String := none
  apiFormat : Option String := none
  model : Option String := none
  fallbackModels : Option (List String) := none
  timeout : Option ℕ := none
  alwaysThinkingEnabled : Option Bool := none
  includeCoauthoredBy : Option Bool := none
  skipDangerousModePermissionPrompt : Option Bool := none

/-- `IntegrationTarget`, without its group and its creation. -/
structure IntegrationTarget where
  id : String
  kind : IntegrationClientKind
  configDir : String
  config : Option AgentConfig
  updatedAt : String

/-- `AppError` -/
inductive AppError where
  | validation (message : String)
  | notFound (message : String)
  | external (message : String)
  | internal (message : String)

/-- The configuration files in the directory of an agent. -/
inductive AgentFile where
  | settings
  | configToml
  | authJson
  | opencodeJsonc
  | opencodeJson
  | openclawJson
  | models (agentId : String)
  | legacyModels (agentId : String)
  | authProfiles (agentId : String)
  | legacyAuthProfiles (agentId : String)
  deriving DecidableEq

def AgentFile.fileName : AgentFile → String
  | .settings => "settings.json"
  | .configToml => "config.toml"
  | .authJson => "auth.json"
  | .opencodeJsonc => "opencode.jsonc"
  | .opencodeJson => "opencode.json"
  | .openclawJson => "openclaw.json"
  | .models _ | .legacyModels _ => "models.json"
  | .authProfiles _ | .legacyAuthProfiles _ => "auth-profiles.json"

/-- `openclaw_agent_root` -/
def openclawAgentRoot (configDir agentId : String) : String :=
  Paths.join (Paths.join configDir "agents") agentId

def AgentFile.folder (configDir : String) : AgentFile → String
  | .models agentId | .authProfiles agentId =>
    Paths.join (openclawAgentRoot configDir agentId) "agent"
  | .legacyModels agentId | .legacyAuthProfiles agentId => openclawAgentRoot configDir agentId
  | _ => configDir

def AgentFile.path (configDir : String) (file : AgentFile) : String :=
  Paths.join (file.folder configDir) file.fileName

inductive Place where
  | missing
  | noFolder
  | folder

def withNewline (text : String) : String :=
  if text.toList.getLast? = some '\n' then text else text ++ "\n"

/-- What the agents' files take from outside: the directories, and the crates that read and print
JSON, JSON5 and TOML.  What they print, they read back, but for the floats of JSON. -/
structure AgentEnv where
  place : String → Place
  fromStr : String → Except String Json
  json5 : String → Except String Json
  toStringPretty : Json → String
  floatRead : String → String
  parseToml : String → Except String TomlTable
  tomlToString : TomlTable → String
  print_ne_blank : ∀ fields, trimmed (toStringPretty (.obj fields)) ≠ ""
  fromStr_print : ∀ fields,
    fromStr (toStringPretty (.obj fields)) = .ok ((Json.obj fields).mapFloats floatRead)
  tomlPrint_ne_blank : ∀ doc, doc ≠ [] → trimmed (withNewline (tomlToString doc)) ≠ ""
  parseToml_print : ∀ doc, ∃ doc', parseToml (withNewline (tomlToString doc)) = .ok doc' ∧
    Json.SameOff [] (some (.obj (TomlItem.toFields doc))) (some (.obj (TomlItem.toFields doc')))

/-- `raw.map(str::trim).filter(|value| !value.is_empty())` -/
def nonBlank (raw : Option String) : Option String := (raw.map trimmed).filter (· ≠ "")

/-! ### Reading texts -/

def rootObject (path : String) : Json → Except AppError Fields
  | .obj fields => .ok fields
  | _ => .error (.validation ("JSON config root must be object: " ++ path))

/-- `parse_json_like_content` -/
def parseJsonLikeContent (env : AgentEnv) (content path : String) : Except AppError Fields :=
  if trimmed content = "" then .ok []
  else
    match env.fromStr content with
    | .ok value => rootObject path value
    | .error _ =>
      match env.json5 content with
      | .ok value => rootObject path value
      | .error e =>
        .error (.validation ("parse JSON config failed (" ++ path ++ "): " ++ e))

/-- `parse_toml_content` -/
def parseTomlContent (env : AgentEnv) (content path : String) : Except AppError TomlTable :=
  if trimmed content = "" then .ok []
  else
    match env.parseToml content with
    | .ok doc => .ok doc
    | .error e => .error (.validation ("parse TOML config failed (" ++ path ++ "): " ++ e))

/-- `parse_agent_config_content` -/
def parseAgentConfigContent (env : AgentEnv) (kind : IntegrationClientKind)
    (content path : String) :
    Except AppError Fields :=
  match kind with
  | .codex => (parseTomlContent env content path).map TomlItem.toFields
  | _ => parseJsonLikeContent env content path

/-! ### Claude -/

/-- `str::parse::<u64>` -/
def parseU64 (text : String) : Option ℕ :=
  let digits := if text.toList.head? = some '+' then text.toList.tail else text.toList
  if digits.isEmpty ∨ ¬ digits.all Char.isDigit then none
  else
    let n := digits.foldl (fun n c => 10 * n + (c.toNat - '0'.toNat)) 0
    if n < 18446744073709551616 then some n else none

def textAt (fields : Fields) (key : String) : Option String := (fields.lookup key).bind Json.asStr

/-- `parse_claude_config` -/
def parseClaudeConfig (root : Fields) : AgentConfig where
  url := textAt (Json.childObject root "env") "ANTHROPIC_BASE_URL"
  apiToken := textAt (Json.childObject root "env") "ANTHROPIC_AUTH_TOKEN"
  model := textAt (Json.childObject root "env") "ANTHROPIC_MODEL"
  timeout := (textAt (Json.childObject root "env") "API_TIMEOUT_MS").bind parseU64
  alwaysThinkingEnabled := (root.lookup "alwaysThinkingEnabled").bind Json.asBool
  includeCoauthoredBy := (root.lookup "includeCoAuthoredBy").bind Json.asBool
  skipDangerousModePermissionPrompt :=
    (root.lookup "skipDangerousModePermissionPrompt").bind Json.asBool

/-- What `write_claude_settings` sets. -/
def setClaudeEntry (entryUrl : String) (root : Fields) : Fields :=
  Json.updateChild root "env" fun env =>
    Json.insertField env "ANTHROPIC_BASE_URL" (.str entryUrl)

def insertText (fields : Fields) (key : String) (text : Option String) : Fields :=
  match text with
  | some text => Json.insertField fields key (.str text)
  | none => fields

def insertFlag (fields : Fields) (key : String) (flag : Option Bool) : Fields :=
  match flag with
  | some flag => Json.insertField fields key (.bool flag)
  | none => fields

/-- What `write_claude_full_config` sets. -/
def setClaudeConfig (config : AgentConfig) (root : Fields) : Fields :=
  let root := Json.updateChild root "env" fun env =>
    let env := insertText env "ANTHROPIC_BASE_URL" config.url
    let env := insertText env "ANTHROPIC_AUTH_TOKEN" config.apiToken
    let env := insertText env "ANTHROPIC_MODEL" config.model
    insertText env "API_TIMEOUT_MS" (config.timeout.map toString)
  let root := insertFlag root "alwaysThinkingEnabled" config.alwaysThinkingEnabled
  let root := insertFlag root "includeCoAuthoredBy" config.includeCoauthoredBy
  insertFlag root "skipDangerousModePermissionPrompt" config.skipDangerousModePermissionPrompt

/-! ### OpenCode -/

/-- `parse_opencode_config` -/
def parseOpencodeConfig (root : Fields) : AgentConfig :=
  let aorShared := Json.childObject (Json.childObject root "provider") "aor_shared"
  let options := Json.childObject aorShared "options"
  { providerId := some "aor_shared"
    url := textAt options "baseURL"
    apiToken :=
      (((options.lookup "apiKey").or (options.lookup "api_key")).or
        ((aorShared.lookup "apiKey").or (aorShared.lookup "api_key"))).bind Json.asStr
    timeout := (options.lookup "timeout").bind Json.asU64
    model := textAt root "model" }

/-- What `write_opencode_config` sets. -/
def setOpencodeEntry (entryUrl : String) (root : Fields) : Fields :=
  Json.updateChild root "provider" fun provider =>
    Json.updateChild provider "aor_shared" fun aorShared =>
      Json.updateChild aorShared "options" fun options =>
        Json.insertField options "baseURL" (.str entryUrl)

/-- The options of `write_opencode_full_config`. -/
def setOpencodeOptions (config : AgentConfig) (options : Fields) : Fields :=
  let options := insertText options "baseURL" config.url
  let options :=
    match config.timeout with
    | some timeout => Json.insertField options "timeout" (.int timeout)
    | none => options
  match nonBlank config.apiToken with
  | some token => Json.removeField (Json.insertField options "apiKey" (.str token)) "api_key"
  | none => Json.removeField (Json.removeField options "apiKey") "api_key"

/-- What `write_opencode_full_config` sets. -/
def setOpencodeConfig (config : AgentConfig) (root : Fields) : Fields :=
  let root := Json.updateChild root "provider" fun provider =>
    Json.updateChild provider "aor_shared" fun aorShared =>
      Json.updateChild aorShared "options" (setOpencodeOptions config)
  insertText root "model" config.model

/-! ### Codex -/

/-- `resolve_codex_provider_name_from_map` -/
def resolveCodexProviderNameFromMap (root : Fields) : Option String :=
  nonBlank (textAt root "model_provider")

/-- `parse_codex_config_with_auth` -/
def parseCodexConfigWithAuth (root : Fields) (auth : Option Fields) : AgentConfig :=
  let providerName := resolveCodexProviderNameFromMap root
  let provider :=
    (providerName.map (Json.childObject (Json.childObject root "model_providers"))).getD []
  { providerId := providerName
    url := textAt provider "base_url"
    apiToken := (auth.bind fun auth => textAt auth "OPENAI_API_KEY").or (textAt provider "api_key")
    model := textAt root "model" }

/-- `resolve_codex_provider_name_from_doc` -/
def resolveCodexProviderNameFromDoc (doc : TomlTable) : Except AppError String :=
  match nonBlank ((doc.lookup "model_provider").bind TomlItem.asStr) with
  | some name => .ok name
  | none => .error (.validation "codex config missing required `model_provider`")

/-- What `write_codex_config` sets. -/
def setCodexEntry (entryUrl name : String) (doc : TomlTable) : TomlTable :=
  TomlTable.updateTable doc "model_providers" fun modelProviders =>
    TomlTable.updateTable modelProviders name fun provider =>
      TomlTable.insert provider "base_url" (.value (.string entryUrl))

/-- Whether `write_codex_full_config` finds what it indexes: without a table of the provider there
is a panic, since an immutable index does not make one. -/
def codexIndexed (name : String) (doc : TomlTable) : Bool :=
  (doc.lookup "model_providers").isSome &&
    ((TomlTable.childTable doc "model_providers").lookup name).isSome

/-- What `write_codex_full_config` sets in `config.toml`. -/
def setCodexConfig (config : AgentConfig) (name : String) (doc : TomlTable) : TomlTable :=
  let doc := TomlTable.updateTable doc "model_providers" fun modelProviders =>
    TomlTable.updateTable modelProviders name fun provider =>
      let provider :=
        match config.url with
        | some url => TomlTable.insert provider "base_url" (.value (.string url))
        | none => provider
      TomlTable.remove provider "api_key"
  match config.model with
  | some model => TomlTable.insert doc "model" (.value (.string model))
  | none => doc

/-- What `write_codex_full_config` sets in `auth.json`. -/
def setCodexAuth (config : AgentConfig) (auth : Fields) : Fields :=
  match nonBlank config.apiToken with
  | some token => Json.insertField auth "OPENAI_API_KEY" (.str token)
  | none => Json.removeField auth "OPENAI_API_KEY"

/-! ### A sample environment -/

theorem trimmed_ne_empty {c : Char} {s : String} (hc : c ∈ s.toList)
    (hblank : Text.isWhitespace c = false) : trimmed s ≠ "" := by
  intro h
  have hnil : Text.trim s.toList = [] := by
    rw [← String.toList_ofList (l := Text.trim s.toList),
      show String.ofList (Text.trim s.toList) = ""
      from h, String.toList_empty]
  have hstart : c ∈ Text.trimStart s.toList := by
    rw [← List.takeWhile_append_dropWhile (p := Text.isWhitespace) (l := s.toList)] at hc
    rcases List.mem_append.1 hc with hbefore | hbehind
    · rw [List.mem_takeWhile_imp hbefore] at hblank
      cases hblank
    · exact hbehind
  rw [Text.trim, trimEndMatches_eq_rdropWhile, List.rdropWhile_eq_nil_iff] at hnil
  rw [hnil c hstart] at hblank
  cases hblank

theorem withNewline_append (text : String) : withNewline (text ++ "\n") = text ++ "\n" := by
  rw [withNewline, if_pos]
  rw [String.toList_append, List.getLast?_append]
  rfl

open Classical in
noncomputable def readBack {α : Type} (print : α → String) (text : String) : Except String α :=
  if h : ∃ value, print value = text then .ok h.choose else .error "expected value"

theorem readBack_print {α : Type} (print : α → String) (value : α) :
    ∃ value', readBack print (print value) = .ok value' ∧ print value' = print value := by
  have h : ∃ value', print value' = print value := ⟨value, rfl⟩
  exact ⟨h.choose, dif_pos h, h.choose_spec⟩

theorem readBack_text (value : Json) : readBack Json.text value.text = .ok value := by
  obtain ⟨value', hread, hprint⟩ := readBack_print Json.text value
  rw [hread, Json.text_injective hprint]

/-- An environment in which all directories are there, and that prints without spaces. -/
noncomputable def AgentEnv.plain : AgentEnv where
  place _ := .folder
  fromStr := readBack Json.text
  json5 := readBack Json.text
  toStringPretty := Json.text
  floatRead := id
  parseToml := readBack fun doc => (Json.obj (TomlItem.toFields doc)).text ++ "\n"
  tomlToString doc := (Json.obj (TomlItem.toFields doc)).text ++ "\n"
  print_ne_blank _ := trimmed_ne_empty (c := '\x7b') (by simp [Json.text, Json.chars]) (by decide)
  fromStr_print fields := by
    rw [readBack_text, (Json.mapFloats_eq_self_iff id (.obj fields)).2 fun _ _ => rfl]
  tomlPrint_ne_blank doc _ := by
    rw [withNewline_append]
    exact trimmed_ne_empty (c := '\x7b') (by simp [Json.text, Json.chars]) (by decide)
  parseToml_print doc := by
    obtain ⟨doc', hread, hprint⟩ :=
      readBack_print (fun doc => (Json.obj (TomlItem.toFields doc)).text ++ "\n") doc
    rw [withNewline_append]
    refine ⟨doc', hread, ?_⟩
    rw [Json.text_injective (String.append_left_inj _ |>.mp hprint)]
    exact Json.SameOff.refl [] _

end AiOpenRouter
