/-
Reading and writing the configuration files of an agent.

Each function is a program on the files of the agents' directories, whose operations
may fail one by one.

* `writeTargetEntry` writes the base URL of a group entry;
* `writeAgentConfigWithTargets` writes a whole configuration, and
  `writeAgentConfigSourceWithTargets` the text of one file;
* `readAgentConfigWithTargets` reads the configuration of an agent.
-/
import AiOpenRouter.FileOperations
import AiOpenRouter.OpenclawConfigs

namespace AiOpenRouter

open Files
open Json (Fields)

/-- How a function of the service stops: with an `Err`, or with a panic. -/
inductive AgentStop where
  | err (e : AppError)
  | panicked (message : String)

/-- What the files of all directories hold. -/
abbrev AgentDisk : Type := String × AgentFile → Option String

abbrev AgentIo : Type → Type := Program AgentStop (String × AgentFile) String

/-- A result that `?` takes apart. -/
def checked {α : Type} (result : Except AppError α) : AgentIo α :=
  Program.ofExcept (result.mapError .err)

def refuse {α : Type} (e : AppError) : AgentIo α := Program.ofExcept (.error (.err e))

/-! ### Files -/

/-- `read_file_content` -/
def readFileContent (configDir : String) (file : AgentFile) : AgentIo (Option String) :=
  Program.read
    (fun e => .err (.external ("read file failed (" ++ file.path configDir ++ "): " ++ e)))
    (configDir, file)

/-- `write_file_content` -/
def writeFileContent (configDir : String) (file : AgentFile) (content : String) : AgentIo Unit := do
  Program.makeDirectory fun e => .err (.external ("create directory failed: " ++ e))
  Program.write (fun e => .err (.external ("write file failed: " ++ e))) (configDir, file) content

/-- `file_exists` -/
def fileExists (configDir : String) (file : AgentFile) : AgentIo Bool := do
  let content ← readFileContent configDir file
  pure content.isSome

/-- What `read_json_like_object` makes of the content of a file. -/
def jsonLikeObject (env : AgentEnv) (configDir : String) (file : AgentFile)
    (content : Option String) : Except AppError Fields :=
  match content with
  | none => .ok []
  | some content => parseJsonLikeContent env content (file.path configDir)

/-- `read_json_like_object` -/
def readJsonLikeObject (env : AgentEnv) (configDir : String) (file : AgentFile) :
    AgentIo Fields := do
  let content ← readFileContent configDir file
  checked (jsonLikeObject env configDir file content)

/-- What `read_toml_document` makes of the content of a file. -/
def tomlDocument (env : AgentEnv) (configDir : String) (file : AgentFile)
    (content : Option String) : Except AppError TomlTable :=
  match content with
  | none => .ok []
  | some content => parseTomlContent env content (file.path configDir)

/-- `read_toml_document` -/
def readTomlDocument (env : AgentEnv) (configDir : String) (file : AgentFile) :
    AgentIo TomlTable := do
  let content ← readFileContent configDir file
  checked (tomlDocument env configDir file content)

/-- `write_json_object` -/
def writeJsonObject (env : AgentEnv) (configDir : String) (file : AgentFile) (root : Fields) :
    AgentIo Unit :=
  writeFileContent configDir file (env.toStringPretty (.obj root))

/-- `resolve_opencode_config_path` -/
def resolveOpencodeConfigFile (configDir : String) : AgentIo AgentFile := do
  let isJsonc ← Program.isFile (configDir, .opencodeJsonc)
  pure (if isJsonc then .opencodeJsonc else .opencodeJson)

def preferredFile (configDir : String) (preferred legacy : AgentFile) : AgentIo AgentFile := do
  let isPreferred ← fileExists configDir preferred
  if isPreferred then pure preferred
  else
    let isLegacy ← fileExists configDir legacy
    pure (if isLegacy then legacy else preferred)

/-- `resolve_openclaw_models_file_path` -/
def resolveOpenclawModelsFile (configDir agentId : String) : AgentIo AgentFile :=
  preferredFile configDir (.models agentId) (.legacyModels agentId)

/-- `resolve_openclaw_auth_profiles_file_path` -/
def resolveOpenclawAuthProfilesFile (configDir agentId : String) : AgentIo AgentFile :=
  preferredFile configDir (.authProfiles agentId) (.legacyAuthProfiles agentId)

/-! ### Writing a group entry -/

def editJsonObject (env : AgentEnv) (configDir : String) (file : AgentFile)
    (edit : Fields → Fields) : AgentIo String := do
  let root ← readJsonLikeObject env configDir file
  writeJsonObject env configDir file (edit root)
  pure (file.path configDir)

/-- `write_claude_settings` -/
def writeClaudeSettings (env : AgentEnv) (configDir entryUrl : String) : AgentIo String :=
  editJsonObject env configDir .settings (setClaudeEntry entryUrl)

/-- `write_opencode_config` -/
def writeOpencodeConfig (env : AgentEnv) (configDir entryUrl : String) : AgentIo String := do
  let file ← resolveOpencodeConfigFile configDir
  editJsonObject env configDir file (setOpencodeEntry entryUrl)

/-- `write_codex_config` -/
def writeCodexConfig (env : AgentEnv) (configDir entryUrl : String) : AgentIo String := do
  let doc ← readTomlDocument env configDir .configToml
  let name ← checked (resolveCodexProviderNameFromDoc doc)
  writeFileContent configDir .configToml
    (withNewline (env.tomlToString (setCodexEntry entryUrl name doc)))
  pure (AgentFile.path configDir .configToml)

/-- `sync_openclaw_provider_to_models_file` -/
def syncOpenclawProviderToModelsFile (env : AgentEnv) (configDir agentId providerId : String)
    (providerValue : Fields) (preserveExisting : Bool) : AgentIo Unit := do
  let file ← resolveOpenclawModelsFile configDir agentId
  let root ← readJsonLikeObject env configDir file
  writeJsonObject env configDir file (syncProvider providerId providerValue preserveExisting root)

/-- `write_openclaw_config`, up to the second file. -/
def writeOpenclawPrimary (env : AgentEnv) (configDir : String) (config : Option AgentConfig)
    (entryUrl : String) : AgentIo OpenClawEditorConfig := do
  let root ← readJsonLikeObject env configDir .openclawJson
  let editor := openclawEntryEditor config entryUrl root
  let root ← checked (formatOpenclawPrimarySource editor root)
  writeJsonObject env configDir .openclawJson root
  pure editor

/-- `write_openclaw_config` -/
def writeOpenclawConfig (env : AgentEnv) (configDir : String) (config : Option AgentConfig)
    (entryUrl : String) : AgentIo String := do
  let editor ← writeOpenclawPrimary env configDir config entryUrl
  syncOpenclawProviderToModelsFile env configDir editor.agentId editor.providerId
    (buildOpenclawProviderSnapshot editor false) true
  pure (AgentFile.path configDir .openclawJson)

/-- `write_target_entry` -/
def writeTargetEntry (env : AgentEnv) (target : IntegrationTarget) (entryUrl : String) :
    AgentIo String :=
  let configDir := trimmed target.configDir
  match env.place configDir with
  | .missing => refuse (.external ("config directory does not exist: " ++ configDir))
  | .noFolder => refuse (.external ("config directory is not a folder: " ++ configDir))
  | .folder =>
    match target.kind with
    | .claude => writeClaudeSettings env configDir entryUrl
    | .codex => writeCodexConfig env configDir entryUrl
    | .openclaw => writeOpenclawConfig env configDir target.config entryUrl
    | .opencode => writeOpencodeConfig env configDir entryUrl

/-! ### Writing a configuration -/

/-- `write_claude_full_config` -/
def writeClaudeFullConfig (env : AgentEnv) (configDir : String) (config : AgentConfig) :
    AgentIo String :=
  editJsonObject env configDir .settings (setClaudeConfig config)

/-- `write_opencode_full_config` -/
def writeOpencodeFullConfig (env : AgentEnv) (configDir : String) (config : AgentConfig) :
    AgentIo String := do
  let file ← resolveOpencodeConfigFile configDir
  editJsonObject env configDir file (setOpencodeConfig config)

/-- `write_openclaw_full_config`, up to the second file. -/
def writeOpenclawFullPrimary (env : AgentEnv) (configDir : String) (config : AgentConfig) :
    AgentIo OpenClawEditorConfig := do
  let root ← readJsonLikeObject env configDir .openclawJson
  let editor := openclawEditorFromAgentConfig config
  let root ← checked (setOpenclawConfig editor root)
  writeJsonObject env configDir .openclawJson root
  pure editor

/-- `write_openclaw_full_config` -/
def writeOpenclawFullConfig (env : AgentEnv) (configDir : String) (config : AgentConfig) :
    AgentIo String := do
  let editor ← writeOpenclawFullPrimary env configDir config
  syncOpenclawProviderToModelsFile env configDir editor.agentId editor.providerId
    (buildOpenclawProviderSnapshot editor true) false
  pure (AgentFile.path configDir .openclawJson)

/-- The text that `write_codex_full_config` makes of `config.toml`. -/
def codexConfigText (env : AgentEnv) (config : AgentConfig) (doc : TomlTable) :
    Except AgentStop String :=
  match resolveCodexProviderNameFromDoc doc with
  | .error e => .error (.err e)
  | .ok name =>
    if codexIndexed name doc then
      .ok (withNewline (env.tomlToString (setCodexConfig config name doc)))
    else .error (.panicked "index not found")

/-- `write_codex_full_config`, up to the second file. -/
def writeCodexFullPrimary (env : AgentEnv) (configDir : String) (config : AgentConfig) :
    AgentIo Unit := do
  let doc ← readTomlDocument env configDir .configToml
  let output ← Program.ofExcept (codexConfigText env config doc)
  writeFileContent configDir .configToml output

/-- `write_codex_full_config` -/
def writeCodexFullConfig (env : AgentEnv) (configDir : String) (config : AgentConfig) :
    AgentIo String := do
  writeCodexFullPrimary env configDir config
  let authRoot ← readJsonLikeObject env configDir .authJson
  writeJsonObject env configDir .authJson (setCodexAuth config authRoot)
  pure (AgentFile.path configDir .configToml)

/-- `resolve_target_by_id` -/
def resolveTargetById (targets : List IntegrationTarget) (targetId : String) :
    Except AppError IntegrationTarget :=
  if trimmed targetId = "" then .error (.validation "target id is required")
  else
    match targets.find? (·.id = trimmed targetId) with
    | some target => .ok target
    | none => .error (.notFound ("target not found: " ++ trimmed targetId))

/-- `WriteAgentConfigResult` -/
structure WriteAgentConfigResult where
  ok : Bool
  targetId : String
  filePath : String
  message : Option String

/-- `write_agent_config_with_targets` -/
def writeAgentConfigWithTargets (env : AgentEnv) (targets : List IntegrationTarget)
    (targetId : String) (config : AgentConfig) : AgentIo WriteAgentConfigResult := do
  let target ← checked (resolveTargetById targets targetId)
  let filePath ←
    match target.kind with
    | .claude => writeClaudeFullConfig env target.configDir config
    | .openclaw => writeOpenclawFullConfig env target.configDir config
    | .opencode => writeOpencodeFullConfig env target.configDir config
    | .codex => writeCodexFullConfig env target.configDir config
  pure ⟨true, targetId, filePath, none⟩

/-! ### Reading -/

/-- `resolve_agent_config_file_path` -/
def resolveAgentConfigFile (kind : IntegrationClientKind) (configDir : String) :
    AgentIo AgentFile :=
  match kind with
  | .claude => pure .settings
  | .codex => pure .configToml
  | .openclaw => pure .openclawJson
  | .opencode => resolveOpencodeConfigFile configDir

/-- `read_file_content(..)?.unwrap_or_default()` -/
def readText (configDir : String) (file : AgentFile) : AgentIo String := do
  let content ← readFileContent configDir file
  pure (content.getD "")

def readOptionalObject (env : AgentEnv) (configDir : String) (file : AgentFile) :
    AgentIo (Option Fields) := do
  let content ← readText configDir file
  pure (parseJsonLikeContent env content (file.path configDir)).toOption

/-- `AgentSourceFile` -/
structure AgentSourceFile where
  sourceId : String
  label : String
  filePath : String
  content : String

def sourceFile (configDir sourceId : String) (file : AgentFile) (content : String) :
    AgentSourceFile :=
  ⟨sourceId, file.fileName, file.path configDir, content⟩

/-- `build_agent_source_files` -/
def buildAgentSourceFiles (target : IntegrationTarget) (configDir : String)
    (primaryFile : AgentFile) (primaryContent : String) : AgentIo (List AgentSourceFile) :=
  let primary := sourceFile configDir "primary" primaryFile primaryContent
  match target.kind with
  | .codex => do
    let auth ← readText configDir .authJson
    pure [primary, sourceFile configDir "auth" .authJson auth]
  | .openclaw => do
    let agentId := resolveOpenclawAgentId target.config
    let authProfilesFile ← resolveOpenclawAuthProfilesFile configDir agentId
    let authProfiles ← readText configDir authProfilesFile
    let modelsFile ← resolveOpenclawModelsFile configDir agentId
    let models ← readText configDir modelsFile
    pure [primary, sourceFile configDir "auth-profiles" authProfilesFile authProfiles,
      sourceFile configDir "models" modelsFile models]
  | _ => pure [primary]

def readOpenclawEditor (env : AgentEnv) (target : IntegrationTarget) (configDir : String)
    (root : Option Fields) : AgentIo (Option OpenClawEditorConfig) := do
  let agentId := resolveOpenclawAgentId target.config
  let modelsFile ← resolveOpenclawModelsFile configDir agentId
  let modelsRoot ← readOptionalObject env configDir modelsFile
  let authProfilesFile ← resolveOpenclawAuthProfilesFile configDir agentId
  let authProfilesRoot ← readOptionalObject env configDir authProfilesFile
  pure (root.map fun root =>
    parseOpenclawEditorConfig root modelsRoot authProfilesRoot target.config)

/-- `AgentConfigFile` -/
structure AgentConfigFile where
  targetId : String
  kind : IntegrationClientKind
  configDir : String
  filePath : String
  content : String
  sourceFiles : List AgentSourceFile
  updatedAt : Option String
  parsedConfig : Option AgentConfig
  openclawEditor : Option OpenClawEditorConfig

/-- The configuration that `read_agent_config_with_targets` parses. -/
def readParsedConfig (env : AgentEnv) (target : IntegrationTarget) (configDir : String)
    (root : Option Fields) : AgentIo (Option AgentConfig) :=
  match target.kind with
  | .codex => do
    let authRoot ← readOptionalObject env configDir .authJson
    pure (root.map fun root => parseCodexConfigWithAuth root authRoot)
  | .openclaw => do
    let editor ← readOpenclawEditor env target configDir root
    pure (editor.map openclawEditorToAgentConfig)
  | .claude => pure (root.map parseClaudeConfig)
  | .opencode => pure (root.map parseOpencodeConfig)

/-- The editor that `read_agent_config_with_targets` reads. -/
def readEditorPayload (env : AgentEnv) (target : IntegrationTarget) (configDir : String)
    (root : Option Fields) : AgentIo (Option OpenClawEditorConfig) :=
  match target.kind with
  | .openclaw => readOpenclawEditor env target configDir root
  | _ => pure none

/-- `read_agent_config_with_targets` -/
def readAgentConfigWithTargets (env : AgentEnv) (targets : List IntegrationTarget)
    (targetId : String) : AgentIo AgentConfigFile := do
  let target ← checked (resolveTargetById targets targetId)
  let configDir := target.configDir
  let file ← resolveAgentConfigFile target.kind configDir
  let content ← readText configDir file
  let root := (parseAgentConfigContent env target.kind content (file.path configDir)).toOption
  let sourceFiles ← buildAgentSourceFiles target configDir file content
  let parsedConfig ← readParsedConfig env target configDir root
  let openclawEditor ← readEditorPayload env target configDir root
  pure
    { targetId := target.id
      kind := target.kind
      configDir := configDir
      filePath := file.path configDir
      content := content
      sourceFiles := sourceFiles
      updatedAt := some target.updatedAt
      parsedConfig := parsedConfig
      openclawEditor := openclawEditor }

/-! ### Writing the text of a file -/

/-- `resolve_agent_source_file_path` -/
def resolveAgentSourceFile (target : IntegrationTarget) (configDir : String)
    (sourceId : Option String) : AgentIo AgentFile :=
  match nonBlank sourceId with
  | none => resolveAgentConfigFile target.kind configDir
  | some source =>
    let agentId := resolveOpenclawAgentId target.config
    if target.kind = .codex ∧ source = "auth" then pure .authJson
    else if target.kind = .openclaw ∧ source = "auth-profiles" then
      resolveOpenclawAuthProfilesFile configDir agentId
    else if target.kind = .openclaw ∧ source = "models" then
      resolveOpenclawModelsFile configDir agentId
    else if source = "primary" then resolveAgentConfigFile target.kind configDir
    else refuse (.validation ("unsupported source id: " ++ source))

def readCheckedObject (env : AgentEnv) (configDir : String) (file : AgentFile)
    (given : Option Fields) : AgentIo Fields :=
  match given with
  | some root => pure root
  | none => do
    let content ← readText configDir file
    checked (parseJsonLikeContent env content (file.path configDir))

/-- What `write_agent_config_source_with_targets` reads for Codex behind the write. -/
def readCodexSources (env : AgentEnv) (configDir : String) (isAuth : Bool) (parsedRoot : Fields) :
    AgentIo (Option AgentConfig) := do
  let content ← readText configDir .configToml
  let root :=
    (parseAgentConfigContent env .codex content (AgentFile.path configDir .configToml)).toOption
  let authRoot ←
    if isAuth then pure (some parsedRoot) else readOptionalObject env configDir .authJson
  pure (root.map fun root => parseCodexConfigWithAuth root authRoot)

/-- What `write_agent_config_source_with_targets` checks for OpenClaw before the write. -/
def checkOpenclawSources (env : AgentEnv) (target : IntegrationTarget) (configDir : String)
    (sourceId : Option String) (parsedRoot : Fields) : AgentIo AgentConfig := do
  let given (source : String) : Option Fields :=
    if sourceId = some source then some parsedRoot else none
  let configRoot ← readCheckedObject env configDir .openclawJson (given "primary")
  let agentId := resolveOpenclawAgentId target.config
  let modelsFile ← resolveOpenclawModelsFile configDir agentId
  let modelsRoot ← readCheckedObject env configDir modelsFile (given "models")
  let authProfilesFile ← resolveOpenclawAuthProfilesFile configDir agentId
  let authProfilesRoot ← readCheckedObject env configDir authProfilesFile (given "auth-profiles")
  let editor :=
    parseOpenclawEditorConfig configRoot (some modelsRoot) (some authProfilesRoot) target.config
  checked (validateOpenclawEditorConfig editor configRoot (some modelsRoot) (some authProfilesRoot))
  pure (openclawEditorToAgentConfig editor)

def writeSource (env : AgentEnv) (target : IntegrationTarget) (file : AgentFile) (content : String)
    (sourceId : Option String) (parsedRoot : Fields) : AgentIo (Option AgentConfig) :=
  let configDir := target.configDir
  match target.kind with
  | .codex => do
    writeFileContent configDir file content
    readCodexSources env configDir (sourceId = some "auth") parsedRoot
  | .openclaw => do
    let config ← checkOpenclawSources env target configDir sourceId parsedRoot
    writeFileContent configDir file content
    pure (some config)
  | .claude => do
    writeFileContent configDir file content
    pure (some (parseClaudeConfig parsedRoot))
  | .opencode => do
    writeFileContent configDir file content
    pure (some (parseOpencodeConfig parsedRoot))

/-- `write_agent_config_source_with_targets`; the parsed configuration goes to the store of the
targets. -/
def writeAgentConfigSourceWithTargets (env : AgentEnv) (targets : List IntegrationTarget)
    (targetId content : String) (sourceId : Option String) :
    AgentIo (WriteAgentConfigResult × Option AgentConfig) := do
  let target ← checked (resolveTargetById targets targetId)
  let normalized := nonBlank sourceId
  let file ← resolveAgentSourceFile target target.configDir normalized
  let path := file.path target.configDir
  let parsedRoot ← checked
    (if target.kind = .codex ∧ normalized = some "auth" then parseJsonLikeContent env content path
    else parseAgentConfigContent env target.kind content path)
  let parsedConfig ← writeSource env target file content normalized parsedRoot
  pure (⟨true, targetId, path, none⟩, parsedConfig)

end AiOpenRouter
