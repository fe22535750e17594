/-
What the functions on the files of agents do.

* `readAgentConfigWithTargets_yields`: without faults, the reader finds the base URL
  that `agentUrl` describes;
* `writeTargetEntry_ok`: a group entry that is written has one of the forms of
  `EntryWritten`.
-/
import AiOpenRouter.AgentFiles

namespace AiOpenRouter

open Files
open Json (Fields)

/-! ### Reading without faults -/

def chosenFile (content : AgentDisk) (configDir : String) (preferred legacy : AgentFile) :
    AgentFile :=
  if (content (configDir, preferred)).isSome then preferred
  else if (content (configDir, legacy)).isSome then legacy else preferred

/-- `opencode.jsonc` if it is there. -/
def opencodeFile (content : AgentDisk) (configDir : String) : AgentFile :=
  if (content (configDir, .opencodeJsonc)).isSome then .opencodeJsonc else .opencodeJson

def objectAt (env : AgentEnv) (content : AgentDisk) (configDir : String) (file : AgentFile) :
    Option Fields :=
  (parseJsonLikeContent env ((content (configDir, file)).getD "") (file.path configDir)).toOption

def primaryFile (content : AgentDisk) (target : IntegrationTarget) : AgentFile :=
  match target.kind with
  | .claude => .settings
  | .codex => .configToml
  | .openclaw => .openclawJson
  | .opencode => opencodeFile content target.configDir

def agentRoot (env : AgentEnv) (content : AgentDisk) (target : IntegrationTarget) : Option Fields :=
  let file := primaryFile content target
  (parseAgentConfigContent env target.kind ((content (target.configDir, file)).getD "")
    (file.path target.configDir)).toOption

/-- The file `models.json` of an agent. -/
def modelsFile (content : AgentDisk) (configDir agentId : String) : AgentFile :=
  chosenFile content configDir (.models agentId) (.legacyModels agentId)

def rootUrl (env : AgentEnv) (content : AgentDisk) (target : IntegrationTarget) (root : Fields) :
    Option String :=
  match target.kind with
  | .claude => (parseClaudeConfig root).url
  | .codex => (parseCodexConfigWithAuth root none).url
  | .opencode => (parseOpencodeConfig root).url
  | .openclaw =>
    let modelsRoot := objectAt env content target.configDir
      (modelsFile content target.configDir (resolveOpenclawAgentId target.config))
    providerUrl (mergedProvider root modelsRoot
      (resolveOpenclawProviderName root modelsRoot target.config))

def agentUrl (env : AgentEnv) (content : AgentDisk) (target : IntegrationTarget) : Option String :=
  (agentRoot env content target).bind (rootUrl env content target)

/-- The file says that this is the base URL of the agent. -/
def AgentConfigFile.ReportsUrl (file : AgentConfigFile) (url : String) : Prop :=
  file.parsedConfig.bind AgentConfig.url = some url ∧
    ∀ editor, file.openclawEditor = some editor → editor.baseUrl = some url

section Reading

variable {env : AgentEnv} {content : AgentDisk} {configDir : String}

theorem checked_ok {α : Type} (a : α) : (checked (.ok a) : AgentIo α) = pure a := rfl

variable (file : AgentFile)

theorem fileExists_yields :
    (fileExists configDir file).Yields content (content (configDir, file)).isSome :=
  (Program.yields_read _ _).bind (Program.yields_pure _)

theorem readText_yields :
    (readText configDir file).Yields content ((content (configDir, file)).getD "") :=
  (Program.yields_read _ _).bind (Program.yields_pure _)

theorem readOptionalObject_yields :
    (readOptionalObject env configDir file).Yields content (objectAt env content configDir file) :=
  (readText_yields file).bind (Program.yields_pure _)

theorem preferredFile_yields (preferred legacy : AgentFile) :
    (preferredFile configDir preferred legacy).Yields content
      (chosenFile content configDir preferred legacy) := by
  unfold preferredFile chosenFile
  refine (fileExists_yields preferred).bind ?_
  by_cases hpreferred : (content (configDir, preferred)).isSome = true
  · rw [if_pos hpreferred, if_pos hpreferred]
    exact Program.yields_pure preferred
  · rw [if_neg hpreferred, if_neg hpreferred]
    exact (fileExists_yields legacy).bind (Program.yields_pure _)

theorem resolveOpencodeConfigFile_yields :
    (resolveOpencodeConfigFile configDir).Yields content (opencodeFile content configDir) :=
  (Program.yields_isFile _).bind (Program.yields_pure _)

theorem readOpenclawEditor_yields (target : IntegrationTarget) (root : Option Fields) :
    ∃ authProfilesRoot, (readOpenclawEditor env target configDir root).Yields content
      (root.map fun root => parseOpenclawEditorConfig root
        (objectAt env content configDir
          (modelsFile content configDir (resolveOpenclawAgentId target.config)))
        authProfilesRoot target.config) :=
  ⟨_, (preferredFile_yields _ _).bind ((readOptionalObject_yields _).bind
    ((preferredFile_yields _ _).bind ((readOptionalObject_yields _).bind
      (Program.yields_pure _))))⟩

theorem buildAgentSourceFiles_yields (target : IntegrationTarget) (primaryFile : AgentFile)
    (primaryContent : String) :
    ∃ files, (buildAgentSourceFiles target configDir primaryFile primaryContent).Yields content
      files := by
  unfold buildAgentSourceFiles
  cases target.kind with
  | claude => exact ⟨_, Program.yields_pure _⟩
  | codex => exact ⟨_, (readText_yields _).bind (Program.yields_pure _)⟩
  | openclaw =>
    exact ⟨_, (preferredFile_yields _ _).bind ((readText_yields _).bind
      ((preferredFile_yields _ _).bind ((readText_yields _).bind (Program.yields_pure _))))⟩
  | opencode => exact ⟨_, Program.yields_pure _⟩

theorem resolveAgentConfigFile_yields (target : IntegrationTarget) :
    (resolveAgentConfigFile target.kind target.configDir).Yields content
      (primaryFile content target) := by
  unfold resolveAgentConfigFile primaryFile
  cases target.kind with
  | opencode => exact resolveOpencodeConfigFile_yields
  | _ => exact Program.yields_pure _

theorem readPayloads_yields (target : IntegrationTarget) (root : Option Fields) :
    ∃ config editor,
      (readParsedConfig env target target.configDir root).Yields content config ∧
        (readEditorPayload env target target.configDir root).Yields content editor ∧
          ∀ url, (config.bind AgentConfig.url = some url ∧
              ∀ e, editor = some e → e.baseUrl = some url) ↔
            root.bind (rootUrl env content target) = some url := by
  unfold readParsedConfig readEditorPayload rootUrl
  cases target.kind with
  | claude =>
    refine ⟨_, _, Program.yields_pure _, Program.yields_pure _, fun url => ?_⟩
    cases root <;> simp
  | codex =>
    refine ⟨_, _, (readOptionalObject_yields _).bind (Program.yields_pure _),
      Program.yields_pure _, fun url => ?_⟩
    cases root <;> simp [parseCodexConfigWithAuth]
  | openclaw =>
    obtain ⟨authProfilesRoot, heditor⟩ :=
      @readOpenclawEditor_yields env content target.configDir target root
    refine ⟨_, _, heditor.bind (Program.yields_pure _), heditor, fun url => ?_⟩
    cases root <;>
      simp [parseOpenclawEditorConfig, parseOpenclawConfigWithSources, openclawEditorToAgentConfig]
  | opencode =>
    refine ⟨_, _, Program.yields_pure _, Program.yields_pure _, fun url => ?_⟩
    cases root <;> simp

/-- **The reader finds the base URL that the files give to the agent.** -/
theorem readAgentConfigWithTargets_yields {targets : List IntegrationTarget} {targetId : String}
    {target : IntegrationTarget} (htarget : resolveTargetById targets targetId = .ok target) :
    ∃ file, (readAgentConfigWithTargets env targets targetId).Yields content file ∧
      ∀ url, file.ReportsUrl url ↔ agentUrl env content target = some url := by
  obtain ⟨files, hfiles⟩ := @buildAgentSourceFiles_yields content target.configDir target
    (primaryFile content target) ((content (target.configDir, primaryFile content target)).getD "")
  obtain ⟨config, editor, hconfig, heditor, hurl⟩ :=
    @readPayloads_yields env content target (agentRoot env content target)
  unfold readAgentConfigWithTargets
  rw [htarget, checked_ok]
  exact ⟨_, (Program.yields_pure target).bind ((resolveAgentConfigFile_yields target).bind
    ((readText_yields _).bind (hfiles.bind (hconfig.bind (heditor.bind
      (Program.yields_pure _)))))), hurl⟩

end Reading

/-! ### When an operation is served -/

section Operations

variable {env : AgentEnv} {configDir : String} {file : AgentFile} {faults : Faults}
  {s s' : State (String × AgentFile) String}

theorem checked_eq_ok {α : Type} {result : Except AppError α} {a : α} :
    (checked result : AgentIo α) faults s = (.ok a, s') ↔ result = .ok a ∧ s' = s := by
  rw [checked, Program.ofExcept_eq_ok]
  cases result <;> simp [Except.mapError, eq_comm]

theorem writeFileContent_eq_ok {text : String} {u : Unit} :
    writeFileContent configDir file text faults s = (.ok u, s') ↔
      (faults s.made = none ∧ faults (s.made + 1) = none) ∧
        s' = ⟨Function.update s.content (configDir, file) (some text), s.made + 2⟩ := by
  unfold writeFileContent
  rw [Program.bind_eq_ok]
  constructor
  · rintro ⟨_, _, hmake, hwrite⟩
    obtain ⟨hmade, rfl⟩ := Program.makeDirectory_eq_ok.1 hmake
    obtain ⟨hwritten, rfl⟩ := Program.write_eq_ok.1 hwrite
    exact ⟨⟨hmade, hwritten⟩, rfl⟩
  · rintro ⟨⟨hmake, hwrite⟩, rfl⟩
    exact ⟨(), _, Program.makeDirectory_eq_ok.2 ⟨hmake, rfl⟩,
      Program.write_eq_ok.2 ⟨hwrite, rfl⟩⟩

theorem readJsonLikeObject_eq_ok {root : Fields} :
    readJsonLikeObject env configDir file faults s = (.ok root, s') ↔
      ((s.content (configDir, file)).isSome = true → faults s.made = none) ∧
        jsonLikeObject env configDir file (s.content (configDir, file)) = .ok root ∧
          s' = ⟨s.content, s.made + 1⟩ :=
  Program.read_bind_eq_ok.trans (and_congr_right fun _ => checked_eq_ok)

theorem readTomlDocument_eq_ok {doc : TomlTable} :
    readTomlDocument env configDir file faults s = (.ok doc, s') ↔
      ((s.content (configDir, file)).isSome = true → faults s.made = none) ∧
        tomlDocument env configDir file (s.content (configDir, file)) = .ok doc ∧
          s' = ⟨s.content, s.made + 1⟩ :=
  Program.read_bind_eq_ok.trans (and_congr_right fun _ => checked_eq_ok)

theorem fileExists_eq_ok {isThere : Bool} :
    fileExists configDir file faults s = (.ok isThere, s') ↔
      ((s.content (configDir, file)).isSome = true → faults s.made = none) ∧
        isThere = (s.content (configDir, file)).isSome ∧ s' = ⟨s.content, s.made + 1⟩ :=
  Program.read_bind_eq_ok.trans (and_congr_right fun _ => Program.pure_eq_ok)

theorem readText_eq_ok {text : String} :
    readText configDir file faults s = (.ok text, s') ↔
      ((s.content (configDir, file)).isSome = true → faults s.made = none) ∧
        text = (s.content (configDir, file)).getD "" ∧ s' = ⟨s.content, s.made + 1⟩ :=
  Program.read_bind_eq_ok.trans (and_congr_right fun _ => Program.pure_eq_ok)

/-- What `preferredFile` looks at. -/
def choosing (content : AgentDisk) (configDir : String) (preferred legacy : AgentFile) :
    List (Program.Operation (String × AgentFile)) :=
  if (content (configDir, preferred)).isSome then [.read (configDir, preferred)]
  else [.read (configDir, preferred), .read (configDir, legacy)]

theorem preferredFile_eq_ok {preferred legacy : AgentFile} :
    preferredFile configDir preferred legacy faults s = (.ok file, s') ↔
      Program.Served faults s.content s.made (choosing s.content configDir preferred legacy) ∧
        file = chosenFile s.content configDir preferred legacy ∧
          s' = ⟨s.content,
            s.made + (choosing s.content configDir preferred legacy).length⟩ := by
  unfold preferredFile chosenFile choosing
  rw [Program.bind_eq_ok]
  by_cases hpreferred : (s.content (configDir, preferred)).isSome = true
  · rw [if_pos hpreferred, if_pos hpreferred]
    constructor
    · rintro ⟨_, _, hexists, hrest⟩
      obtain ⟨hserved, rfl, rfl⟩ := fileExists_eq_ok.1 hexists
      rw [if_pos hpreferred] at hrest
      cases hrest
      exact ⟨⟨hserved, trivial⟩, rfl, rfl⟩
    · rintro ⟨⟨hserved, -⟩, rfl, rfl⟩
      refine ⟨_, _, fileExists_eq_ok.2 ⟨hserved, rfl, rfl⟩, ?_⟩
      rw [if_pos hpreferred]
      rfl
  · rw [if_neg hpreferred, if_neg hpreferred]
    constructor
    · rintro ⟨_, _, hexists, hrest⟩
      obtain ⟨hserved, rfl, rfl⟩ := fileExists_eq_ok.1 hexists
      rw [if_neg hpreferred] at hrest
      obtain ⟨_, _, hlegacy, hpure⟩ := Program.bind_eq_ok.1 hrest
      obtain ⟨hserved', rfl, rfl⟩ := fileExists_eq_ok.1 hlegacy
      cases hpure
      exact ⟨⟨hserved, hserved', trivial⟩, rfl, rfl⟩
    · rintro ⟨⟨hserved, hserved', -⟩, rfl, rfl⟩
      refine ⟨_, _, fileExists_eq_ok.2 ⟨hserved, rfl, rfl⟩, ?_⟩
      rw [if_neg hpreferred, Program.bind_eq_ok]
      exact ⟨_, _, fileExists_eq_ok.2 ⟨hserved', rfl, rfl⟩, rfl⟩

end Operations

/-! ### When a file is written -/

section Writing

variable {env : AgentEnv} {configDir path : String} {faults : Faults}
  {s s' : State (String × AgentFile) String}

def putObject (env : AgentEnv) (content : AgentDisk) (configDir : String) (file : AgentFile)
    (root : Fields) : AgentDisk :=
  Function.update content (configDir, file) (some (env.toStringPretty (.obj root)))

theorem editJsonObject_ok {file : AgentFile} {edit : Fields → Fields}
    (h : editJsonObject env configDir file edit faults s = (.ok path, s')) :
    ∃ root, jsonLikeObject env configDir file (s.content (configDir, file)) = .ok root ∧
      s'.content = putObject env s.content configDir file (edit root) := by
  obtain ⟨root, _, hread, hrest⟩ := Program.bind_eq_ok.1 h
  obtain ⟨-, hroot, rfl⟩ := readJsonLikeObject_eq_ok.1 hread
  obtain ⟨_, _, hwrite, hpure⟩ := Program.bind_eq_ok.1 hrest
  obtain ⟨-, rfl⟩ := writeFileContent_eq_ok.1 hwrite
  cases hpure
  exact ⟨root, hroot, rfl⟩

/-- What `sync_openclaw_provider_to_models_file` does. -/
def syncing (content : AgentDisk) (configDir agentId : String) :
    List (Program.Operation (String × AgentFile)) :=
  choosing content configDir (.models agentId) (.legacyModels agentId) ++
    [.read (configDir, modelsFile content configDir agentId), .write, .write]

theorem sync_eq_ok {agentId providerId : String} {providerValue : Fields} {preserveExisting : Bool}
    {u : Unit} :
    syncOpenclawProviderToModelsFile env configDir agentId providerId providerValue
        preserveExisting faults s = (.ok u, s') ↔
      Program.Served faults s.content s.made (syncing s.content configDir agentId) ∧
        ∃ root, jsonLikeObject env configDir (modelsFile s.content configDir agentId)
            (s.content (configDir, modelsFile s.content configDir agentId)) = .ok root ∧
          s' = ⟨putObject env s.content configDir (modelsFile s.content configDir agentId)
              (syncProvider providerId providerValue preserveExisting root),
            s.made + (syncing s.content configDir agentId).length⟩ := by
  unfold syncOpenclawProviderToModelsFile resolveOpenclawModelsFile syncing putObject
  rw [Program.bind_eq_ok, Program.served_append, List.length_append]
  constructor
  · rintro ⟨_, _, hfile, hrest⟩
    obtain ⟨hserved, rfl, rfl⟩ := preferredFile_eq_ok.1 hfile
    obtain ⟨root, _, hread, hwrite⟩ := Program.bind_eq_ok.1 hrest
    obtain ⟨hserved', hroot, rfl⟩ := readJsonLikeObject_eq_ok.1 hread
    obtain ⟨⟨hmade, hwritten⟩, rfl⟩ := writeFileContent_eq_ok.1 hwrite
    exact ⟨⟨hserved, hserved', hmade, hwritten, trivial⟩, root, hroot, rfl⟩
  · rintro ⟨⟨hserved, hserved', hmade, hwritten, -⟩, root, hroot, rfl⟩
    refine ⟨_, _, preferredFile_eq_ok.2 ⟨hserved, rfl, rfl⟩, Program.bind_eq_ok.2 ⟨root, _,
      readJsonLikeObject_eq_ok.2 ⟨hserved', hroot, rfl⟩, ?_⟩⟩
    exact writeFileContent_eq_ok.2 ⟨⟨hmade, hwritten⟩, rfl⟩

theorem editChecked_eq_ok {file : AgentFile} {α : Type} {edit : Fields → Except AppError Fields}
    {answer : Fields → α} {a : α} :
    (readJsonLikeObject env configDir file >>= fun root => checked (edit root) >>= fun root' =>
        writeJsonObject env configDir file root' >>= fun _ => pure (answer root)) faults s =
        (.ok a, s') ↔
      Program.Served faults s.content s.made [.read (configDir, file), .write, .write] ∧
        ∃ root root', jsonLikeObject env configDir file (s.content (configDir, file)) = .ok root ∧
          a = answer root ∧ edit root = .ok root' ∧
            s' = ⟨putObject env s.content configDir file root', s.made + 3⟩ := by
  unfold putObject
  rw [Program.bind_eq_ok]
  constructor
  · rintro ⟨root, _, hread, hrest⟩
    obtain ⟨hserved, hroot, rfl⟩ := readJsonLikeObject_eq_ok.1 hread
    obtain ⟨root', _, hchecked, hrest'⟩ := Program.bind_eq_ok.1 hrest
    obtain ⟨hedit, rfl⟩ := checked_eq_ok.1 hchecked
    obtain ⟨_, _, hwrite, hpure⟩ := Program.bind_eq_ok.1 hrest'
    obtain ⟨⟨hmade, hwritten⟩, rfl⟩ := writeFileContent_eq_ok.1 hwrite
    cases hpure
    exact ⟨⟨hserved, hmade, hwritten, trivial⟩, root, root', hroot, rfl, hedit, rfl⟩
  · rintro ⟨⟨hserved, hmade, hwritten, -⟩, root, root', hroot, rfl, hedit, rfl⟩
    refine ⟨root, _, readJsonLikeObject_eq_ok.2 ⟨hserved, hroot, rfl⟩,
      Program.bind_eq_ok.2 ⟨root', _, checked_eq_ok.2 ⟨hedit, rfl⟩,
        Program.bind_eq_ok.2 ⟨(), _, writeFileContent_eq_ok.2 ⟨⟨hmade, hwritten⟩, rfl⟩, rfl⟩⟩⟩

theorem editJsonObject_eq_ok {file : AgentFile} {edit : Fields → Fields} {path : String} :
    editJsonObject env configDir file edit faults s = (.ok path, s') ↔
      Program.Served faults s.content s.made [.read (configDir, file), .write, .write] ∧
        ∃ root, jsonLikeObject env configDir file (s.content (configDir, file)) = .ok root ∧
          path = file.path configDir ∧
            s' = ⟨putObject env s.content configDir file (edit root), s.made + 3⟩ := by
  refine (@editChecked_eq_ok env configDir faults s s' file _ (fun root => .ok (edit root))
    (fun _ => file.path configDir) path).trans (and_congr_right fun _ => ?_)
  constructor
  · rintro ⟨root, _, hroot, hpath, hedit, hs⟩
    cases hedit
    exact ⟨root, hroot, hpath, hs⟩
  · rintro ⟨root, hroot, hpath, hs⟩
    exact ⟨root, _, hroot, hpath, rfl, hs⟩

theorem writeOpenclawPrimary_eq_ok {config : Option AgentConfig} {entryUrl : String}
    {editor : OpenClawEditorConfig} :
    writeOpenclawPrimary env configDir config entryUrl faults s = (.ok editor, s') ↔
      Program.Served faults s.content s.made
          [.read (configDir, .openclawJson), .write, .write] ∧
        ∃ root root', jsonLikeObject env configDir .openclawJson
            (s.content (configDir, .openclawJson)) = .ok root ∧
          editor = openclawEntryEditor config entryUrl root ∧
          formatOpenclawPrimarySource (openclawEntryEditor config entryUrl root) root = .ok root' ∧
            s' = ⟨putObject env s.content configDir .openclawJson root', s.made + 3⟩ :=
  @editChecked_eq_ok env configDir faults s s' .openclawJson _
    (fun root => formatOpenclawPrimarySource (openclawEntryEditor config entryUrl root) root)
    (openclawEntryEditor config entryUrl) editor

theorem modelsFile_putObject {content : AgentDisk} {agentId : String} {root : Fields} :
    modelsFile (putObject env content configDir .openclawJson root) configDir agentId =
      modelsFile content configDir agentId := by
  unfold modelsFile chosenFile putObject
  rw [Function.update_of_ne (by simp), Function.update_of_ne (by simp)]

end Writing

/-! ### What a group entry changes -/

section Entries

variable {env : AgentEnv} {target : IntegrationTarget} {entryUrl path : String}
  {content content' : AgentDisk}

inductive EntryWritten (env : AgentEnv) (target : IntegrationTarget) (entryUrl : String)
    (content : AgentDisk) : AgentDisk → Prop where
  | claude {root : Fields} (hkind : target.kind = .claude)
    (hroot : jsonLikeObject env (trimmed target.configDir) .settings
      (content (trimmed target.configDir, .settings)) = .ok root) :
    EntryWritten env target entryUrl content
      (putObject env content (trimmed target.configDir) .settings (setClaudeEntry entryUrl root))
  | opencode {root : Fields} {file : AgentFile} (hkind : target.kind = .opencode)
    (hfile : file = opencodeFile content (trimmed target.configDir))
    (hroot : jsonLikeObject env (trimmed target.configDir) file
      (content (trimmed target.configDir, file)) = .ok root) :
    EntryWritten env target entryUrl content
      (putObject env content (trimmed target.configDir) file (setOpencodeEntry entryUrl root))
  | codex {doc : TomlTable} {name : String} (hkind : target.kind = .codex)
    (hdoc : tomlDocument env (trimmed target.configDir) .configToml
      (content (trimmed target.configDir, .configToml)) = .ok doc)
    (hname : resolveCodexProviderNameFromDoc doc = .ok name) :
    EntryWritten env target entryUrl content
      (Function.update content (trimmed target.configDir, .configToml)
        (some (withNewline (env.tomlToString (setCodexEntry entryUrl name doc)))))
  | openclaw {root root' models : Fields} {file : AgentFile} (hkind : target.kind = .openclaw)
    (hfile : file = modelsFile content (trimmed target.configDir)
      (resolveOpenclawAgentId target.config))
    (hroot : jsonLikeObject env (trimmed target.configDir) .openclawJson
      (content (trimmed target.configDir, .openclawJson)) = .ok root)
    (hformat : formatOpenclawPrimarySource (openclawEntryEditor target.config entryUrl root) root =
      .ok root')
    (hmodels : jsonLikeObject env (trimmed target.configDir) file
      (content (trimmed target.configDir, file)) = .ok models) :
    EntryWritten env target entryUrl content
      (putObject env (putObject env content (trimmed target.configDir) .openclawJson root')
        (trimmed target.configDir) file
        (syncProvider (openclawEntryEditor target.config entryUrl root).providerId
          (buildOpenclawProviderSnapshot (openclawEntryEditor target.config entryUrl root) false)
          true models))

theorem modelsFile_ne_openclawJson (configDir agentId : String) :
    modelsFile content configDir agentId ≠ .openclawJson := by
  unfold modelsFile chosenFile
  split_ifs <;> simp

theorem openclawEntryEditor_agentId {config : Option AgentConfig} {root : Fields} :
    (openclawEntryEditor config entryUrl root).agentId = resolveOpenclawAgentId config := rfl

/-- **A group entry that is written has one of the forms.** -/
theorem writeTargetEntry_ok {faults : Faults} {s s' : State (String × AgentFile) String}
    (h : writeTargetEntry env target entryUrl faults s = (.ok path, s')) :
    EntryWritten env target entryUrl s.content s'.content := by
  unfold writeTargetEntry at h
  cases hplace : env.place (trimmed target.configDir) with
  | missing =>
    rw [hplace] at h
    cases h
  | noFolder =>
    rw [hplace] at h
    cases h
  | folder =>
    rw [hplace] at h
    -- each kind writes its own files; Codex and OpenClaw in more than one step
    cases hkind : target.kind with
    | claude =>
      rw [hkind] at h
      obtain ⟨root, hroot, hcontent⟩ := editJsonObject_ok h
      rw [hcontent]
      exact .claude hkind hroot
    | opencode =>
      rw [hkind] at h
      obtain ⟨file, _, hfile, hedit⟩ := Program.bind_eq_ok.1 h
      cases hfile
      obtain ⟨root, hroot, hcontent⟩ := editJsonObject_ok hedit
      rw [hcontent]
      exact .opencode hkind rfl hroot
    | codex =>
      rw [hkind] at h
      obtain ⟨doc, _, hread, hrest⟩ := Program.bind_eq_ok.1 h
      obtain ⟨-, hdoc, rfl⟩ := readTomlDocument_eq_ok.1 hread
      obtain ⟨name, _, hchecked, hrest'⟩ := Program.bind_eq_ok.1 hrest
      obtain ⟨hname, rfl⟩ := checked_eq_ok.1 hchecked
      obtain ⟨_, _, hwrite, hpure⟩ := Program.bind_eq_ok.1 hrest'
      obtain ⟨-, rfl⟩ := writeFileContent_eq_ok.1 hwrite
      obtain ⟨rfl, rfl⟩ := Program.pure_eq_ok.1 hpure
      dsimp only
      exact .codex hkind hdoc hname
    | openclaw =>
      rw [hkind] at h
      obtain ⟨editor, _, hprimary, hrest⟩ := Program.bind_eq_ok.1 h
      obtain ⟨-, root, root', hroot, rfl, hformat, rfl⟩ := writeOpenclawPrimary_eq_ok.1 hprimary
      obtain ⟨_, _, hsync, hpure⟩ := Program.bind_eq_ok.1 hrest
      obtain ⟨-, models, hmodels, rfl⟩ := sync_eq_ok.1 hsync
      obtain ⟨rfl, rfl⟩ := Program.pure_eq_ok.1 hpure
      dsimp only at hmodels ⊢
      rw [openclawEntryEditor_agentId, modelsFile_putObject] at hmodels ⊢
      rw [putObject, Function.update_of_ne (by simpa using modelsFile_ne_openclawJson _ _)]
        at hmodels
      exact .openclaw hkind rfl hroot hformat hmodels

theorem writeTargetEntry_openclaw (hplace : env.place (trimmed target.configDir) = .folder)
    (hkind : target.kind = .openclaw) {root models : Fields} {file : AgentFile}
    (hfile : file = modelsFile content (trimmed target.configDir)
      (resolveOpenclawAgentId target.config))
    (hroot : jsonLikeObject env (trimmed target.configDir) .openclawJson
      (content (trimmed target.configDir, .openclawJson)) = .ok root)
    (hname : trimmed (openclawEntryEditor target.config entryUrl root).providerId ≠ "")
    (hmodels : jsonLikeObject env (trimmed target.configDir) file
      (content (trimmed target.configDir, file)) = .ok models) :
    ∃ path s', writeTargetEntry env target entryUrl (fun _ => none) ⟨content, 0⟩ =
      (.ok path, s') := by
  have hformat : ∃ root', formatOpenclawPrimarySource
      (openclawEntryEditor target.config entryUrl root) root = .ok root' := by
    rw [formatOpenclawPrimarySource, if_neg hname]
    exact ⟨_, rfl⟩
  obtain ⟨root', hformat⟩ := hformat
  have hprimary : ∃ s₁, s₁.content =
        putObject env content (trimmed target.configDir) .openclawJson root' ∧
      writeOpenclawPrimary env (trimmed target.configDir) target.config entryUrl (fun _ => none)
        ⟨content, 0⟩ = (.ok (openclawEntryEditor target.config entryUrl root), s₁) :=
    ⟨⟨putObject env content (trimmed target.configDir) .openclawJson root', 0 + 3⟩, by dsimp only,
      writeOpenclawPrimary_eq_ok.2 (And.intro (Program.served_of_none _)
        ⟨root, root', hroot, rfl, hformat, by dsimp only⟩)⟩
  obtain ⟨s₁, hs₁, hprimary⟩ := hprimary
  -- the second file is the one that was there
  have hsame : s₁.content (trimmed target.configDir, file) =
      content (trimmed target.configDir, file) := by
    rw [hs₁, putObject, Function.update_of_ne
      (by simpa [hfile] using modelsFile_ne_openclawJson (trimmed target.configDir) _)]
  rw [← hsame, hfile, ← @modelsFile_putObject env _ _ _ root', ← hs₁] at hmodels
  obtain ⟨s₂, hsync⟩ : ∃ s₂, syncOpenclawProviderToModelsFile env (trimmed target.configDir)
      (openclawEntryEditor target.config entryUrl root).agentId
      (openclawEntryEditor target.config entryUrl root).providerId
      (buildOpenclawProviderSnapshot (openclawEntryEditor target.config entryUrl root) false) true
      (fun _ => none) s₁ = (.ok (), s₂) :=
    ⟨_, sync_eq_ok.2 (And.intro (Program.served_of_none _) ⟨models, hmodels, rfl⟩)⟩
  unfold writeTargetEntry writeOpenclawConfig
  rw [hplace, hkind]
  exact ⟨_, _, Program.bind_eq_ok.2 ⟨_, _, hprimary, Program.bind_eq_ok.2 ⟨(), _, hsync, rfl⟩⟩⟩

end Entries

end AiOpenRouter
