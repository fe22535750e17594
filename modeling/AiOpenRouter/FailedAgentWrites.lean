/-
Whether a failed write leaves the files of an agent alone.

A write of Claude or OpenCode changes one file; Codex and OpenClaw spread one update
over two files, and the second one is read only after the first was written.

* `atomicAt_iff`: a call changes nothing when it fails exactly when nothing fails
  behind its first write.
-/
import AiOpenRouter.AgentOutcomes
import AiOpenRouter.OpenclawWrites

namespace AiOpenRouter

open Files
open Json (Fields)

/-- A call that writes the files of an agent. -/
inductive AgentWrite where
  | writeEntry (target : IntegrationTarget) (entryUrl : String)
  | writeConfig (targets : List IntegrationTarget) (targetId : String) (config : AgentConfig)
  | writeSource (targets : List IntegrationTarget) (targetId content : String)
    (sourceId : Option String)

/-- The call, without its answer. -/
def AgentWrite.run (env : AgentEnv) : AgentWrite → AgentIo Unit
  | .writeEntry target entryUrl => do
    let _ ← writeTargetEntry env target entryUrl
    pure ()
  | .writeConfig targets targetId config => do
    let _ ← writeAgentConfigWithTargets env targets targetId config
    pure ()
  | .writeSource targets targetId content sourceId => do
    let _ ← writeAgentConfigSourceWithTargets env targets targetId content sourceId
    pure ()

/-! ### Parts that change nothing when they fail -/

section Parts

variable {env : AgentEnv} {configDir : String}

theorem readOnly_checked {α : Type} (result : Except AppError α) :
    (checked result : AgentIo α).ReadOnly := Program.readOnly_ofExcept _

variable (file : AgentFile)

theorem readOnly_fileExists : (fileExists configDir file).ReadOnly :=
  (Program.readOnly_read _ _).bind fun _ => Program.readOnly_pure _

theorem readOnly_readText : (readText configDir file).ReadOnly :=
  (Program.readOnly_read _ _).bind fun _ => Program.readOnly_pure _

theorem readOnly_readOptionalObject : (readOptionalObject env configDir file).ReadOnly :=
  (readOnly_readText file).bind fun _ => Program.readOnly_pure _

theorem readOnly_readJsonLikeObject : (readJsonLikeObject env configDir file).ReadOnly :=
  (Program.readOnly_read _ _).bind fun _ => readOnly_checked _

theorem readOnly_readTomlDocument : (readTomlDocument env configDir file).ReadOnly :=
  (Program.readOnly_read _ _).bind fun _ => readOnly_checked _

theorem readOnly_preferredFile (preferred legacy : AgentFile) :
    (preferredFile configDir preferred legacy).ReadOnly := by
  refine (readOnly_fileExists preferred).bind fun isPreferred => ?_
  cases isPreferred with
  | true => exact Program.readOnly_pure _
  | false => exact (readOnly_fileExists legacy).bind fun _ => Program.readOnly_pure _

theorem readOnly_resolveOpencodeConfigFile : (resolveOpencodeConfigFile configDir).ReadOnly :=
  (Program.readOnly_isFile _).bind fun _ => Program.readOnly_pure _

theorem readOnly_resolveAgentConfigFile (kind : IntegrationClientKind) :
    (resolveAgentConfigFile kind configDir).ReadOnly := by
  cases kind with
  | opencode => exact readOnly_resolveOpencodeConfigFile
  | _ => exact Program.readOnly_pure _

theorem readOnly_resolveAgentSourceFile (target : IntegrationTarget) (sourceId : Option String) :
    (resolveAgentSourceFile target configDir sourceId).ReadOnly := by
  unfold resolveAgentSourceFile
  split
  · exact readOnly_resolveAgentConfigFile _
  · dsimp only
    split_ifs
    · exact Program.readOnly_pure _
    · exact readOnly_preferredFile _ _
    · exact readOnly_preferredFile _ _
    · exact readOnly_resolveAgentConfigFile _
    · exact Program.readOnly_ofExcept _

theorem readOnly_readCheckedObject (given : Option Fields) :
    (readCheckedObject env configDir file given).ReadOnly := by
  cases given with
  | some root => exact Program.readOnly_pure _
  | none => exact (readOnly_readText file).bind fun _ => readOnly_checked _

theorem readOnly_checkOpenclawSources (target : IntegrationTarget) (sourceId : Option String)
    (parsedRoot : Fields) :
    (checkOpenclawSources env target configDir sourceId parsedRoot).ReadOnly :=
  (readOnly_readCheckedObject _ _).bind fun _ => (readOnly_preferredFile _ _).bind fun _ =>
    (readOnly_readCheckedObject _ _).bind fun _ => (readOnly_preferredFile _ _).bind fun _ =>
      (readOnly_readCheckedObject _ _).bind fun _ => (readOnly_checked _).bind fun _ =>
        Program.readOnly_pure _

theorem readOnly_readCodexSources (isAuth : Bool) (parsedRoot : Fields) :
    (readCodexSources env configDir isAuth parsedRoot).ReadOnly := by
  refine (readOnly_readText _).bind fun content => ?_
  cases isAuth with
  | true => exact (Program.readOnly_pure _).bind fun _ => Program.readOnly_pure _
  | false => exact (readOnly_readOptionalObject _).bind fun _ => Program.readOnly_pure _

theorem atomic_writeFileContent (text : String) : (writeFileContent configDir file text).Atomic :=
  Program.Atomic.bind (Program.readOnly_makeDirectory _) fun _ => Program.atomic_write _ _ _

theorem atomic_editJsonObject (edit : Fields → Fields) :
    (editJsonObject env configDir file edit).Atomic :=
  Program.Atomic.bind (readOnly_readJsonLikeObject file) fun _ =>
    (atomic_writeFileContent file _).map fun _ => _

theorem atomic_writeCodexConfig (entryUrl : String) :
    (writeCodexConfig env configDir entryUrl).Atomic :=
  Program.Atomic.bind (readOnly_readTomlDocument _) fun _ =>
    Program.Atomic.bind (readOnly_checked _) fun _ =>
      (atomic_writeFileContent _ _).map fun _ => _

theorem atomic_sync (agentId providerId : String) (providerValue : Fields)
    (preserveExisting : Bool) :
    (syncOpenclawProviderToModelsFile env configDir agentId providerId providerValue
      preserveExisting).Atomic :=
  Program.Atomic.bind (readOnly_preferredFile _ _) fun _ =>
    Program.Atomic.bind (readOnly_readJsonLikeObject _) fun _ => atomic_writeFileContent _ _

theorem atomic_writeOpenclawPrimary (config : Option AgentConfig) (entryUrl : String) :
    (writeOpenclawPrimary env configDir config entryUrl).Atomic :=
  Program.Atomic.bind (readOnly_readJsonLikeObject _) fun _ =>
    Program.Atomic.bind (readOnly_checked _) fun _ =>
      (atomic_writeFileContent _ _).map fun _ => _

theorem atomic_writeOpenclawFullPrimary (config : AgentConfig) :
    (writeOpenclawFullPrimary env configDir config).Atomic :=
  Program.Atomic.bind (readOnly_readJsonLikeObject _) fun _ =>
    Program.Atomic.bind (readOnly_checked _) fun _ =>
      (atomic_writeFileContent _ _).map fun _ => _

theorem atomic_writeCodexFullPrimary (config : AgentConfig) :
    (writeCodexFullPrimary env configDir config).Atomic :=
  Program.Atomic.bind (readOnly_readTomlDocument _) fun _ =>
    Program.Atomic.bind (Program.readOnly_ofExcept _) fun _ => atomic_writeFileContent _ _

end Parts

/-! ### What has to be served behind the first write -/

/-- Nothing fails when `models.json` is the next file to be written. -/
def ModelsServed (env : AgentEnv) (faults : Faults) (content : AgentDisk) (made : ℕ)
    (configDir agentId : String) : Prop :=
  Program.Served faults content made (syncing content configDir agentId) ∧
    ∃ models, jsonLikeObject env configDir (modelsFile content configDir agentId)
      (content (configDir, modelsFile content configDir agentId)) = .ok models

/-- Nothing fails when `auth.json` is the next file to be written. -/
def AuthServed (env : AgentEnv) (faults : Faults) (content : AgentDisk) (made : ℕ)
    (configDir : String) : Prop :=
  Program.Served faults content made [.read (configDir, .authJson), .write, .write] ∧
    ∃ auth, jsonLikeObject env configDir .authJson (content (configDir, .authJson)) = .ok auth

/-- Nothing fails behind the write of `openclaw.json`, or this write changes nothing. -/
def OpenclawWhole (env : AgentEnv) (faults : Faults) (s : State (String × AgentFile) String)
    (configDir agentId : String) (edit : Fields → Except AppError Fields) : Prop :=
  Program.Served faults s.content s.made [.read (configDir, .openclawJson), .write, .write] →
    ∀ root root', jsonLikeObject env configDir .openclawJson
        (s.content (configDir, .openclawJson)) = .ok root →
      edit root = .ok root' →
        ModelsServed env faults s.content (s.made + 3) configDir agentId ∨
          s.content (configDir, .openclawJson) = some (env.toStringPretty (.obj root'))

/-- Nothing fails behind the write of `config.toml`, or this write changes nothing. -/
def CodexWhole (env : AgentEnv) (faults : Faults) (s : State (String × AgentFile) String)
    (configDir : String) (config : AgentConfig) : Prop :=
  Program.Served faults s.content s.made [.read (configDir, .configToml), .write, .write] →
    ∀ doc text, tomlDocument env configDir .configToml
        (s.content (configDir, .configToml)) = .ok doc →
      codexConfigText env config doc = .ok text →
        AuthServed env faults s.content (s.made + 3) configDir ∨
          s.content (configDir, .configToml) = some text

def codexSourceFile : Option String → Option AgentFile
  | none => some .configToml
  | some source =>
    if source = "auth" then some .authJson
    else if source = "primary" then some .configToml else none

def codexReads (configDir : String) (isAuth : Bool) :
    List (Program.Operation (String × AgentFile)) :=
  if isAuth then [.read (configDir, .configToml)]
  else [.read (configDir, .configToml), .read (configDir, .authJson)]

def CodexSourceWhole (env : AgentEnv) (faults : Faults) (s : State (String × AgentFile) String)
    (configDir content : String) (source : Option String) : Prop :=
  ∀ file, codexSourceFile source = some file →
    ∀ root, (if source = some "auth" then parseJsonLikeContent env content (file.path configDir)
        else parseAgentConfigContent env .codex content (file.path configDir)) = .ok root →
      Program.Served faults s.content s.made [.write, .write] →
        Program.Served faults (Function.update s.content (configDir, file) (some content))
            (s.made + 2) (codexReads configDir (source = some "auth")) ∨
          s.content (configDir, file) = some content

/-- Nothing fails behind the first write of a call, or this write changes nothing. -/
def AgentWrite.Whole (env : AgentEnv) (faults : Faults) (s : State (String × AgentFile) String) :
    AgentWrite → Prop
  | .writeEntry target entryUrl =>
    env.place (trimmed target.configDir) = .folder → target.kind = .openclaw →
      OpenclawWhole env faults s (trimmed target.configDir) (resolveOpenclawAgentId target.config)
        fun root => formatOpenclawPrimarySource (openclawEntryEditor target.config entryUrl root)
          root
  | .writeConfig targets targetId config => ∀ target,
    resolveTargetById targets targetId = .ok target →
    (target.kind = .openclaw →
      OpenclawWhole env faults s target.configDir (resolveOpenclawAgentId (some config))
        (setOpenclawConfig (openclawEditorFromAgentConfig config))) ∧
    (target.kind = .codex → CodexWhole env faults s target.configDir config)
  | .writeSource targets targetId content sourceId =>
    ∀ target, resolveTargetById targets targetId = .ok target → target.kind = .codex →
      CodexSourceWhole env faults s target.configDir content (nonBlank sourceId)

section Whole

variable {env : AgentEnv} {configDir : String} {faults : Faults}
  {s s' : State (String × AgentFile) String}

variable {content : AgentDisk}

theorem update_eq_self {place : String × AgentFile} {text : String} :
    Function.update content place (some text) = content ↔ content place = some text := by
  rw [Function.update_eq_iff]
  exact ⟨fun h => h.1.symm, fun h => ⟨h.symm, fun _ _ => rfl⟩⟩

theorem modelsServed_putObject {made : ℕ} {agentId : String} {root : Fields} :
    ModelsServed env faults (putObject env content configDir .openclawJson root) made configDir
        agentId ↔
      ModelsServed env faults content made configDir agentId := by
  have hother : ∀ file, file ≠ .openclawJson →
      putObject env content configDir .openclawJson root (configDir, file) =
        content (configDir, file) :=
    fun file hfile => Function.update_of_ne (by simpa using hfile) _ _
  have hchoosing : syncing (putObject env content configDir .openclawJson root) configDir agentId =
      syncing content configDir agentId := by
    unfold syncing choosing
    rw [modelsFile_putObject, hother _ (by simp)]
  have hserved : Program.Served faults (putObject env content configDir .openclawJson root) made
      (syncing content configDir agentId) ↔
        Program.Served faults content made (syncing content configDir agentId) := by
    refine Program.served_congr fun place hplace => ?_
    have hfile : ∃ file, file ≠ .openclawJson ∧ place = (configDir, file) := by
      unfold syncing choosing at hplace
      rcases List.mem_append.1 hplace with hchosen | hwritten
      · split_ifs at hchosen
        · exact ⟨.models agentId, by simp, by simpa using hchosen⟩
        · rcases List.mem_pair.1 hchosen with h | h
          · exact ⟨.models agentId, by simp, by simpa using h⟩
          · exact ⟨.legacyModels agentId, by simp, by simpa using h⟩
      · exact ⟨_, modelsFile_ne_openclawJson configDir agentId, by simpa using hwritten⟩
    obtain ⟨file, hne, rfl⟩ := hfile
    rw [hother file hne]
  unfold ModelsServed
  rw [hchoosing, hserved, modelsFile_putObject, hother _ (modelsFile_ne_openclawJson _ _)]

theorem exists_sync_iff {agentId providerId : String} {providerValue : Fields}
    {preserveExisting : Bool} :
    (∃ s', syncOpenclawProviderToModelsFile env configDir agentId providerId providerValue
        preserveExisting faults s = (.ok (), s')) ↔
      ModelsServed env faults s.content s.made configDir agentId := by
  constructor
  · rintro ⟨s', hsync⟩
    obtain ⟨hserved, models, hmodels, -⟩ := sync_eq_ok.1 hsync
    exact And.intro hserved ⟨models, hmodels⟩
  · rintro ⟨hserved, models, hmodels⟩
    exact ⟨_, sync_eq_ok.2 (And.intro hserved ⟨models, hmodels, rfl⟩)⟩

/-- **A write of OpenClaw changes nothing when it fails exactly when nothing fails behind
`openclaw.json`.** -/
theorem openclaw_atomicAt_iff {p : AgentIo OpenClawEditorConfig} {path agentId : String}
    {edit : Fields → Except AppError Fields} {editorOf : Fields → OpenClawEditorConfig}
    {snapshot : OpenClawEditorConfig → Fields} {preserveExisting : Bool} (hatomic : p.Atomic)
    (hagent : ∀ root, (editorOf root).agentId = agentId)
    (hp : ∀ editor s', p faults s = (.ok editor, s') ↔
      Program.Served faults s.content s.made
          [.read (configDir, .openclawJson), .write, .write] ∧
        ∃ root root', jsonLikeObject env configDir .openclawJson
            (s.content (configDir, .openclawJson)) = .ok root ∧
          editor = editorOf root ∧ edit root = .ok root' ∧
            s' = ⟨putObject env s.content configDir .openclawJson root', s.made + 3⟩) :
    (p >>= fun editor =>
      (syncOpenclawProviderToModelsFile env configDir editor.agentId editor.providerId
        (snapshot editor) preserveExisting >>= fun _ => pure path)).AtomicAt faults s ↔
      OpenclawWhole env faults s configDir agentId edit := by
  rw [hatomic.bind_iff fun editor => (atomic_sync _ _ _ _).map fun _ => path]
  constructor
  · intro hall hserved root root' hroot hedit
    have hfirst :=
      (hp (editorOf root) _).2 (And.intro hserved ⟨root, root', hroot, rfl, hedit, rfl⟩)
    rcases hall _ _ hfirst with ⟨_, _, hrest⟩ | hsame
    · obtain ⟨_, _, hsync, -⟩ := Program.bind_eq_ok.1 hrest
      have hmodels := exists_sync_iff.1 ⟨_, hsync⟩
      rw [hagent] at hmodels
      exact .inl (modelsServed_putObject.1 hmodels)
    · exact .inr (update_eq_self.1 hsame)
  · intro hwhole editor s₁ hfirst
    obtain ⟨hserved, root, root', hroot, rfl, hedit, rfl⟩ := (hp editor s₁).1 hfirst
    rcases hwhole hserved root root' hroot hedit with hmodels | hsame
    · rw [← hagent root] at hmodels
      obtain ⟨_, hsync⟩ := (@exists_sync_iff env configDir faults
        ⟨putObject env s.content configDir .openclawJson root', s.made + 3⟩ (editorOf root).agentId
        (editorOf root).providerId (snapshot (editorOf root)) preserveExisting).2
          (modelsServed_putObject.2 hmodels)
      exact .inl ⟨path, _, Program.bind_eq_ok.2 ⟨(), _, hsync, rfl⟩⟩
    · exact .inr (update_eq_self.2 hsame)

theorem writeOpenclawFullPrimary_eq_ok {config : AgentConfig} {editor : OpenClawEditorConfig} :
    writeOpenclawFullPrimary env configDir config faults s = (.ok editor, s') ↔
      Program.Served faults s.content s.made
          [.read (configDir, .openclawJson), .write, .write] ∧
        ∃ root root', jsonLikeObject env configDir .openclawJson
            (s.content (configDir, .openclawJson)) = .ok root ∧
          editor = openclawEditorFromAgentConfig config ∧
          setOpenclawConfig (openclawEditorFromAgentConfig config) root = .ok root' ∧
            s' = ⟨putObject env s.content configDir .openclawJson root', s.made + 3⟩ :=
  @editChecked_eq_ok env configDir faults s s' .openclawJson _
    (setOpenclawConfig (openclawEditorFromAgentConfig config))
    (fun _ => openclawEditorFromAgentConfig config) editor

theorem writeCodexFullPrimary_eq_ok {config : AgentConfig} {u : Unit} :
    writeCodexFullPrimary env configDir config faults s = (.ok u, s') ↔
      Program.Served faults s.content s.made [.read (configDir, .configToml), .write, .write] ∧
        ∃ doc text, tomlDocument env configDir .configToml
            (s.content (configDir, .configToml)) = .ok doc ∧
          codexConfigText env config doc = .ok text ∧
            s' = ⟨Function.update s.content (configDir, .configToml) (some text), s.made + 3⟩ := by
  unfold writeCodexFullPrimary
  rw [Program.bind_eq_ok]
  constructor
  · rintro ⟨doc, _, hread, hrest⟩
    obtain ⟨hserved, hdoc, rfl⟩ := readTomlDocument_eq_ok.1 hread
    obtain ⟨text, _, hset, hwrite⟩ := Program.bind_eq_ok.1 hrest
    obtain ⟨htext, rfl⟩ := Program.ofExcept_eq_ok.1 hset
    obtain ⟨⟨hmade, hwritten⟩, rfl⟩ := writeFileContent_eq_ok.1 hwrite
    exact ⟨⟨hserved, hmade, hwritten, trivial⟩, doc, text, hdoc, htext, rfl⟩
  · rintro ⟨⟨hserved, hmade, hwritten, -⟩, doc, text, hdoc, htext, rfl⟩
    refine ⟨doc, _, readTomlDocument_eq_ok.2 ⟨hserved, hdoc, rfl⟩,
      Program.bind_eq_ok.2 ⟨text, _, Program.ofExcept_eq_ok.2 ⟨htext, rfl⟩, ?_⟩⟩
    exact writeFileContent_eq_ok.2 ⟨⟨hmade, hwritten⟩, rfl⟩

theorem authServed_update {made : ℕ} {text : String} :
    AuthServed env faults (Function.update content (configDir, .configToml) (some text)) made
        configDir ↔
      AuthServed env faults content made configDir := by
  have hother : Function.update content (configDir, .configToml) (some text)
      (configDir, .authJson) = content (configDir, .authJson) :=
    Function.update_of_ne (by simp) _ _
  have hserved : Program.Served faults
      (Function.update content (configDir, .configToml) (some text)) made
        [.read (configDir, .authJson), .write, .write] ↔
      Program.Served faults content made [.read (configDir, .authJson), .write, .write] := by
    refine Program.served_congr fun place hplace => ?_
    obtain rfl : place = (configDir, .authJson) := by simpa using hplace
    rw [hother]
  unfold AuthServed
  rw [hserved, hother]

/-- **A write of Codex changes nothing when it fails exactly when nothing fails behind
`config.toml`.** -/
theorem codex_atomicAt_iff {config : AgentConfig} :
    (writeCodexFullConfig env configDir config).AtomicAt faults s ↔
      CodexWhole env faults s configDir config := by
  have hsecond : ∀ _ : Unit, (readJsonLikeObject env configDir .authJson >>= fun authRoot =>
      writeJsonObject env configDir .authJson (setCodexAuth config authRoot) >>= fun _ =>
        (pure (AgentFile.path configDir .configToml) : AgentIo String)).Atomic :=
    fun _ => Program.Atomic.bind (readOnly_readJsonLikeObject _) fun _ =>
      (atomic_writeFileContent _ _).map fun _ => _
  unfold writeCodexFullConfig
  rw [(atomic_writeCodexFullPrimary config).bind_iff hsecond]
  constructor
  · intro hall hserved doc text hdoc htext
    rcases hall () _ (writeCodexFullPrimary_eq_ok.2
      (And.intro hserved ⟨doc, text, hdoc, htext, rfl⟩)) with ⟨_, _, hrest⟩ | hsame
    · obtain ⟨hserved', auth, _, hauth, -⟩ := (@editChecked_eq_ok env configDir faults _ _
        .authJson _ (fun root => .ok (setCodexAuth config root)) _ _).1 hrest
      exact .inl (authServed_update.1 (And.intro hserved' ⟨auth, hauth⟩))
    · exact .inr (update_eq_self.1 hsame)
  · intro hwhole u s₁ hfirst
    obtain ⟨hserved, doc, text, hdoc, htext, rfl⟩ := writeCodexFullPrimary_eq_ok.1 hfirst
    rcases hwhole hserved doc text hdoc htext with hauth | hsame
    · obtain ⟨hserved', auth, hauth⟩ := authServed_update.2 hauth
      exact .inl ⟨_, _, (@editChecked_eq_ok env configDir faults _ _ .authJson _
        (fun root => .ok (setCodexAuth config root)) (fun _ => AgentFile.path configDir .configToml)
        _).2 (And.intro hserved' ⟨auth, _, hauth, rfl, rfl, rfl⟩)⟩
    · exact .inr (update_eq_self.2 hsame)

theorem readCodexSources_served {isAuth : Bool} {parsedRoot : Fields} :
    (∃ config s', readCodexSources env configDir isAuth parsedRoot faults s = (.ok config, s')) ↔
      Program.Served faults s.content s.made (codexReads configDir isAuth) := by
  unfold readCodexSources
  cases isAuth with
  | true =>
    constructor
    · rintro ⟨_, _, hread⟩
      obtain ⟨_, _, htext, -⟩ := Program.bind_eq_ok.1 hread
      exact ⟨(readText_eq_ok.1 htext).1, trivial⟩
    · rintro ⟨hserved, -⟩
      exact ⟨_, _, Program.bind_eq_ok.2 ⟨_, _, readText_eq_ok.2 ⟨hserved, rfl, rfl⟩, rfl⟩⟩
  | false =>
    constructor
    · rintro ⟨_, _, hread⟩
      obtain ⟨_, _, htext, hrest⟩ := Program.bind_eq_ok.1 hread
      obtain ⟨hserved, -, rfl⟩ := readText_eq_ok.1 htext
      obtain ⟨_, _, hauth, -⟩ := Program.bind_eq_ok.1 hrest
      obtain ⟨_, _, htext', -⟩ := Program.bind_eq_ok.1 hauth
      exact ⟨hserved, (readText_eq_ok.1 htext').1, trivial⟩
    · rintro ⟨hserved, hserved', -⟩
      exact ⟨_, _, Program.bind_eq_ok.2 ⟨_, _, readText_eq_ok.2 ⟨hserved, rfl, rfl⟩,
        Program.bind_eq_ok.2 ⟨_, _, Program.bind_eq_ok.2
          ⟨_, _, readText_eq_ok.2 ⟨hserved', rfl, rfl⟩, rfl⟩, rfl⟩⟩⟩

theorem nonBlank_nonBlank (raw : Option String) : nonBlank (nonBlank raw) = nonBlank raw := by
  rcases hraw : nonBlank raw with _ | text
  · rfl
  · obtain ⟨s, -, htext, hne⟩ := nonBlank_eq_some.1 hraw
    exact nonBlank_of_trimmed (htext ▸ trimmed_trimmed s) hne

theorem resolveAgentSourceFile_codex {target : IntegrationTarget} (hkind : target.kind = .codex)
    {sourceId : Option String} {file : AgentFile} :
    resolveAgentSourceFile target configDir (nonBlank sourceId) faults s = (.ok file, s') ↔
      codexSourceFile (nonBlank sourceId) = some file ∧ s' = s := by
  unfold resolveAgentSourceFile codexSourceFile
  rw [nonBlank_nonBlank, hkind]
  rcases nonBlank sourceId with _ | source
  · exact Program.pure_eq_ok.trans (by rw [Option.some_inj, @eq_comm _ file])
  · dsimp only
    by_cases hauth : source = "auth"
    · rw [if_pos ⟨rfl, hauth⟩, if_pos hauth]
      exact Program.pure_eq_ok.trans (by rw [Option.some_inj, @eq_comm _ file])
    · have hother : ∀ p : Prop, ¬ (IntegrationClientKind.codex = .openclaw ∧ p) :=
        fun _ h => nomatch h.1
      rw [if_neg fun h => hauth h.2, if_neg hauth, if_neg (hother _), if_neg (hother _)]
      by_cases hprimary : source = "primary"
      · rw [if_pos hprimary, if_pos hprimary]
        exact Program.pure_eq_ok.trans (by rw [Option.some_inj, @eq_comm _ file])
      · rw [if_neg hprimary, if_neg hprimary]
        constructor
        · intro hrefused
          cases hrefused
        · rintro ⟨hnone, -⟩
          cases hnone

end Whole

/-! ### The calls -/

section Calls

variable {env : AgentEnv} {faults : Faults} {s : State (String × AgentFile) String}

variable {target : IntegrationTarget}

theorem writeTargetEntry_atomicAt_iff {entryUrl : String} :
    (writeTargetEntry env target entryUrl).AtomicAt faults s ↔
      (AgentWrite.writeEntry target entryUrl).Whole env faults s := by
  unfold writeTargetEntry AgentWrite.Whole
  dsimp only
  cases hplace : env.place (trimmed target.configDir) with
  | missing => exact iff_of_true ((Program.readOnly_ofExcept _).atomic _ _) fun h => nomatch h
  | noFolder => exact iff_of_true ((Program.readOnly_ofExcept _).atomic _ _) fun h => nomatch h
  | folder =>
    cases hkind : target.kind with
    | claude => exact iff_of_true (atomic_editJsonObject _ _ _ _) fun _ h => nomatch h
    | codex => exact iff_of_true (atomic_writeCodexConfig _ _ _) fun _ h => nomatch h
    | opencode =>
      refine iff_of_true (Program.Atomic.bind readOnly_resolveOpencodeConfigFile
        (fun file => ?_) _ _)
        fun _ h => nomatch h
      exact atomic_editJsonObject file _
    | openclaw =>
      rw [forall_prop_of_true rfl, forall_prop_of_true rfl]
      exact openclaw_atomicAt_iff (atomic_writeOpenclawPrimary _ _) (fun _ => rfl)
        fun _ _ => writeOpenclawPrimary_eq_ok

theorem atomicAt_checked_iff {α β : Type} {result : Except AppError α} {next : α → AgentIo β} :
    (checked result >>= next).AtomicAt faults s ↔
      ∀ a, result = .ok a → (next a).AtomicAt faults s := by
  rw [Program.atomicAt_bind_iff (readOnly_checked _)]
  refine forall_congr' fun a => ⟨fun hall hresult => ?_, fun hnext s' h => ?_⟩
  · exact hall s (checked_eq_ok.2 ⟨hresult, rfl⟩)
  · obtain ⟨hresult, rfl⟩ := checked_eq_ok.1 h
    exact hnext hresult

theorem writeAgentConfigWithTargets_atomicAt_iff {targets : List IntegrationTarget}
    {targetId : String} {config : AgentConfig} :
    (writeAgentConfigWithTargets env targets targetId config).AtomicAt faults s ↔
      (AgentWrite.writeConfig targets targetId config).Whole env faults s := by
  unfold writeAgentConfigWithTargets AgentWrite.Whole
  rw [atomicAt_checked_iff]
  refine forall_congr' fun target => imp_congr_right fun _ => ?_
  cases target.kind with
  | claude =>
    exact iff_of_true ((atomic_editJsonObject _ _).map _ _ _)
      ⟨fun h => (nomatch h), fun h => nomatch h⟩
  | opencode =>
    refine iff_of_true (((Program.Atomic.bind readOnly_resolveOpencodeConfigFile fun file => ?_).map
      _) _ _) ⟨fun h => (nomatch h), fun h => nomatch h⟩
    exact atomic_editJsonObject file _
  | codex =>
    exact (Program.atomicAt_map_iff _).trans (codex_atomicAt_iff.trans
      ⟨fun h => ⟨fun h => (nomatch h), fun _ => h⟩, fun h => h.2 rfl⟩)
  | openclaw =>
    refine (Program.atomicAt_map_iff _).trans (Iff.trans ?_
      ⟨fun h => ⟨fun _ => h, fun h => (nomatch h)⟩, fun h => h.1 rfl⟩)
    exact openclaw_atomicAt_iff (atomic_writeOpenclawFullPrimary _) (fun _ => rfl)
      fun _ _ => writeOpenclawFullPrimary_eq_ok

theorem atomic_writeSource (hkind : target.kind ≠ .codex) (file : AgentFile) (content : String)
    (sourceId : Option String) (parsedRoot : Fields) :
    (writeSource env target file content sourceId parsedRoot).Atomic := by
  unfold writeSource
  cases hagent : target.kind with
  | codex => exact absurd hagent hkind
  | openclaw =>
    exact Program.Atomic.bind (readOnly_checkOpenclawSources _ _ _) fun _ =>
      (atomic_writeFileContent _ _).map fun _ => _
  | claude => exact (atomic_writeFileContent _ _).map fun _ => _
  | opencode => exact (atomic_writeFileContent _ _).map fun _ => _

theorem writeSource_atomicAt_iff (hkind : target.kind = .codex) {file : AgentFile}
    {content : String} {sourceId : Option String} {parsedRoot : Fields} :
    (writeSource env target file content sourceId parsedRoot).AtomicAt faults s ↔
      (Program.Served faults s.content s.made [.write, .write] →
        Program.Served faults (Function.update s.content (target.configDir, file) (some content))
            (s.made + 2) (codexReads target.configDir (sourceId = some "auth")) ∨
          s.content (target.configDir, file) = some content) := by
  unfold writeSource
  rw [hkind]
  refine ((atomic_writeFileContent file content).bind_iff
    fun _ => (readOnly_readCodexSources _ _).atomic).trans ?_
  constructor
  · rintro hall ⟨hmade, hwritten, -⟩
    rcases hall () _ (writeFileContent_eq_ok.2 ⟨⟨hmade, hwritten⟩, rfl⟩) with hrest | hsame
    · exact .inl (readCodexSources_served.1 hrest)
    · exact .inr (update_eq_self.1 hsame)
  · intro hwhole u s₁ hwrite
    obtain ⟨⟨hmade, hwritten⟩, rfl⟩ := writeFileContent_eq_ok.1 hwrite
    rcases hwhole ⟨hmade, hwritten, trivial⟩ with hserved | hsame
    · exact .inl (readCodexSources_served.2 hserved)
    · exact .inr (update_eq_self.2 hsame)

theorem writeAgentConfigSourceWithTargets_atomicAt_iff {targets : List IntegrationTarget}
    {targetId content : String} {sourceId : Option String} :
    (writeAgentConfigSourceWithTargets env targets targetId content sourceId).AtomicAt faults s ↔
      (AgentWrite.writeSource targets targetId content sourceId).Whole env faults s := by
  unfold writeAgentConfigSourceWithTargets AgentWrite.Whole CodexSourceWhole
  rw [atomicAt_checked_iff]
  refine forall_congr' fun target => imp_congr_right fun _ => ?_
  dsimp only
  by_cases hkind : target.kind = .codex
  · rw [forall_prop_of_true hkind, Program.atomicAt_bind_iff (readOnly_resolveAgentSourceFile _ _)]
    refine forall_congr' fun file => ?_
    have htail : ∀ root, (writeSource env target file content (nonBlank sourceId) root >>=
        fun config => pure (⟨true, targetId, file.path target.configDir, none⟩, config) :
          AgentIo (WriteAgentConfigResult × Option AgentConfig)).AtomicAt faults s ↔ _ :=
      fun root => (Program.atomicAt_map_iff _).trans (writeSource_atomicAt_iff hkind)
    constructor
    · intro hall hfile root hroot
      have h := hall s ((resolveAgentSourceFile_codex hkind).2 ⟨hfile, rfl⟩)
      rw [atomicAt_checked_iff] at h
      refine (htail root).1 (h root ?_)
      simpa only [hkind, true_and] using hroot
    · intro hwhole s' hresolve
      obtain ⟨hfile, rfl⟩ := (resolveAgentSourceFile_codex hkind).1 hresolve
      refine atomicAt_checked_iff.2 fun root hroot => (htail root).2 (hwhole hfile root ?_)
      simpa only [hkind, true_and] using hroot
  · refine iff_of_true (Program.Atomic.bind (readOnly_resolveAgentSourceFile _ _) (fun file => ?_)
      _ _) fun h => absurd h hkind
    exact Program.Atomic.bind (readOnly_checked _) fun _ => (atomic_writeSource hkind _ _ _ _).map _

end Calls

/-- **A call changes no file when it fails exactly when nothing fails behind its first write, or
this write changes nothing.** -/
theorem AgentWrite.atomicAt_iff (env : AgentEnv) (call : AgentWrite) (faults : Faults)
    (s : State (String × AgentFile) String) :
    (call.run env).AtomicAt faults s ↔ call.Whole env faults s := by
  cases call with
  | writeEntry target entryUrl =>
    exact (Program.atomicAt_map_iff _).trans writeTargetEntry_atomicAt_iff
  | writeConfig targets targetId config =>
    exact (Program.atomicAt_map_iff _).trans writeAgentConfigWithTargets_atomicAt_iff
  | writeSource targets targetId content sourceId =>
    exact (Program.atomicAt_map_iff _).trans writeAgentConfigSourceWithTargets_atomicAt_iff

def freshOpenclaw : IntegrationTarget := ⟨"t2", .openclaw, "/home/u/.openclaw", none, ""⟩

/-- The disk is full when `models.json` is written. -/
def diskFull : Faults := fun n => if n = 7 then some "No space left on device" else none

/-- **A write that fails at `models.json` has written `openclaw.json`.** -/
theorem not_atomicAt_diskFull :
    ¬ ∀ (env : AgentEnv) (call : AgentWrite) (faults : Faults)
        (s : State (String × AgentFile) String), (call.run env).AtomicAt faults s := by
  intro h
  have hrun : ∃ e s', ((AgentWrite.writeEntry freshOpenclaw "http://127.0.0.1:8899/oc/dev").run
      AgentEnv.plain) diskFull ⟨fun _ => none, 0⟩ = (.error e, s') ∧
        (s'.content ("/home/u/.openclaw", .openclawJson)).isSome = true := ⟨_, _, rfl, rfl⟩
  obtain ⟨e, s', hrun, hwritten⟩ := hrun
  rw [h _ _ _ _ e s' hrun] at hwritten
  cases hwritten

end AiOpenRouter
