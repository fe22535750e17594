/-
Which paths the writes of an agent's files lead to.

All files have fixed names, in the directory of the target or, for the second files of
OpenClaw, in that of an agent, whose id is joined as it is.

* `changes_writeEntry` and its siblings: the files that a call changes;
* `within_openclawAgentRoot_iff`: what an agent id has to be like;
* `contained_iff`: a call stays in the directory of its target exactly when the agent's
  directory does.
-/
import AiOpenRouter.EntryTakesEffect
import AiOpenRouter.FailedAgentWrites

namespace AiOpenRouter

open Files
open Json (Fields)

/-! ### Where the files are -/

def AgentFile.agent : AgentFile → Option String
  | .models agentId | .legacyModels agentId => some agentId
  | .authProfiles agentId | .legacyAuthProfiles agentId => some agentId
  | _ => none

theorem AgentFile.isName (file : AgentFile) : Paths.IsName file.fileName := by
  have hmodels : Paths.IsName "models.json" := by decide
  have hauthProfiles : Paths.IsName "auth-profiles.json" := by decide
  cases file with
  | models agentId => exact hmodels
  | legacyModels agentId => exact hmodels
  | authProfiles agentId => exact hauthProfiles
  | legacyAuthProfiles agentId => exact hauthProfiles
  | _ => decide

variable {configDir agentId : String} {file : AgentFile}

theorem AgentFile.below_path_iff {base : String} :
    Paths.Below base (file.path configDir) ↔ Paths.Within base (file.folder configDir) :=
  Paths.below_join_name_iff file.isName

theorem AgentFile.folder_of_none (h : file.agent = none) : file.folder configDir = configDir := by
  cases file with
  | models agentId => cases h
  | legacyModels agentId => cases h
  | authProfiles agentId => cases h
  | legacyAuthProfiles agentId => cases h
  | _ => rfl

theorem AgentFile.below_path_of_agent {base : String} (h : file.agent = some agentId)
    (hroot : Paths.Within base (openclawAgentRoot configDir agentId)) :
    Paths.Below base (file.path configDir) := by
  have hname : Paths.IsName "agent" := by decide
  rw [AgentFile.below_path_iff]
  cases file with
  | models id =>
    cases h
    exact hroot.join_name hname
  | authProfiles id =>
    cases h
    exact hroot.join_name hname
  | legacyModels id =>
    cases h
    exact hroot
  | legacyAuthProfiles id =>
    cases h
    exact hroot
  | _ => cases h

/-- **The directory of an agent stays in that of the target just if the agent id is no absolute path
that leads elsewhere, and as a relative one never climbs above it, or comes back.** -/
theorem within_openclawAgentRoot_iff :
    Paths.Within configDir (openclawAgentRoot configDir agentId) ↔
      if Paths.isAbsolute agentId then Paths.Within configDir agentId
      else (Paths.resolve configDir).Returns
        (Paths.walk ("agents".toList :: Paths.components agentId)) := by
  have hagents : Paths.IsName "agents" := by decide
  unfold openclawAgentRoot
  by_cases habsolute : Paths.isAbsolute agentId = true
  · rw [if_pos habsolute, Paths.join_of_absolute habsolute]
  · rw [if_neg habsolute, ← Paths.within_foldl_iff, Paths.Within,
      Paths.resolve_join (by simpa using habsolute), Paths.resolve_join_name hagents,
      List.foldl_cons]
    rfl

/-! ### What the calls change -/

def FilesOf (configDir : String) (agents : String → Prop) (place : String × AgentFile) : Prop :=
  place.1 = configDir ∧ ∀ agentId, place.2.agent = some agentId → agents agentId

theorem filesOf_of_none {agents : String → Prop} (h : file.agent = none) :
    FilesOf configDir agents (configDir, file) :=
  ⟨rfl, fun _ hagent => nomatch h.symm.trans hagent⟩

theorem agent_chosenFile {content : AgentDisk} {preferred legacy : AgentFile}
    (hpreferred : preferred.agent = some agentId) (hlegacy : legacy.agent = some agentId) :
    (chosenFile content configDir preferred legacy).agent = some agentId := by
  unfold chosenFile
  split_ifs
  · exact hpreferred
  · exact hlegacy
  · exact hpreferred

section Changes

variable {env : AgentEnv} {configDir : String} {agents : String → Prop}

variable {file : AgentFile} {agentId : String}

theorem changesOnly_writeFileContent (hfile : FilesOf configDir agents (configDir, file))
    (text : String) :
    (writeFileContent configDir file text).ChangesOnly (FilesOf configDir agents) :=
  (Program.readOnly_makeDirectory _).changesOnly.bind fun _ =>
    Program.changesOnly_write _ hfile text

theorem changesOnly_editJsonObject (hfile : FilesOf configDir agents (configDir, file))
    (edit : Fields → Fields) :
    (editJsonObject env configDir file edit).ChangesOnly (FilesOf configDir agents) :=
  (readOnly_readJsonLikeObject file).changesOnly.bind fun _ =>
    (changesOnly_writeFileContent hfile _).map _

theorem changesOnly_opencode (edit : Fields → Fields) :
    (resolveOpencodeConfigFile configDir >>= fun file =>
      editJsonObject env configDir file edit).ChangesOnly (FilesOf configDir agents) := by
  refine readOnly_resolveOpencodeConfigFile.changesOnly.bind_of_ok
    fun faults s file s' hfile => changesOnly_editJsonObject ?_ edit
  obtain ⟨isJsonc, _, -, hpure⟩ := Program.bind_eq_ok.1 hfile
  obtain ⟨rfl, -⟩ := Program.pure_eq_ok.1 hpure
  cases isJsonc <;> exact filesOf_of_none rfl

theorem changesOnly_preferredFile {α : Type} {preferred legacy : AgentFile}
    (hpreferred : preferred.agent = some agentId) (hlegacy : legacy.agent = some agentId)
    (hagent : agents agentId) {next : AgentFile → AgentIo α}
    (hnext : ∀ file, FilesOf configDir agents (configDir, file) →
      (next file).ChangesOnly (FilesOf configDir agents)) :
    (preferredFile configDir preferred legacy >>= next).ChangesOnly (FilesOf configDir agents) := by
  refine (readOnly_preferredFile _ _).changesOnly.bind_of_ok
    fun faults s file s' hfile => hnext file ⟨rfl, fun id hid => ?_⟩
  obtain ⟨-, rfl, -⟩ := preferredFile_eq_ok.1 hfile
  rw [agent_chosenFile hpreferred hlegacy] at hid
  exact Option.some.inj hid ▸ hagent

theorem changesOnly_sync (hagent : agents agentId) (providerId : String) (providerValue : Fields)
    (preserveExisting : Bool) :
    (syncOpenclawProviderToModelsFile env configDir agentId providerId providerValue
      preserveExisting).ChangesOnly (FilesOf configDir agents) :=
  changesOnly_preferredFile rfl rfl hagent fun _ hfile =>
    (readOnly_readJsonLikeObject _).changesOnly.bind fun _ => changesOnly_writeFileContent hfile _

theorem changesOnly_writeOpenclawPrimary (config : Option AgentConfig) (entryUrl : String) :
    (writeOpenclawPrimary env configDir config entryUrl).ChangesOnly (FilesOf configDir agents) :=
  (readOnly_readJsonLikeObject _).changesOnly.bind fun _ =>
    (readOnly_checked _).changesOnly.bind fun _ =>
      (changesOnly_writeFileContent (filesOf_of_none rfl) _).map _

theorem changesOnly_writeOpenclawFullPrimary (config : AgentConfig) :
    (writeOpenclawFullPrimary env configDir config).ChangesOnly (FilesOf configDir agents) :=
  (readOnly_readJsonLikeObject _).changesOnly.bind fun _ =>
    (readOnly_checked _).changesOnly.bind fun _ =>
      (changesOnly_writeFileContent (filesOf_of_none rfl) _).map _

theorem changesOnly_writeOpenclawConfig {config : Option AgentConfig}
    (hagent : agents (resolveOpenclawAgentId config)) (entryUrl : String) :
    (writeOpenclawConfig env configDir config entryUrl).ChangesOnly (FilesOf configDir agents) := by
  refine (changesOnly_writeOpenclawPrimary config entryUrl).bind_of_ok
    fun faults s editor s' hprimary => (changesOnly_sync ?_ _ _ _).map _
  obtain ⟨-, root, root', -, rfl, -⟩ := writeOpenclawPrimary_eq_ok.1 hprimary
  exact hagent

theorem changesOnly_writeOpenclawFullConfig {config : AgentConfig}
    (hagent : agents (resolveOpenclawAgentId (some config))) :
    (writeOpenclawFullConfig env configDir config).ChangesOnly (FilesOf configDir agents) := by
  refine (changesOnly_writeOpenclawFullPrimary config).bind_of_ok
    fun faults s editor s' hprimary => (changesOnly_sync ?_ _ _ _).map _
  obtain ⟨-, root, root', -, rfl, -⟩ := writeOpenclawFullPrimary_eq_ok.1 hprimary
  exact hagent

theorem changesOnly_writeCodexConfig (entryUrl : String) :
    (writeCodexConfig env configDir entryUrl).ChangesOnly (FilesOf configDir agents) :=
  (readOnly_readTomlDocument _).changesOnly.bind fun _ =>
    (readOnly_checked _).changesOnly.bind fun _ =>
      (changesOnly_writeFileContent (filesOf_of_none rfl) _).map _

theorem changesOnly_writeCodexFullConfig (config : AgentConfig) :
    (writeCodexFullConfig env configDir config).ChangesOnly (FilesOf configDir agents) := by
  have hprimary : (writeCodexFullPrimary env configDir config).ChangesOnly
      (FilesOf configDir agents) :=
    (readOnly_readTomlDocument _).changesOnly.bind fun _ =>
      (Program.readOnly_ofExcept _).changesOnly.bind fun _ =>
        changesOnly_writeFileContent (filesOf_of_none rfl) _
  exact hprimary.bind fun _ => (readOnly_readJsonLikeObject _).changesOnly.bind fun _ =>
    (changesOnly_writeFileContent (filesOf_of_none rfl) _).map _

theorem resolveAgentSourceFile_agent {target : IntegrationTarget} {sourceId : Option String}
    {faults : Faults} {s s' : State (String × AgentFile) String}
    (h : resolveAgentSourceFile target configDir sourceId faults s = (.ok file, s'))
    (hagent : file.agent = some agentId) :
    target.kind = .openclaw ∧ agentId = resolveOpenclawAgentId target.config ∧
      (nonBlank sourceId = some "models" ∨ nonBlank sourceId = some "auth-profiles") := by
  have hprimary : ∀ {s : State (String × AgentFile) String},
      resolveAgentConfigFile target.kind configDir faults s ≠ (.ok file, s') := by
    intro s hfile
    unfold resolveAgentConfigFile at hfile
    cases hkind : target.kind with
    | opencode =>
      rw [hkind] at hfile
      obtain ⟨isJsonc, _, -, hpure⟩ := Program.bind_eq_ok.1 hfile
      obtain ⟨rfl, -⟩ := Program.pure_eq_ok.1 hpure
      cases isJsonc <;> cases hagent
    | _ =>
      rw [hkind] at hfile
      obtain ⟨rfl, -⟩ := Program.pure_eq_ok.1 hfile
      cases hagent
  unfold resolveAgentSourceFile at h
  rcases hsource : nonBlank sourceId with _ | source
  · rw [hsource] at h
    exact absurd h hprimary
  · rw [hsource] at h
    dsimp only at h
    split_ifs at h with hauth hprofiles hmodels
    · obtain ⟨rfl, -⟩ := Program.pure_eq_ok.1 h
      cases hagent
    · obtain ⟨-, rfl, -⟩ := preferredFile_eq_ok.1 h
      rw [agent_chosenFile rfl rfl] at hagent
      exact ⟨hprofiles.1, (Option.some.inj hagent).symm, .inr (congrArg some hprofiles.2)⟩
    · obtain ⟨-, rfl, -⟩ := preferredFile_eq_ok.1 h
      rw [agent_chosenFile rfl rfl] at hagent
      exact ⟨hmodels.1, (Option.some.inj hagent).symm, .inl (congrArg some hmodels.2)⟩
    · exact absurd h hprimary
    · cases h

theorem changesOnly_writeSource {target : IntegrationTarget}
    (hfile : FilesOf target.configDir agents (target.configDir, file)) (content : String)
    (sourceId : Option String) (parsedRoot : Fields) :
    (writeSource env target file content sourceId parsedRoot).ChangesOnly
      (FilesOf target.configDir agents) := by
  have hwrite := changesOnly_writeFileContent hfile content
  unfold writeSource
  cases target.kind with
  | codex => exact hwrite.bind fun _ => (readOnly_readCodexSources _ _).changesOnly
  | openclaw =>
    exact (readOnly_checkOpenclawSources _ _ _).changesOnly.bind fun _ => hwrite.map _
  | claude => exact hwrite.map _
  | opencode => exact hwrite.map _

end Changes

theorem parseJsonLikeContent_eq_ok {env : AgentEnv} {content path path' : String} {root : Fields}
    (h : parseJsonLikeContent env content path = .ok root) :
    parseJsonLikeContent env content path' = .ok root := by
  have hroot : ∀ {value : Json}, rootObject path value = .ok root →
      rootObject path' value = .ok root := by
    intro value hvalue
    cases value with
    | obj fields => exact hvalue
    | _ => cases hvalue
  unfold parseJsonLikeContent at h ⊢
  split_ifs at h ⊢ with hblank
  · exact h
  · cases hread : env.fromStr content with
    | ok value =>
      rw [hread] at h
      exact hroot h
    | error e =>
      rw [hread] at h
      cases hread5 : env.json5 content with
      | ok value =>
        rw [hread5] at h
        exact hroot h
      | error e =>
        rw [hread5] at h
        cases h

/-! ### The calls -/

def AgentWrite.target : AgentWrite → Option IntegrationTarget
  | .writeEntry target _ => some target
  | .writeConfig targets targetId _ => (resolveTargetById targets targetId).toOption
  | .writeSource targets targetId _ _ => (resolveTargetById targets targetId).toOption

def AgentWrite.Changes (env : AgentEnv) (call : AgentWrite) (place : String × AgentFile) : Prop :=
  ∃ faults s, (call.run env faults s).2.content place ≠ s.content place

/-- All that a call changes is below the directory of its target. -/
def AgentWrite.Contained (env : AgentEnv) (call : AgentWrite) : Prop :=
  ∀ place, call.Changes env place →
    ∃ target, call.target = some target ∧ Paths.Below target.configDir (place.2.path place.1)

/-- A group entry of Codex is written to some `config.toml` that does not read so already. -/
def CodexEntryChanges (env : AgentEnv) (configDir entryUrl : String) : Prop :=
  ∃ text doc name, tomlDocument env configDir .configToml (some text) = .ok doc ∧
    resolveCodexProviderNameFromDoc doc = .ok name ∧
      withNewline (env.tomlToString (setCodexEntry entryUrl name doc)) ≠ text

/-- The directory without the blanks around it is still in the directory of the target, and so is
the one of the agent. -/
def EntryInside (env : AgentEnv) (target : IntegrationTarget) (entryUrl : String) : Prop :=
  let configDir := trimmed target.configDir
  env.place configDir = .folder →
    (target.kind = .codex → CodexEntryChanges env configDir entryUrl) →
      Paths.Within target.configDir configDir ∧
        (target.kind = .openclaw → Paths.Within target.configDir
          (openclawAgentRoot configDir (resolveOpenclawAgentId target.config)))

/-- The directory of the agent is in that of the target, where a call writes there. -/
def AgentWrite.Inside (env : AgentEnv) : AgentWrite → Prop
  | .writeEntry target entryUrl => EntryInside env target entryUrl
  | .writeConfig targets targetId config =>
    ∀ target, resolveTargetById targets targetId = .ok target → target.kind = .openclaw →
      Paths.Within target.configDir
        (openclawAgentRoot target.configDir (resolveOpenclawAgentId (some config)))
  | .writeSource targets targetId content sourceId =>
    ∀ target, resolveTargetById targets targetId = .ok target → target.kind = .openclaw →
      (nonBlank sourceId = some "models" ∨ nonBlank sourceId = some "auth-profiles") →
        (∃ root, parseJsonLikeContent env content "" = .ok root) →
          Paths.Within target.configDir
            (openclawAgentRoot target.configDir (resolveOpenclawAgentId target.config))

section Calls

variable {env : AgentEnv} {target : IntegrationTarget} {targets : List IntegrationTarget}
  {targetId : String} {place : String × AgentFile}

def EntryAgent (target : IntegrationTarget) (agentId : String) : Prop :=
  target.kind = .openclaw ∧ agentId = resolveOpenclawAgentId target.config

theorem codexEntryChanges_of {configDir entryUrl : String} {faults : Faults}
    {s : State (String × AgentFile) String}
    (h : (writeCodexConfig env configDir entryUrl faults s).2.content place ≠ s.content place) :
    CodexEntryChanges env configDir entryUrl := by
  rcases hrun : writeCodexConfig env configDir entryUrl faults s with ⟨e | path, s'⟩
  · rw [hrun] at h
    exact absurd (congrFun (atomic_writeCodexConfig entryUrl faults s e s' hrun) place) h
  · rw [hrun] at h
    obtain ⟨doc, _, hread, hrest⟩ := Program.bind_eq_ok.1 hrun
    obtain ⟨-, hdoc, rfl⟩ := readTomlDocument_eq_ok.1 hread
    obtain ⟨name, _, hchecked, hrest'⟩ := Program.bind_eq_ok.1 hrest
    obtain ⟨hname, rfl⟩ := checked_eq_ok.1 hchecked
    obtain ⟨_, _, hwrite, hpure⟩ := Program.bind_eq_ok.1 hrest'
    obtain ⟨-, rfl⟩ := writeFileContent_eq_ok.1 hwrite
    obtain ⟨rfl, rfl⟩ := Program.pure_eq_ok.1 hpure
    rcases hold : s.content (configDir, .configToml) with _ | text
    · rw [hold] at hdoc
      cases hdoc
      cases hname
    · rw [hold] at hdoc
      refine ⟨text, doc, name, hdoc, hname, fun hsame => h ?_⟩
      exact congrFun (update_eq_self.2 (hold.trans (congrArg some hsame.symm))) place

theorem changes_writeEntry {entryUrl : String}
    (h : (AgentWrite.writeEntry target entryUrl).Changes env place) :
    env.place (trimmed target.configDir) = .folder ∧
      (target.kind = .codex → CodexEntryChanges env (trimmed target.configDir) entryUrl) ∧
        FilesOf (trimmed target.configDir) (EntryAgent target) place := by
  obtain ⟨faults, s, hchanged⟩ := h
  rw [AgentWrite.run, Program.map_snd, writeTargetEntry] at hchanged
  cases hplace : env.place (trimmed target.configDir) with
  | missing =>
    rw [hplace] at hchanged
    exact absurd rfl hchanged
  | noFolder =>
    rw [hplace] at hchanged
    exact absurd rfl hchanged
  | folder =>
    rw [hplace] at hchanged
    refine ⟨rfl, ?_⟩
    cases hkind : target.kind with
    | claude =>
      rw [hkind] at hchanged
      exact ⟨fun h => (nomatch h),
        changesOnly_editJsonObject (filesOf_of_none rfl) _ faults s place hchanged⟩
    | opencode =>
      rw [hkind] at hchanged
      exact ⟨fun h => (nomatch h), changesOnly_opencode _ faults s place hchanged⟩
    | openclaw =>
      rw [hkind] at hchanged
      exact ⟨fun h => (nomatch h),
        changesOnly_writeOpenclawConfig ⟨hkind, rfl⟩ entryUrl faults s place hchanged⟩
    | codex =>
      rw [hkind] at hchanged
      exact ⟨fun _ => codexEntryChanges_of hchanged,
        changesOnly_writeCodexConfig entryUrl faults s place hchanged⟩

def ConfigFiles (targets : List IntegrationTarget) (targetId : String) (config : AgentConfig)
    (place : String × AgentFile) : Prop :=
  ∃ target, resolveTargetById targets targetId = .ok target ∧
    FilesOf target.configDir (fun agentId => target.kind = .openclaw ∧
      agentId = resolveOpenclawAgentId (some config)) place

theorem changesOnly_writeConfig (config : AgentConfig) :
    (writeAgentConfigWithTargets env targets targetId config).ChangesOnly
      (ConfigFiles targets targetId config) := by
  refine (readOnly_checked _).changesOnly.bind_of_ok fun faults s target s' htarget => ?_
  obtain ⟨htarget, -⟩ := checked_eq_ok.1 htarget
  refine Program.ChangesOnly.mono ?_ fun place hplace => ⟨target, htarget, hplace⟩
  cases hkind : target.kind with
  | claude => exact (changesOnly_editJsonObject (filesOf_of_none rfl) _).map _
  | opencode => exact (changesOnly_opencode _).map _
  | codex => exact (changesOnly_writeCodexFullConfig config).map _
  | openclaw =>
    have hfull := @changesOnly_writeOpenclawFullConfig env target.configDir
      (fun agentId => IntegrationClientKind.openclaw = .openclaw ∧
        agentId = resolveOpenclawAgentId (some config)) config ⟨rfl, rfl⟩
    exact hfull.map _

def SourceFiles (env : AgentEnv) (targets : List IntegrationTarget) (targetId content : String)
    (sourceId : Option String) (place : String × AgentFile) : Prop :=
  ∃ target, resolveTargetById targets targetId = .ok target ∧
    FilesOf target.configDir (fun agentId => target.kind = .openclaw ∧
      agentId = resolveOpenclawAgentId target.config ∧
        (nonBlank sourceId = some "models" ∨ nonBlank sourceId = some "auth-profiles") ∧
          ∃ root, parseJsonLikeContent env content "" = .ok root) place

theorem changesOnly_writeAgentConfigSource (content : String) (sourceId : Option String) :
    (writeAgentConfigSourceWithTargets env targets targetId content sourceId).ChangesOnly
      (SourceFiles env targets targetId content sourceId) := by
  refine (readOnly_checked _).changesOnly.bind_of_ok fun faults s target s' htarget => ?_
  obtain ⟨htarget, -⟩ := checked_eq_ok.1 htarget
  refine Program.ChangesOnly.mono ?_ fun place hplace => ⟨target, htarget, hplace⟩
  refine (readOnly_resolveAgentSourceFile _ _).changesOnly.bind_of_ok
    fun faults s file s' hfile => ?_
  refine (readOnly_checked _).changesOnly.bind_of_ok fun faults s root s' hroot => ?_
  obtain ⟨hroot, -⟩ := checked_eq_ok.1 hroot
  refine (changesOnly_writeSource ⟨rfl, fun agentId hagent => ?_⟩ _ _ _).map _
  obtain ⟨hkind, hid, hsource⟩ := resolveAgentSourceFile_agent hfile hagent
  rw [nonBlank_nonBlank] at hsource
  rw [hkind, if_neg (fun h => nomatch h.1)] at hroot
  exact ⟨hkind, hid, hsource, root, parseJsonLikeContent_eq_ok hroot⟩

end Calls

/-! ### Runs that write -/

section Runs

variable {env : AgentEnv} {configDir : String} {target : IntegrationTarget}

variable {content : AgentDisk} {file : AgentFile} {entryUrl : String} (config : Option AgentConfig)

theorem editJsonObject_none {edit : Fields → Fields} (hnone : content (configDir, file) = none) :
    editJsonObject env configDir file edit (fun _ => none) ⟨content, 0⟩ =
      (.ok (file.path configDir), ⟨putObject env content configDir file (edit []), 3⟩) := by
  refine (@editChecked_eq_ok env configDir _ ⟨content, 0⟩ _ file _ (fun root => .ok (edit root))
    (fun _ => file.path configDir) _).2 (And.intro (Program.served_of_none _) ?_)
  refine ⟨[], edit [], ?_, rfl, rfl, rfl⟩
  show jsonLikeObject env configDir file (content (configDir, file)) = _
  rw [hnone]
  rfl

theorem putObject_self {root : Fields} :
    putObject env content configDir file root (configDir, file) =
      some (env.toStringPretty (.obj root)) := Function.update_self _ _ _

theorem resolveOpenclawProviderName_ne_blank (primaryRoot : Fields) (modelsRoot : Option Fields)
    (config : Option AgentConfig) :
    trimmed (resolveOpenclawProviderName primaryRoot modelsRoot config) ≠ "" := by
  have hdefault : trimmed "aor_shared" ≠ "" := by decide
  have hpicked : ∀ {keys : List String} {key}, pickProvider keys = some key → trimmed key ≠ "" := by
    intro keys key hkey
    unfold pickProvider at hkey
    split_ifs at hkey
    · exact Option.some.inj hkey ▸ hdefault
    · simpa using List.find?_some hkey
  unfold resolveOpenclawProviderName
  rcases hexplicit : nonBlank (config.bind AgentConfig.providerId) with _ | providerId
  · dsimp only
    generalize hname : Option.or (α := String) _ _ = name
    rcases name with _ | name
    · exact hdefault
    · rcases Option.or_eq_some_iff.1 hname with hprimary | ⟨-, hmodels⟩
      · obtain ⟨providers, -, hkey⟩ := Option.bind_eq_some_iff.1 hprimary
        exact hpicked hkey
      · obtain ⟨root, -, hroot⟩ := Option.bind_eq_some_iff.1 hmodels
        obtain ⟨providers, -, hkey⟩ := Option.bind_eq_some_iff.1 hroot
        exact hpicked hkey
  · obtain ⟨text, -, htrim, hne⟩ := nonBlank_eq_some.1 hexplicit
    rw [← htrim, trimmed_trimmed, htrim]
    exact hne

/-- Only the old `models.json` of an agent is there, and it is empty. -/
def legacyModelsOnly (configDir agentId : String) : AgentDisk :=
  Function.update (fun _ => none) (configDir, .legacyModels agentId) (some "")

theorem print_ne_empty (fields : Fields) : env.toStringPretty (.obj fields) ≠ "" := by
  intro hempty
  have hblank := env.print_ne_blank fields
  rw [hempty] at hblank
  exact hblank (by decide)

/-- The old `models.json` is written when only that is there. -/
theorem sync_writes {made : ℕ} {agentId : String} (providerId : String) (providerValue : Fields)
    (preserveExisting : Bool) (hfile : modelsFile content configDir agentId = .legacyModels agentId)
    (hold : content (configDir, .legacyModels agentId) = some "") :
    (syncOpenclawProviderToModelsFile env configDir agentId providerId providerValue
      preserveExisting (fun _ => none) ⟨content, made⟩).2.content
        (configDir, .legacyModels agentId) ≠ some "" := by
  have hroot : jsonLikeObject env configDir (modelsFile content configDir agentId)
      (content (configDir, modelsFile content configDir agentId)) = .ok [] := by
    rw [hfile, hold]
    rfl
  have hrun := (@sync_eq_ok env configDir (fun _ => none) ⟨content, made⟩ _ agentId providerId
    providerValue preserveExisting ()).2
      (And.intro (Program.served_of_none _) ⟨[], hroot, rfl⟩)
  rw [hrun]
  dsimp only
  rw [hfile, putObject_self]
  simpa using print_ne_empty _

theorem openclaw_writes {p : AgentIo OpenClawEditorConfig} {path : String}
    (providerId : OpenClawEditorConfig → String) (providerValue : OpenClawEditorConfig → Fields)
    (preserveExisting : Bool) {editor : OpenClawEditorConfig} {root : Fields}
    (hp : p (fun _ => none) ⟨legacyModelsOnly configDir editor.agentId, 0⟩ = (.ok editor,
      ⟨putObject env (legacyModelsOnly configDir editor.agentId) configDir .openclawJson root,
        3⟩)) :
    ((p >>= fun editor =>
      syncOpenclawProviderToModelsFile env configDir editor.agentId (providerId editor)
        (providerValue editor) preserveExisting >>= fun _ =>
          (pure path : AgentIo String)) (fun _ => none)
            ⟨legacyModelsOnly configDir editor.agentId, 0⟩).2.content
              (configDir, .legacyModels editor.agentId) ≠ some "" := by
  rw [Program.bind_apply_ok hp, Program.map_snd]
  refine sync_writes _ _ _ ?_ ?_
  · rw [modelsFile_putObject]
    simp [modelsFile, chosenFile, legacyModelsOnly]
  · rw [putObject, Function.update_of_ne (by simp), legacyModelsOnly, Function.update_self]

theorem jsonLikeObject_legacyModelsOnly (agentId : String) :
    jsonLikeObject env configDir .openclawJson
      (legacyModelsOnly configDir agentId (configDir, .openclawJson)) = .ok [] := by
  rw [legacyModelsOnly, Function.update_of_ne (by simp)]
  rfl

theorem writeOpenclawConfig_writes (entryUrl : String) :
    (writeOpenclawConfig env configDir config entryUrl (fun _ => none)
      ⟨legacyModelsOnly configDir (resolveOpenclawAgentId config), 0⟩).2.content
        (configDir, .legacyModels (resolveOpenclawAgentId config)) ≠ some "" := by
  obtain ⟨root, hformat⟩ : ∃ root, formatOpenclawPrimarySource
      (openclawEntryEditor config entryUrl []) [] = .ok root :=
    ⟨_, formatOpenclawPrimarySource_eq_ok.2
      ⟨resolveOpenclawProviderName_ne_blank [] none config, rfl⟩⟩
  have hprimary := (@writeOpenclawPrimary_eq_ok env configDir (fun _ => none)
    ⟨legacyModelsOnly configDir (resolveOpenclawAgentId config), 0⟩ _ config entryUrl _).2
      (And.intro (Program.served_of_none _)
        ⟨[], root, jsonLikeObject_legacyModelsOnly _, rfl, hformat, rfl⟩)
  exact @openclaw_writes env configDir (writeOpenclawPrimary env configDir config entryUrl)
    (AgentFile.path configDir .openclawJson) OpenClawEditorConfig.providerId
    (fun editor => buildOpenclawProviderSnapshot editor false) true
    (openclawEntryEditor config entryUrl []) root hprimary

theorem changes_legacyModels_entry (hkind : target.kind = .openclaw)
    (hplace : env.place (trimmed target.configDir) = .folder) :
    (AgentWrite.writeEntry target entryUrl).Changes env
      (trimmed target.configDir, .legacyModels (resolveOpenclawAgentId target.config)) := by
  refine ⟨fun _ => none, ⟨legacyModelsOnly (trimmed target.configDir)
    (resolveOpenclawAgentId target.config), 0⟩, ?_⟩
  have hold : legacyModelsOnly (trimmed target.configDir) (resolveOpenclawAgentId target.config)
      (trimmed target.configDir, .legacyModels (resolveOpenclawAgentId target.config)) =
        some "" := Function.update_self _ _ _
  rw [AgentWrite.run, Program.map_snd, writeTargetEntry, hplace, hkind]
  dsimp only
  rw [hold]
  exact writeOpenclawConfig_writes target.config entryUrl

theorem changes_legacyModels_config {targets : List IntegrationTarget} {targetId : String}
    {config : AgentConfig} (htarget : resolveTargetById targets targetId = .ok target)
    (hkind : target.kind = .openclaw) :
    (AgentWrite.writeConfig targets targetId config).Changes env
      (target.configDir, .legacyModels (resolveOpenclawAgentId (some config))) := by
  refine ⟨fun _ => none, ⟨legacyModelsOnly target.configDir
    (resolveOpenclawAgentId (some config)), 0⟩, ?_⟩
  have hold : legacyModelsOnly target.configDir (resolveOpenclawAgentId (some config))
      (target.configDir, .legacyModels (resolveOpenclawAgentId (some config))) =
        some "" := Function.update_self _ _ _
  have hblank : trimmed (openclawEditorFromAgentConfig config).providerId ≠ "" := by
    show trimmed ((nonBlank config.providerId).getD "aor_shared") ≠ ""
    rcases hprovider : nonBlank config.providerId with _ | providerId
    · decide
    · obtain ⟨text, -, htrim, hne⟩ := nonBlank_eq_some.1 hprovider
      rw [Option.getD_some, ← htrim, trimmed_trimmed, htrim]
      exact hne
  have hset : ∃ root, setOpenclawConfig (openclawEditorFromAgentConfig config) [] = .ok root := by
    rw [setOpenclawConfig, formatOpenclawPrimarySource_eq_ok.2 ⟨hblank, rfl⟩]
    exact ⟨_, rfl⟩
  obtain ⟨root, hset⟩ := hset
  have hprimary := (@writeOpenclawFullPrimary_eq_ok env target.configDir (fun _ => none)
    ⟨legacyModelsOnly target.configDir (resolveOpenclawAgentId (some config)), 0⟩ _ config _).2
      (And.intro (Program.served_of_none _)
        ⟨[], root, jsonLikeObject_legacyModelsOnly _, rfl, hset, rfl⟩)
  rw [AgentWrite.run, Program.map_snd, writeAgentConfigWithTargets, htarget, checked_ok,
    Program.bind_apply_ok (Program.pure_apply target), hkind]
  dsimp only
  rw [Program.map_snd]
  have hwritten := @openclaw_writes env target.configDir
    (writeOpenclawFullPrimary env target.configDir config)
    (AgentFile.path target.configDir .openclawJson) OpenClawEditorConfig.providerId
    (fun editor => buildOpenclawProviderSnapshot editor true) false
    (openclawEditorFromAgentConfig config) _ hprimary
  exact fun hsame => hwritten (hsame.trans hold)

theorem sync_openclawJson {agentId providerId : String} {providerValue : Fields}
    {preserveExisting : Bool} {faults : Faults} {s : State (String × AgentFile) String} :
    (syncOpenclawProviderToModelsFile env configDir agentId providerId providerValue
      preserveExisting faults s).2.content (configDir, .openclawJson) =
        s.content (configDir, .openclawJson) := by
  rcases hrun : syncOpenclawProviderToModelsFile env configDir agentId providerId providerValue
    preserveExisting faults s with ⟨e | _, s'⟩
  · exact congrFun (atomic_sync _ _ _ _ faults s e s' hrun) _
  · obtain ⟨-, root, -, rfl⟩ := sync_eq_ok.1 hrun
    have hne := @modelsFile_ne_openclawJson s.content configDir agentId
    exact Function.update_of_ne (by simpa using hne.symm) _ _

theorem writeOpenclawConfig_writes_openclawJson (entryUrl : String) :
    (writeOpenclawConfig env configDir config entryUrl (fun _ => none)
      ⟨fun _ => none, 0⟩).2.content (configDir, .openclawJson) ≠ none := by
  obtain ⟨root, hformat⟩ : ∃ root, formatOpenclawPrimarySource
      (openclawEntryEditor config entryUrl []) [] = .ok root :=
    ⟨_, formatOpenclawPrimarySource_eq_ok.2
      ⟨resolveOpenclawProviderName_ne_blank [] none config, rfl⟩⟩
  have hprimary := (@writeOpenclawPrimary_eq_ok env configDir (fun _ => none)
    ⟨fun _ => none, 0⟩ _ config entryUrl _).2
      (And.intro (Program.served_of_none _) ⟨[], root, rfl, rfl, hformat, rfl⟩)
  rw [writeOpenclawConfig, Program.bind_apply_ok hprimary, Program.map_snd, sync_openclawJson]
  dsimp only
  rw [putObject_self]
  exact Option.some_ne_none _

theorem writeCodexConfig_writes {text name : String} {doc : TomlTable}
    (hdoc : tomlDocument env configDir .configToml (some text) = .ok doc)
    (hname : resolveCodexProviderNameFromDoc doc = .ok name)
    (hcontent : content (configDir, .configToml) = some text) :
    (writeCodexConfig env configDir entryUrl (fun _ => none) ⟨content, 0⟩).2.content
      (configDir, .configToml) =
        some (withNewline (env.tomlToString (setCodexEntry entryUrl name doc))) := by
  have hold : tomlDocument env configDir .configToml (content (configDir, .configToml)) =
      .ok doc := by
    rw [hcontent]
    exact hdoc
  have hread : readTomlDocument env configDir .configToml (fun _ => none) ⟨content, 0⟩ =
      (.ok doc, ⟨content, 1⟩) := readTomlDocument_eq_ok.2 ⟨fun _ => rfl, hold, rfl⟩
  have hchecked : ∀ {s : State (String × AgentFile) String},
      (checked (resolveCodexProviderNameFromDoc doc) : AgentIo String) (fun _ => none) s =
        (.ok name, s) := checked_eq_ok.2 ⟨hname, rfl⟩
  have hwrite := (@writeFileContent_eq_ok configDir .configToml (fun _ => none) ⟨content, 1⟩ _
    (withNewline (env.tomlToString (setCodexEntry entryUrl name doc))) ()).2 ⟨⟨rfl, rfl⟩, rfl⟩
  rw [writeCodexConfig, Program.bind_apply_ok hread, Program.bind_apply_ok hchecked,
    Program.bind_apply_ok hwrite]
  exact Function.update_self _ _ _

theorem changes_plain_entry (hplace : env.place (trimmed target.configDir) = .folder)
    (hcodex : target.kind = .codex → CodexEntryChanges env (trimmed target.configDir) entryUrl) :
    ∃ file, file.agent = none ∧ (AgentWrite.writeEntry target entryUrl).Changes env
      (trimmed target.configDir, file) := by
  cases hkind : target.kind with
  | claude =>
    refine ⟨.settings, rfl, fun _ => none, ⟨fun _ => none, 0⟩, ?_⟩
    rw [AgentWrite.run, Program.map_snd, writeTargetEntry, hplace, hkind]
    dsimp only
    rw [writeClaudeSettings, editJsonObject_none rfl]
    dsimp only
    rw [putObject_self]
    exact Option.some_ne_none _
  | opencode =>
    refine ⟨.opencodeJson, rfl, fun _ => none, ⟨fun _ => none, 0⟩, ?_⟩
    rw [AgentWrite.run, Program.map_snd, writeTargetEntry, hplace, hkind]
    dsimp only
    have hfile : resolveOpencodeConfigFile (trimmed target.configDir) (fun _ => none)
        ⟨fun _ => none, 0⟩ = (.ok .opencodeJson, ⟨fun _ => none, 0⟩) := rfl
    rw [writeOpencodeConfig, Program.bind_apply_ok hfile, editJsonObject_none rfl]
    dsimp only
    rw [putObject_self]
    exact Option.some_ne_none _
  | openclaw =>
    refine ⟨.openclawJson, rfl, fun _ => none, ⟨fun _ => none, 0⟩, ?_⟩
    rw [AgentWrite.run, Program.map_snd, writeTargetEntry, hplace, hkind]
    dsimp only
    exact writeOpenclawConfig_writes_openclawJson target.config entryUrl
  | codex =>
    obtain ⟨text, doc, name, hdoc, hname, hne⟩ := hcodex hkind
    refine ⟨.configToml, rfl, fun _ => none, ⟨Function.update (fun _ => none)
      (trimmed target.configDir, .configToml) (some text), 0⟩, ?_⟩
    rw [AgentWrite.run, Program.map_snd, writeTargetEntry, hplace, hkind]
    dsimp only
    rw [writeCodexConfig_writes hdoc hname (Function.update_self _ _ _), Function.update_self]
    simpa using hne

/-- A provider without anything, under the name that is looked for. -/
def bareProvider (config : Option AgentConfig) : Fields :=
  [("models", .obj [("providers", .obj
    [((nonBlank (config.bind AgentConfig.providerId)).getD "aor_shared", .obj [])])])]

theorem getOpenclawProvidersObject_bareProvider :
    getOpenclawProvidersObject (bareProvider config) =
      some [((nonBlank (config.bind AgentConfig.providerId)).getD "aor_shared", .obj [])] := rfl

theorem resolveOpenclawProviderName_bareProvider (modelsRoot : Option Fields) :
    resolveOpenclawProviderName (bareProvider config) modelsRoot config =
      (nonBlank (config.bind AgentConfig.providerId)).getD "aor_shared" := by
  unfold resolveOpenclawProviderName
  rcases hexplicit : nonBlank (config.bind AgentConfig.providerId) with _ | providerId
  · have hproviders := getOpenclawProvidersObject_bareProvider config
    rw [hexplicit] at hproviders
    dsimp only
    rw [hproviders]
    rfl
  · rfl

theorem validate_bareProvider (models authProfiles : Fields) :
    validateOpenclawEditorConfig
      (parseOpenclawEditorConfig (bareProvider config) (some models) (some authProfiles) config)
        (bareProvider config) (some models) (some authProfiles) = .ok () := by
  have hname : (parseOpenclawEditorConfig (bareProvider config) (some models) (some authProfiles)
      config).providerId = (nonBlank (config.bind AgentConfig.providerId)).getD "aor_shared" :=
    resolveOpenclawProviderName_bareProvider config (some models)
  have htrim : trimmed ((nonBlank (config.bind AgentConfig.providerId)).getD "aor_shared") =
      (nonBlank (config.bind AgentConfig.providerId)).getD "aor_shared" := by
    rcases hexplicit : nonBlank (config.bind AgentConfig.providerId) with _ | providerId
    · decide
    · obtain ⟨text, -, htext, -⟩ := nonBlank_eq_some.1 hexplicit
      rw [Option.getD_some, ← htext, trimmed_trimmed]
  have hblank := resolveOpenclawProviderName_ne_blank (bareProvider config) (some models) config
  rw [resolveOpenclawProviderName_bareProvider] at hblank
  have hprovider : getOpenclawProviderObject (bareProvider config)
      ((nonBlank (config.bind AgentConfig.providerId)).getD "aor_shared") = some [] := by
    rw [getOpenclawProviderObject, getOpenclawProvidersObject_bareProvider, Option.bind_some,
      List.lookup_cons_self]
    rfl
  unfold validateOpenclawEditorConfig
  rw [hname, if_neg hblank, htrim, hprovider]
  rfl

theorem readCheckedObject_given (root : Fields) :
    (readCheckedObject env configDir file (some root)).Yields content root :=
  Program.yields_pure root

theorem readCheckedObject_yields {root : Fields}
    (h : parseJsonLikeContent env ((content (configDir, file)).getD "")
      (file.path configDir) = .ok root) :
    (readCheckedObject env configDir file none).Yields content root := by
  refine (readText_yields file).bind ?_
  rw [h]
  exact Program.yields_pure root

theorem checkOpenclawSources_yields {source : String} {parsedRoot : Fields}
    (hsource : source = "models" ∨ source = "auth-profiles")
    (hopenclaw : parseJsonLikeContent env ((content (configDir, .openclawJson)).getD "")
      (AgentFile.path configDir .openclawJson) = .ok (bareProvider target.config))
    (hmodels : source ≠ "models" →
      content (configDir, modelsFile content configDir (resolveOpenclawAgentId target.config)) =
      none)
    (hauth : source ≠ "auth-profiles" →
      content (configDir, chosenFile content configDir
      (.authProfiles (resolveOpenclawAgentId target.config))
      (.legacyAuthProfiles (resolveOpenclawAgentId target.config))) = none) :
    ∃ config, (checkOpenclawSources env target configDir (some source) parsedRoot).Yields content
      config := by
  have hempty : ∀ path, parseJsonLikeContent env ((none : Option String).getD "") path = .ok [] :=
    fun _ => rfl
  have hread : ∀ file, content (configDir, file) = none →
      (readCheckedObject env configDir file none).Yields content [] := by
    intro file hfile
    refine readCheckedObject_yields ?_
    rw [hfile]
    exact hempty _
  have hprimary : (readCheckedObject env configDir .openclawJson none).Yields content
      (bareProvider target.config) := readCheckedObject_yields hopenclaw
  have hchecked : ∀ models authProfiles : Fields,
      (checked (validateOpenclawEditorConfig (parseOpenclawEditorConfig (bareProvider target.config)
        (some models) (some authProfiles) target.config) (bareProvider target.config) (some models)
          (some authProfiles)) : AgentIo Unit).Yields content () := by
    intro models authProfiles
    rw [validate_bareProvider]
    exact Program.yields_pure ()
  unfold checkOpenclawSources
  dsimp only
  rcases hsource with rfl | rfl
  · rw [if_neg (show some "models" ≠ some "primary" by decide), if_pos rfl,
      if_neg (show some "models" ≠ some "auth-profiles" by decide)]
    exact ⟨_, hprimary.bind ((preferredFile_yields _ _).bind ((readCheckedObject_given _).bind
      ((preferredFile_yields _ _).bind ((hread _ (hauth (by decide))).bind
        ((hchecked _ _).bind (Program.yields_pure _))))))⟩
  · rw [if_neg (show some "auth-profiles" ≠ some "primary" by decide), if_pos rfl,
      if_neg (show some "auth-profiles" ≠ some "models" by decide)]
    exact ⟨_, hprimary.bind ((preferredFile_yields _ _).bind
      ((hread _ (hmodels (by decide))).bind ((preferredFile_yields _ _).bind
        ((readCheckedObject_given _).bind ((hchecked _ _).bind (Program.yields_pure _))))))⟩

def legacySource (source agentId : String) : AgentFile :=
  if source = "models" then .legacyModels agentId else .legacyAuthProfiles agentId

/-- There is the source at its old place, which reads otherwise, and a bare provider in
`openclaw.json`. -/
def legacySourceOnly (env : AgentEnv) (target : IntegrationTarget) (source content : String) :
    AgentDisk :=
  Function.update (putObject env (fun _ => none) target.configDir .openclawJson
    (bareProvider target.config))
      (target.configDir, legacySource source (resolveOpenclawAgentId target.config))
        (some (content ++ " "))

theorem resolveAgentSourceFile_legacySource {content source : String}
    (hkind : target.kind = .openclaw) (hsource : nonBlank (some source) = some source)
    (hagent : source = "models" ∨ source = "auth-profiles") :
    (resolveAgentSourceFile target target.configDir (some source)).Yields
      (legacySourceOnly env target source content)
        (legacySource source (resolveOpenclawAgentId target.config)) := by
  have hcodex : ∀ p : Prop, ¬ (target.kind = .codex ∧ p) := fun p h => nomatch hkind.symm.trans h.1
  unfold resolveAgentSourceFile
  rw [hsource]
  dsimp only
  rw [if_neg (hcodex _)]
  rcases hagent with rfl | rfl
  · have hchosen : chosenFile (legacySourceOnly env target "models" content) target.configDir
        (.models (resolveOpenclawAgentId target.config))
          (.legacyModels (resolveOpenclawAgentId target.config)) =
            legacySource "models" (resolveOpenclawAgentId target.config) := by
      simp [chosenFile, legacySourceOnly, legacySource, putObject]
    rw [if_neg (fun h => absurd h.2 (by decide)), if_pos ⟨hkind, rfl⟩, ← hchosen]
    exact preferredFile_yields _ _
  · have hchosen : chosenFile (legacySourceOnly env target "auth-profiles" content)
        target.configDir (.authProfiles (resolveOpenclawAgentId target.config))
          (.legacyAuthProfiles (resolveOpenclawAgentId target.config)) =
            legacySource "auth-profiles" (resolveOpenclawAgentId target.config) := by
      simp [chosenFile, legacySourceOnly, legacySource, putObject]
    rw [if_pos ⟨hkind, rfl⟩, ← hchosen]
    exact preferredFile_yields _ _

theorem checkOpenclawSources_legacySource {content source : String} (parsedRoot : Fields)
    (hagent : source = "models" ∨ source = "auth-profiles") :
    ∃ config, (checkOpenclawSources env target target.configDir (some source) parsedRoot).Yields
      (legacySourceOnly env target source content) config := by
  refine checkOpenclawSources_yields hagent ?_ (fun hsource => ?_) (fun hsource => ?_)
  · have hopenclaw : legacySourceOnly env target source content (target.configDir, .openclawJson) =
        some (env.toStringPretty (.obj (bareProvider target.config))) := by
      have hne : (target.configDir, AgentFile.openclawJson) ≠ (target.configDir,
          legacySource source (resolveOpenclawAgentId target.config)) := by
        rcases hagent with rfl | rfl <;> simp [legacySource]
      rw [legacySourceOnly, Function.update_of_ne hne, putObject_self]
    rw [hopenclaw, Option.getD_some, parseJsonLikeContent_print]
    rfl
  · obtain rfl := hagent.resolve_left hsource
    simp [modelsFile, chosenFile, legacySourceOnly, legacySource, putObject]
  · obtain rfl := hagent.resolve_right hsource
    simp [chosenFile, legacySourceOnly, legacySource, putObject]

theorem changes_legacySource {targets : List IntegrationTarget} {targetId content source : String}
    {sourceId : Option String} (htarget : resolveTargetById targets targetId = .ok target)
    (hkind : target.kind = .openclaw) (hsource : nonBlank sourceId = some source)
    (hagent : source = "models" ∨ source = "auth-profiles") {parsedRoot : Fields}
    (hcontent : parseJsonLikeContent env content "" = .ok parsedRoot) :
    (AgentWrite.writeSource targets targetId content sourceId).Changes env
      (target.configDir, legacySource source (resolveOpenclawAgentId target.config)) := by
  refine ⟨fun _ => none, ⟨legacySourceOnly env target source content, 0⟩, ?_⟩
  have hold : legacySourceOnly env target source content (target.configDir,
      legacySource source (resolveOpenclawAgentId target.config)) = some (content ++ " ") :=
    Function.update_self _ _ _
  rw [AgentWrite.run, Program.map_snd, writeAgentConfigSourceWithTargets, htarget, checked_ok,
    Program.bind_apply_ok (Program.pure_apply target)]
  dsimp only
  rw [hold, hsource]
  have hnonBlank : nonBlank (some source) = some source := by
    rw [← hsource, nonBlank_nonBlank]
  obtain ⟨n, hfile⟩ :=
    @resolveAgentSourceFile_legacySource env target content source hkind hnonBlank hagent 0
  obtain ⟨config, hyields⟩ :=
    @checkOpenclawSources_legacySource env target content source parsedRoot hagent
  obtain ⟨n', hcheck⟩ := hyields n
  -- the content parses, whatever its path
  have hparse : ∀ path, (if target.kind = .codex ∧ some source = some "auth" then
      parseJsonLikeContent env content path else
        parseAgentConfigContent env target.kind content path) = .ok parsedRoot := by
    intro path
    rw [hkind, if_neg (fun h => nomatch h.1)]
    exact parseJsonLikeContent_eq_ok hcontent
  have hwrite := (@writeFileContent_eq_ok target.configDir
    (legacySource source (resolveOpenclawAgentId target.config)) (fun _ => none)
      ⟨legacySourceOnly env target source content, n'⟩ _ content ()).2 ⟨⟨rfl, rfl⟩, rfl⟩
  rw [Program.bind_apply_ok hfile, hparse, checked_ok,
    Program.bind_apply_ok (Program.pure_apply parsedRoot), Program.map_snd, writeSource, hkind]
  dsimp only
  rw [Program.bind_apply_ok hcheck, Program.map_snd, hwrite]
  dsimp only
  rw [Function.update_self]
  intro hsame
  have hlength := congrArg String.length (Option.some.inj hsame)
  rw [String.length_append] at hlength
  exact absurd hlength (by simp)

end Runs

/-! ### Whether a call stays in the directory -/

section Contained

variable {env : AgentEnv} {target : IntegrationTarget} {targets : List IntegrationTarget}
  {targetId : String}

theorem FilesOf.below {base configDir : String} {agents : String → Prop}
    {place : String × AgentFile} (hplace : FilesOf configDir agents place)
    (hdir : Paths.Within base configDir)
    (hagents : ∀ agentId, agents agentId →
      Paths.Within base (openclawAgentRoot configDir agentId)) :
    Paths.Below base (place.2.path place.1) := by
  obtain ⟨placeDir, file⟩ := place
  obtain ⟨rfl, hfile⟩ := hplace
  rcases hagent : file.agent with _ | agentId
  · rw [AgentFile.below_path_iff, AgentFile.folder_of_none hagent]
    exact hdir
  · exact AgentFile.below_path_of_agent hagent (hagents agentId (hfile agentId hagent))

theorem AgentWrite.Contained.within {call : AgentWrite} (h : call.Contained env)
    (htarget : call.target = some target) {configDir folder : String} {file : AgentFile}
    (hchanges : call.Changes env (configDir, file)) (hfolder : file.folder configDir = folder) :
    Paths.Within target.configDir folder := by
  obtain ⟨target', htarget', hbelow⟩ := h _ hchanges
  obtain rfl := Option.some.inj (htarget.symm.trans htarget')
  exact hfolder ▸ AgentFile.below_path_iff.1 hbelow

theorem writeEntry_contained_iff {entryUrl : String} :
    (AgentWrite.writeEntry target entryUrl).Contained env ↔ EntryInside env target entryUrl := by
  constructor
  · intro h hplace hcodex
    obtain ⟨file, hnone, hchanges⟩ := changes_plain_entry hplace hcodex
    exact ⟨h.within rfl hchanges (AgentFile.folder_of_none hnone),
      fun hkind => h.within rfl (changes_legacyModels_entry hkind hplace) rfl⟩
  · intro h place hchanges
    obtain ⟨hplace, hcodex, hfiles⟩ := changes_writeEntry hchanges
    obtain ⟨hdir, hagent⟩ := h hplace hcodex
    refine ⟨target, rfl, hfiles.below hdir fun agentId hid => ?_⟩
    obtain ⟨hkind, rfl⟩ := hid
    exact hagent hkind

theorem toOption_resolveTargetById (h : resolveTargetById targets targetId = .ok target) :
    (resolveTargetById targets targetId).toOption = some target := by
  rw [h]
  rfl

theorem writeConfig_contained_iff {config : AgentConfig} :
    (AgentWrite.writeConfig targets targetId config).Contained env ↔
      (AgentWrite.writeConfig targets targetId config).Inside env := by
  constructor
  · intro h target htarget hkind
    have htarget' : (AgentWrite.writeConfig targets targetId config).target = some target :=
      @toOption_resolveTargetById target targets targetId htarget
    exact h.within htarget' (changes_legacyModels_config htarget hkind) rfl
  · rintro h place ⟨faults, s, hchanged⟩
    have hframe : ((AgentWrite.writeConfig targets targetId config).run env).ChangesOnly
        (ConfigFiles targets targetId config) := (changesOnly_writeConfig config).map _
    obtain ⟨target, htarget, hfiles⟩ := hframe faults s place hchanged
    have hdir := Paths.Within.refl target.configDir
    refine ⟨target, @toOption_resolveTargetById target targets targetId htarget,
      hfiles.below hdir fun agentId hid => ?_⟩
    obtain ⟨hkind, rfl⟩ := hid
    exact h target htarget hkind

theorem writeSource_contained_iff {content : String} {sourceId : Option String} :
    (AgentWrite.writeSource targets targetId content sourceId).Contained env ↔
      (AgentWrite.writeSource targets targetId content sourceId).Inside env := by
  constructor
  · rintro h target htarget hkind hsource ⟨root, hroot⟩
    have htarget' : (AgentWrite.writeSource targets targetId content sourceId).target =
        some target := @toOption_resolveTargetById target targets targetId htarget
    rcases hsource with hmodels | hauth
    · exact h.within htarget' (changes_legacySource htarget hkind hmodels (.inl rfl) hroot) rfl
    · exact h.within htarget' (changes_legacySource htarget hkind hauth (.inr rfl) hroot) rfl
  · rintro h place ⟨faults, s, hchanged⟩
    have hframe : ((AgentWrite.writeSource targets targetId content sourceId).run env).ChangesOnly
        (SourceFiles env targets targetId content sourceId) :=
      (changesOnly_writeAgentConfigSource content sourceId).map _
    obtain ⟨target, htarget, hfiles⟩ := hframe faults s place hchanged
    have hdir := Paths.Within.refl target.configDir
    refine ⟨target, @toOption_resolveTargetById target targets targetId htarget,
      hfiles.below hdir fun agentId hid => ?_⟩
    obtain ⟨hkind, rfl, hsource, hroot⟩ := hid
    exact h target htarget hkind hsource hroot

end Contained

/-- **A call stays in the directory of its target exactly when the directory of the agent is in it,
where the call writes there.** -/
theorem AgentWrite.contained_iff (env : AgentEnv) (call : AgentWrite) :
    call.Contained env ↔ call.Inside env := by
  cases call with
  | writeEntry target entryUrl => exact writeEntry_contained_iff
  | writeConfig targets targetId config => exact writeConfig_contained_iff
  | writeSource targets targetId content sourceId => exact writeSource_contained_iff

/-- **An agent id that climbs leads out of the directory of the target.** -/
theorem not_contained_climbingId :
    ¬ ∀ (env : AgentEnv) (call : AgentWrite), call.Contained env := by
  intro hall
  have hchanges := @changes_legacyModels_config AgentEnv.plain openclawTarget [openclawTarget] "t2"
    { agentId := some "../../../../etc" } rfl rfl
  have hwithin := (hall AgentEnv.plain _).within rfl hchanges rfl
  exact absurd hwithin (by decide)

end AiOpenRouter
