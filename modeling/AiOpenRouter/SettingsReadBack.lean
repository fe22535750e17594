/-
Whether the settings of an agent are read back from its files as they were written.

* `parsedConfig_yields`: the reader answers what the files of an agent give;
* `settingsReadBack_iff`: it answers what was written exactly when nothing else that it
  looks at was left.
-/
import AiOpenRouter.AgentSettings
import AiOpenRouter.EntryFrame
import AiOpenRouter.SourceReferences

namespace AiOpenRouter

open Files
open Json (Fields)

/-! ### What the reader answers -/

/-- The target with the configuration that `put_target` keeps for it. -/
def IntegrationTarget.updated (target : IntegrationTarget) (config : AgentConfig) :
    IntegrationTarget := { target with config := some config }

/-- The editor that a root of `openclaw.json` gives, with the two other files. -/
def openclawEditorAt (env : AgentEnv) (content : AgentDisk) (target : IntegrationTarget)
    (root : Fields) : OpenClawEditorConfig :=
  let agentId := resolveOpenclawAgentId target.config
  parseOpenclawEditorConfig root
    (objectAt env content target.configDir (modelsFile content target.configDir agentId))
    (objectAt env content target.configDir (authProfilesFile content target.configDir agentId))
    target.config

def parsedAt (env : AgentEnv) (content : AgentDisk) (target : IntegrationTarget) (root : Fields) :
    AgentConfig :=
  match target.kind with
  | .claude => parseClaudeConfig root
  | .opencode => parseOpencodeConfig root
  | .codex => parseCodexConfigWithAuth root (objectAt env content target.configDir .authJson)
  | .openclaw => openclawEditorToAgentConfig (openclawEditorAt env content target root)

/-- The settings of an agent are read back from its files. -/
def SettingsReadBack (env : AgentEnv) (content : AgentDisk) (targets : List IntegrationTarget)
    (targetId : String) (kind : IntegrationClientKind) (config : AgentConfig) : Prop :=
  ∃ file read, (readAgentConfigWithTargets env targets targetId).Yields content file ∧
    file.parsedConfig = some read ∧ config.ReadAs kind read

section Reading

variable {env : AgentEnv} {content : AgentDisk} {configDir : String} {target : IntegrationTarget}

theorem readParsedConfig_yields (root : Option Fields) :
    (readParsedConfig env target target.configDir root).Yields content
      (root.map (parsedAt env content target)) := by
  unfold readParsedConfig
  cases hkind : target.kind with
  | claude =>
    have hparsed : parsedAt env content target = parseClaudeConfig := by
      funext root
      rw [parsedAt, hkind]
    rw [hparsed]
    exact Program.yields_pure _
  | opencode =>
    have hparsed : parsedAt env content target = parseOpencodeConfig := by
      funext root
      rw [parsedAt, hkind]
    rw [hparsed]
    exact Program.yields_pure _
  | codex =>
    have hparsed : parsedAt env content target = fun root =>
        parseCodexConfigWithAuth root (objectAt env content target.configDir .authJson) := by
      funext root
      rw [parsedAt, hkind]
    rw [hparsed]
    exact (readOptionalObject_yields _).bind (Program.yields_pure _)
  | openclaw =>
    have hparsed : parsedAt env content target = fun root =>
        openclawEditorToAgentConfig (openclawEditorAt env content target root) := by
      funext root
      rw [parsedAt, hkind]
    -- four reads, and none of them writes
    have heditor : (readOpenclawEditor env target target.configDir root).Yields content
        (root.map (openclawEditorAt env content target)) :=
      (preferredFile_yields _ _).bind ((readOptionalObject_yields _).bind
        ((preferredFile_yields _ _).bind ((readOptionalObject_yields _).bind
          (Program.yields_pure _))))
    have hmap : (readOpenclawEditor env target target.configDir root >>= fun editor =>
        pure (editor.map openclawEditorToAgentConfig)).Yields content
          ((root.map (openclawEditorAt env content target)).map openclawEditorToAgentConfig) :=
      heditor.bind (Program.yields_pure _)
    rw [Option.map_map] at hmap
    rw [hparsed]
    exact hmap

/-- **The reader answers what the files give.** -/
theorem parsedConfig_yields {targets : List IntegrationTarget} {targetId : String}
    (htarget : resolveTargetById targets targetId = .ok target) :
    ∃ file, (readAgentConfigWithTargets env targets targetId).Yields content file ∧
      file.parsedConfig = (agentRoot env content target).map (parsedAt env content target) := by
  obtain ⟨files, hfiles⟩ := @buildAgentSourceFiles_yields content target.configDir target
    (primaryFile content target) ((content (target.configDir, primaryFile content target)).getD "")
  obtain ⟨-, editor, -, heditor, -⟩ :=
    @readPayloads_yields env content target (agentRoot env content target)
  have hconfig := @readParsedConfig_yields env content target (agentRoot env content target)
  unfold readAgentConfigWithTargets
  rw [htarget, checked_ok]
  exact ⟨_, (Program.yields_pure target).bind ((resolveAgentConfigFile_yields target).bind
    ((readText_yields _).bind (hfiles.bind (hconfig.bind (heditor.bind
      (Program.yields_pure _)))))), rfl⟩

theorem yields_unique {α : Type} {p : AgentIo α} {a a' : α} (h : p.Yields content a)
    (h' : p.Yields content a') : a = a' := by
  obtain ⟨n, hrun⟩ := h 0
  obtain ⟨n', hrun'⟩ := h' 0
  exact Except.ok.inj (congrArg Prod.fst (hrun.symm.trans hrun'))

theorem settingsReadBack_iff_root {targets : List IntegrationTarget} {targetId : String}
    (htarget : resolveTargetById targets targetId = .ok target) {root : Fields}
    (hroot : agentRoot env content target = some root) {config : AgentConfig} :
    SettingsReadBack env content targets targetId target.kind config ↔
      config.ReadAs target.kind (parsedAt env content target root) := by
  obtain ⟨file, hyields, hparsed⟩ :=
    @parsedConfig_yields env content target targets targetId htarget
  rw [hroot, Option.map_some] at hparsed
  constructor
  · rintro ⟨file', read, hyields', hread, has⟩
    rw [yields_unique hyields' hyields, hparsed] at hread
    exact Option.some.inj hread ▸ has
  · intro has
    exact ⟨file, _, hyields, hparsed, has⟩

end Reading

/-! ### After a write -/

/-- Nothing that the reader looks at, and the writer leaves, says something else than the
configuration. -/
def NothingElseRead (env : AgentEnv) (content : AgentDisk) (target : IntegrationTarget)
    (config : AgentConfig) : Prop :=
  match target.kind with
  | .claude => config.apiToken = none → ∀ root,
    objectAt env content target.configDir .settings = some root →
      textAt (Json.childObject root "env") "ANTHROPIC_AUTH_TOKEN" = none
  | .opencode => config.apiToken = none → ∀ root,
    objectAt env content target.configDir (opencodeFile content target.configDir) = some root →
      legacyOpencodeToken root = none
  | .codex => True
  | .openclaw => config.fallbackModels ≠ some [] ∧ ∀ models,
    objectAt env content target.configDir
      (modelsFile content target.configDir (resolveOpenclawAgentId (some config))) = some models →
      StaleAgrees config (staleProvider models (writtenProvider config))
        (objectAt env content target.configDir
          (authProfilesFile content target.configDir (resolveOpenclawAgentId (some config))))

section Kinds

variable {env : AgentEnv} {targets : List IntegrationTarget} {targetId path : String}
  {target : IntegrationTarget} {config : AgentConfig} {faults : Faults}
  {s s' : State (String × AgentFile) String}

theorem settingsReadBack_claude_iff (hkind : target.kind = .claude) (hclean : config.Clean)
    (htarget : resolveTargetById targets targetId = .ok (target.updated config))
    (hwrite : writeClaudeFullConfig env target.configDir config faults s = (.ok path, s')) :
    SettingsReadBack env s'.content targets targetId .claude config ↔
      NothingElseRead env s.content target config := by
  obtain ⟨root, hroot, hcontent⟩ := editJsonObject_ok hwrite
  have hkind' : (target.updated config).kind = .claude := hkind
  have hfile : ∀ content : AgentDisk, primaryFile content (target.updated config) = .settings := by
    intro content
    rw [primaryFile, hkind']
  have hread := @agentRoot_putObject env s.content (target.updated config) (by rw [hkind']; decide)
    (setClaudeConfig config root) (by rw [hfile, hfile])
  rw [hfile] at hread
  have hiff := @settingsReadBack_iff_root env _ _ targets targetId htarget _ hread config
  rw [hkind', parsedAt, hkind'] at hiff
  dsimp only at hiff
  rw [NothingElseRead, hkind, hcontent]
  refine hiff.trans ((readAs_claude hclean).trans ⟨fun h hnone root' hroot' => ?_, fun h hnone =>
    ?_⟩)
  · rw [objectAt_of_jsonLikeObject hroot, Option.some_inj] at hroot'
    exact hroot' ▸ h hnone
  · exact h hnone root (objectAt_of_jsonLikeObject hroot)

theorem settingsReadBack_opencode_iff (hkind : target.kind = .opencode) (hclean : config.Clean)
    (htarget : resolveTargetById targets targetId = .ok (target.updated config))
    (hwrite : writeOpencodeFullConfig env target.configDir config faults s = (.ok path, s')) :
    SettingsReadBack env s'.content targets targetId .opencode config ↔
      NothingElseRead env s.content target config := by
  obtain ⟨file, _, hchosen, hedit⟩ := Program.bind_eq_ok.1 hwrite
  cases hchosen
  obtain ⟨root, hroot, hcontent⟩ := editJsonObject_ok hedit
  have hkind' : (target.updated config).kind = .opencode := hkind
  have hfile : ∀ content : AgentDisk, primaryFile content (target.updated config) =
      opencodeFile content target.configDir := by
    intro content
    rw [primaryFile, hkind']
    rfl
  have hread := @agentRoot_putObject env s.content (target.updated config) (by rw [hkind']; decide)
    (setOpencodeConfig config root) (by rw [hfile, hfile]; exact opencodeFile_putObject)
  rw [hfile] at hread
  have hiff := @settingsReadBack_iff_root env _ _ targets targetId htarget _ hread config
  rw [hkind', parsedAt, hkind'] at hiff
  dsimp only at hiff
  rw [NothingElseRead, hkind, hcontent]
  refine hiff.trans ((readAs_opencode hclean).trans
    ⟨fun h hnone root' hroot' => ?_, fun h hnone => ?_⟩)
  · have hsome : objectAt env s.content target.configDir (opencodeFile s.content target.configDir) =
        some root := objectAt_of_jsonLikeObject hroot
    rw [hsome, Option.some_inj] at hroot'
    exact hroot' ▸ h hnone
  · exact h hnone root (objectAt_of_jsonLikeObject hroot)

theorem setCodexConfig_ne_nil (name : String) (doc : TomlTable) :
    setCodexConfig config name doc ≠ [] := by
  unfold setCodexConfig
  cases config.model with
  | none => exact List.cons_ne_nil _ _
  | some model => exact List.cons_ne_nil _ _

theorem settingsReadBack_codex (hkind : target.kind = .codex) (hclean : config.Clean)
    (htarget : resolveTargetById targets targetId = .ok (target.updated config))
    (hwrite : writeCodexFullConfig env target.configDir config faults s = (.ok path, s')) :
    SettingsReadBack env s'.content targets targetId .codex config := by
  obtain ⟨_, _, hprimary, hrest⟩ := Program.bind_eq_ok.1 hwrite
  obtain ⟨-, doc, text, hdoc, htext, rfl⟩ := writeCodexFullPrimary_eq_ok.1 hprimary
  obtain ⟨auth, _, hread, hrest'⟩ := Program.bind_eq_ok.1 hrest
  obtain ⟨-, hauth, rfl⟩ := readJsonLikeObject_eq_ok.1 hread
  obtain ⟨_, _, hput, hpure⟩ := Program.bind_eq_ok.1 hrest'
  obtain ⟨-, rfl⟩ := writeFileContent_eq_ok.1 hput
  obtain ⟨rfl, rfl⟩ := Program.pure_eq_ok.1 hpure
  have hkind' : (target.updated config).kind = .codex := hkind
  unfold codexConfigText at htext
  cases hname : resolveCodexProviderNameFromDoc doc with
  | error e =>
    rw [hname] at htext
    cases htext
  | ok name =>
    rw [hname] at htext
    dsimp only at htext
    split_ifs at htext with hindexed
    cases htext
    obtain ⟨doc', hparse, hsame⟩ := env.parseToml_print (setCodexConfig config name doc)
    have hroot : agentRoot env (putObject env (Function.update s.content
        (target.configDir, .configToml)
          (some (withNewline (env.tomlToString (setCodexConfig config name doc)))))
        target.configDir .authJson (setCodexAuth config auth)) (target.updated config) =
          some (TomlItem.toFields doc') := by
      have hblank := env.tomlPrint_ne_blank (setCodexConfig config name doc)
        (setCodexConfig_ne_nil name doc)
      have hfile : (putObject env (Function.update s.content (target.configDir, .configToml)
          (some (withNewline (env.tomlToString (setCodexConfig config name doc)))))
          target.configDir .authJson (setCodexAuth config auth))
            (target.configDir, AgentFile.configToml) =
          some (withNewline (env.tomlToString (setCodexConfig config name doc))) := by
        rw [putObject, Function.update_of_ne (by simp), Function.update_self]
      rw [agentRoot, primaryFile, hkind']
      dsimp only [IntegrationTarget.updated]
      rw [hfile, Option.getD_some, parseAgentConfigContent, parseTomlContent, if_neg hblank, hparse]
      rfl
    have hiff := @settingsReadBack_iff_root env _ _ targets targetId htarget _ hroot config
    rw [hkind', parsedAt, hkind'] at hiff
    dsimp only [IntegrationTarget.updated] at hiff
    rw [objectAt_putObject] at hiff
    exact hiff.2 (readAs_codex hclean hname hsame)

theorem objectAt_authProfiles {content : AgentDisk} {configDir agentId : String}
    {root models : Fields} :
    objectAt env (putObject env (putObject env content configDir .openclawJson root) configDir
        (modelsFile content configDir agentId) models) configDir
        (authProfilesFile (putObject env (putObject env content configDir .openclawJson root)
          configDir (modelsFile content configDir agentId) models) configDir agentId) =
      objectAt env content configDir (authProfilesFile content configDir agentId) := by
  have hkept : ∀ file : AgentFile, file = .authProfiles agentId ∨
      file = .legacyAuthProfiles agentId →
      (putObject env (putObject env content configDir .openclawJson root) configDir
        (modelsFile content configDir agentId) models) (configDir, file) =
          content (configDir, file) := by
    intro file hfile
    have hmodels : file ≠ modelsFile content configDir agentId := by
      unfold modelsFile chosenFile
      rcases hfile with rfl | rfl <;> split_ifs <;> simp
    have hprimary : file ≠ .openclawJson := by
      rcases hfile with rfl | rfl <;> simp
    rw [putObject, Function.update_of_ne (by simpa using hmodels), putObject,
      Function.update_of_ne (by simpa using hprimary)]
  have hchosen :
      authProfilesFile (putObject env (putObject env content configDir .openclawJson root)
      configDir (modelsFile content configDir agentId) models) configDir agentId =
        authProfilesFile content configDir agentId := by
    unfold authProfilesFile chosenFile
    rw [hkept _ (.inl rfl), hkept _ (.inr rfl)]
  have hname : authProfilesFile content configDir agentId = .authProfiles agentId ∨
      authProfilesFile content configDir agentId = .legacyAuthProfiles agentId := by
    unfold authProfilesFile chosenFile
    split_ifs <;> simp
  rw [hchosen, objectAt, objectAt, hkept _ hname]

theorem settingsReadBack_openclaw_iff (hkind : target.kind = .openclaw) (hclean : config.Clean)
    (htarget : resolveTargetById targets targetId = .ok (target.updated config))
    (hwrite : writeOpenclawFullConfig env target.configDir config faults s = (.ok path, s')) :
    SettingsReadBack env s'.content targets targetId .openclaw config ↔
      NothingElseRead env s.content target config := by
  obtain ⟨editor, _, hprimary, hrest⟩ := Program.bind_eq_ok.1 hwrite
  obtain ⟨-, root, root', hroot, rfl, hset, rfl⟩ := writeOpenclawFullPrimary_eq_ok.1 hprimary
  obtain ⟨_, _, hsync, hpure⟩ := Program.bind_eq_ok.1 hrest
  obtain ⟨-, models, hmodels, rfl⟩ := sync_eq_ok.1 hsync
  obtain ⟨rfl, rfl⟩ := Program.pure_eq_ok.1 hpure
  have hkind' : (target.updated config).kind = .openclaw := hkind
  have hagent : (openclawEditorFromAgentConfig config).agentId =
      resolveOpenclawAgentId (some config) := rfl
  dsimp only at hmodels ⊢
  rw [hagent, modelsFile_putObject] at hmodels ⊢
  rw [putObject, Function.update_of_ne (by simpa using modelsFile_ne_openclawJson _ _)] at hmodels
  have hne := @modelsFile_ne_openclawJson s.content target.configDir
    (resolveOpenclawAgentId (some config))
  have hsync' : ∀ models, agentRoot env (putObject env (putObject env s.content target.configDir
      .openclawJson root') target.configDir (modelsFile s.content target.configDir
        (resolveOpenclawAgentId (some config))) models) (target.updated config) =
          some (Json.mapFloatsFields env.floatRead root') := by
    intro models
    rw [agentRoot_openclaw hkind']
    dsimp only [IntegrationTarget.updated]
    rw [objectAt_putObject_of_ne hne.symm, objectAt_putObject]
  have hiff := @settingsReadBack_iff_root env _ _ targets targetId htarget _ (hsync' (syncProvider
    (openclawEditorFromAgentConfig config).providerId
    (buildOpenclawProviderSnapshot (openclawEditorFromAgentConfig config) true) false models))
      config
  rw [hkind', parsedAt, hkind'] at hiff
  dsimp only [IntegrationTarget.updated, openclawEditorAt] at hiff
  rw [objectAt_authProfiles] at hiff
  rw [← @modelsFile_putObject env target.configDir s.content _ root'] at hiff ⊢
  rw [objectAt_modelsFile] at hiff
  rw [NothingElseRead, hkind]
  refine hiff.trans ((readAs_openclaw hclean hset _ _ _).trans (and_congr_right fun _ =>
    ⟨fun h models' hmodels' => ?_, fun h => ?_⟩))
  · rw [objectAt_of_jsonLikeObject hmodels, Option.some_inj] at hmodels'
    exact hmodels' ▸ h
  · exact h models (objectAt_of_jsonLikeObject hmodels)

/-- **The settings are read back exactly when nothing else is there that the reader takes for
them.** -/
theorem settingsReadBack_iff {targets' : List IntegrationTarget} {result : WriteAgentConfigResult}
    (htarget : resolveTargetById targets targetId = .ok target) (hclean : config.Clean)
    (hwrite : writeAgentConfigWithTargets env targets targetId config faults s = (.ok result, s'))
    (hupdated : resolveTargetById targets' targetId = .ok (target.updated config)) :
    SettingsReadBack env s'.content targets' targetId target.kind config ↔
      NothingElseRead env s.content target config := by
  unfold writeAgentConfigWithTargets at hwrite
  obtain ⟨found, _, hchecked, hkinds⟩ := Program.bind_eq_ok.1 hwrite
  obtain ⟨hfound, hsame⟩ := checked_eq_ok.1 hchecked
  rw [hsame] at hkinds
  obtain rfl : target = found := Except.ok.inj (htarget.symm.trans hfound)
  -- whatever is written, the answer is made of its path
  have hrest : ∀ {write : AgentIo String}, (write >>= fun filePath =>
      pure (WriteAgentConfigResult.mk true targetId filePath none)) faults s = (.ok result, s') →
        ∃ path, write faults s = (.ok path, s') := by
    intro write h
    obtain ⟨path, _, hpath, hpure⟩ := Program.bind_eq_ok.1 h
    obtain ⟨-, rfl⟩ := Program.pure_eq_ok.1 hpure
    exact ⟨path, hpath⟩
  cases hkind : target.kind with
  | claude =>
    rw [hkind] at hkinds
    obtain ⟨path, hpath⟩ := hrest hkinds
    exact settingsReadBack_claude_iff hkind hclean hupdated hpath
  | opencode =>
    rw [hkind] at hkinds
    obtain ⟨path, hpath⟩ := hrest hkinds
    exact settingsReadBack_opencode_iff hkind hclean hupdated hpath
  | codex =>
    rw [hkind] at hkinds
    obtain ⟨path, hpath⟩ := hrest hkinds
    rw [NothingElseRead, hkind]
    exact iff_of_true (settingsReadBack_codex hkind hclean hupdated hpath) trivial
  | openclaw =>
    rw [hkind] at hkinds
    obtain ⟨path, hpath⟩ := hrest hkinds
    exact settingsReadBack_openclaw_iff hkind hclean hupdated hpath

end Kinds

/-- The settings of a Claude with a token. -/
def oldToken : Fields := [("env", .obj [("ANTHROPIC_AUTH_TOKEN", .str "sk-old")])]

/-- Another address and another token. -/
def newToken : AgentConfig := { url := some "http://127.0.0.1:8899", apiToken := some "sk-new" }

/-- A Claude that had a token has the new one once it is written. -/
theorem settingsReadBack_newToken :
    ∃ result s', writeAgentConfigWithTargets AgentEnv.plain [claudeTarget] "t1" newToken
          (fun _ => none) ⟨settingsOnly oldToken, 0⟩ = (.ok result, s') ∧
      SettingsReadBack AgentEnv.plain s'.content [claudeTarget.updated newToken] "t1" .claude
        newToken := by
  have hclean : newToken.Clean := by
    refine ⟨by decide, fun n hn => ?_⟩
    cases hn
  have hedit := (@editJsonObject_eq_ok AgentEnv.plain claudeTarget.configDir (fun _ => none)
    ⟨settingsOnly oldToken, 0⟩ _ .settings (setClaudeConfig newToken) _).2
      ⟨⟨fun _ => rfl, rfl, rfl, trivial⟩, oldToken, parsed_settingsOnly oldToken, rfl, rfl⟩
  have hwrite : ∃ result s', writeAgentConfigWithTargets AgentEnv.plain [claudeTarget] "t1" newToken
      (fun _ => none) ⟨settingsOnly oldToken, 0⟩ = (.ok result, s') :=
    ⟨_, _, Program.bind_eq_ok.2 ⟨claudeTarget, _, rfl, Program.bind_eq_ok.2 ⟨_, _, hedit, rfl⟩⟩⟩
  obtain ⟨result, s', hwrite⟩ := hwrite
  have hiff := @settingsReadBack_iff AgentEnv.plain [claudeTarget] "t1" claudeTarget newToken _ _ _
    [claudeTarget.updated newToken] result rfl hclean hwrite rfl
  refine ⟨result, s', hwrite, hiff.2 fun hnone => ?_⟩
  cases hnone

/-- **A token stays**: Claude is written without one, and the reader answers the old one. -/
theorem not_settingsReadBack_oldToken :
    ¬ ∀ (env : AgentEnv) (targets targets' : List IntegrationTarget) (targetId : String)
        (target : IntegrationTarget) (config : AgentConfig) (faults : Faults)
        (s s' : State (String × AgentFile) String) (result : WriteAgentConfigResult),
      resolveTargetById targets targetId = .ok target → config.Clean →
      writeAgentConfigWithTargets env targets targetId config faults s = (.ok result, s') →
      resolveTargetById targets' targetId = .ok (target.updated config) →
      SettingsReadBack env s'.content targets' targetId target.kind config := by
  intro h
  have hparsed := parsed_settingsOnly oldToken
  have hwrite := (@editJsonObject_eq_ok AgentEnv.plain claudeTarget.configDir (fun _ => none)
    ⟨settingsOnly oldToken, 0⟩ _ .settings (setClaudeConfig {}) _).2
      ⟨⟨fun _ => rfl, rfl, rfl, trivial⟩, oldToken, hparsed, rfl, rfl⟩
  have hclean : AgentConfig.Clean {} := ⟨by decide, fun n hn => nomatch hn⟩
  have hread := (@settingsReadBack_claude_iff AgentEnv.plain [claudeTarget.updated {}] "t1" _
    claudeTarget {} _ _ _ rfl hclean rfl hwrite).1
      (h AgentEnv.plain [claudeTarget] [claudeTarget.updated {}] "t1" claudeTarget {} _ _ _ _ rfl
        hclean (Program.bind_eq_ok.2 ⟨claudeTarget, _, rfl,
          Program.bind_eq_ok.2 ⟨_, _, hwrite, rfl⟩⟩) rfl)
  have htoken := hread rfl oldToken (objectAt_of_jsonLikeObject hparsed)
  exact absurd htoken (by decide)

end AiOpenRouter
