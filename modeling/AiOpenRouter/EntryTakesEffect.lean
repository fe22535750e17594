/-
Whether an agent uses the group entry that was written for it.

Writer and reader resolve the file and the provider on their own.  For Claude, Codex
and OpenCode they agree; for OpenClaw they look for the providers of `models.json` at
different places when there are two.

* `agentUrl_of_written`: which base URL an agent has after the write;
* `takesEffect_iff`: the reader reports the written URL exactly when nothing stands
  before it.
-/
import AiOpenRouter.AgentOutcomes
import AiOpenRouter.OpenclawWrites

namespace AiOpenRouter

open Files
open Json (Fields)

/-- The base URL that an entry gives to an agent. -/
def agentEntryUrl (kind : IntegrationClientKind) (entryUrl : String) : String :=
  match kind with
  | .openclaw => buildOpenclawEntryUrl entryUrl
  | _ => entryUrl

/-- Writer and reader have the same directory, and for OpenClaw nothing stands before the written
provider; or the directory of the reader, another one, has the base URL already. -/
def TakesEffect (env : AgentEnv) (content : AgentDisk) (target : IntegrationTarget)
    (entryUrl : String) : Prop :=
  if trimmed target.configDir = target.configDir then
    target.kind = .openclaw → ∀ root models,
      objectAt env content target.configDir .openclawJson = some root →
      objectAt env content target.configDir
        (modelsFile content target.configDir (resolveOpenclawAgentId target.config)) =
          some models →
      OpenclawTakesEffect target.config entryUrl root models
  else agentUrl env content target = some (agentEntryUrl target.kind entryUrl)

section Reading

variable {env : AgentEnv} {content content' : AgentDisk} {configDir : String} {file : AgentFile}

theorem objectAt_of_jsonLikeObject {root : Fields}
    (h : jsonLikeObject env configDir file (content (configDir, file)) = .ok root) :
    objectAt env content configDir file = some root := by
  unfold objectAt
  rcases hcontent : content (configDir, file) with _ | text
  · rw [hcontent] at h
    obtain rfl : [] = root := Except.ok.inj h
    have hblank : trimmed "" = "" := by decide
    rw [Option.getD_none, parseJsonLikeContent, if_pos hblank]
    rfl
  · rw [hcontent] at h
    rw [Option.getD_some, show parseJsonLikeContent env text _ = .ok root from h]
    rfl

variable (fields : Fields)

theorem parseJsonLikeContent_print (path : String) :
    parseJsonLikeContent env (env.toStringPretty (.obj fields)) path =
      .ok (Json.mapFloatsFields env.floatRead fields) := by
  rw [parseJsonLikeContent, if_neg (env.print_ne_blank fields), env.fromStr_print]
  rfl

theorem objectAt_putObject :
    objectAt env (putObject env content configDir file fields) configDir file =
      some (Json.mapFloatsFields env.floatRead fields) := by
  rw [objectAt, putObject, Function.update_self, Option.getD_some, parseJsonLikeContent_print]
  rfl

theorem objectAt_putObject_of_ne {file' : AgentFile} (h : file' ≠ file) (fields : Fields) :
    objectAt env (putObject env content configDir file fields) configDir file' =
      objectAt env content configDir file' := by
  rw [objectAt, putObject, Function.update_of_ne (by simpa using h), objectAt]

theorem childObject_mapFloats (f : String → String) (fields : Fields) (key : String) :
    Json.childObject (Json.mapFloatsFields f fields) key =
      Json.mapFloatsFields f (Json.childObject fields key) := by
  unfold Json.childObject
  rw [Json.lookup_mapFloatsFields, asObject_mapFloats]
  rcases (fields.lookup key).bind Json.asObject with _ | child <;> rfl

theorem textAt_mapFloats (f : String → String) (fields : Fields) (key : String) :
    textAt (Json.mapFloatsFields f fields) key = textAt fields key := by
  rw [textAt, Json.lookup_mapFloatsFields, asStr_mapFloats, textAt]

theorem textAt_eq_at? (key : String) :
    textAt fields key = (Json.at? (some (.obj fields)) [key]).bind Json.asStr := by
  rw [Json.at?_cons, Json.at?_nil, textAt]

theorem textAt_insertField (key text : String) :
    textAt (Json.insertField fields key (.str text)) key = some text := by
  rw [textAt, lookup_insertField, if_pos rfl]
  rfl

theorem agentUrl_congr {target : IntegrationTarget}
    (h : ∀ file, content' (target.configDir, file) = content (target.configDir, file)) :
    agentUrl env content' target = agentUrl env content target := by
  have hfile : primaryFile content' target = primaryFile content target := by
    simp only [primaryFile, opencodeFile, h]
  have hmodels : ∀ agentId, modelsFile content' target.configDir agentId =
      modelsFile content target.configDir agentId := by
    intro agentId
    simp only [modelsFile, chosenFile, h]
  have hroot : agentRoot env content' target = agentRoot env content target := by
    simp only [agentRoot, hfile, h]
  have hobject : ∀ file, objectAt env content' target.configDir file =
      objectAt env content target.configDir file := by
    intro file
    simp only [objectAt, h]
  have hurl : rootUrl env content' target = rootUrl env content target := by
    funext root
    simp only [rootUrl, hmodels, hobject]
  rw [agentUrl, agentUrl, hroot, hurl]

end Reading

section Written

variable {env : AgentEnv} {content content' : AgentDisk} {target : IntegrationTarget}
  {entryUrl : String}

variable {configDir name : String} {root : Fields}

theorem EntryWritten.content_of_ne (h : EntryWritten env target entryUrl content content')
    (hne : configDir ≠ trimmed target.configDir) (file : AgentFile) :
    content' (configDir, file) = content (configDir, file) := by
  cases h with
  | claude hkind hroot => exact Function.update_of_ne (by simp [hne]) _ _
  | opencode hkind hfile hroot => exact Function.update_of_ne (by simp [hne]) _ _
  | codex hkind hdoc hname => exact Function.update_of_ne (by simp [hne]) _ _
  | openclaw hkind hfile hroot hformat hmodels =>
    exact (Function.update_of_ne (by simp [hne]) _ _).trans
      (Function.update_of_ne (by simp [hne]) _ _)

theorem chosenFile_putObject {preferred legacy : AgentFile} :
    chosenFile (putObject env content configDir (chosenFile content configDir preferred legacy)
      root)
        configDir preferred legacy =
      chosenFile content configDir preferred legacy := by
  unfold chosenFile putObject
  by_cases hpreferred : (content (configDir, preferred)).isSome = true
  · rw [if_pos hpreferred, Function.update_self]
    rfl
  · rw [if_neg hpreferred]
    by_cases hlegacy : (content (configDir, legacy)).isSome = true
    · have hne : (configDir, preferred) ≠ (configDir, legacy) := by
        intro heq
        rw [heq] at hpreferred
        exact hpreferred hlegacy
      rw [if_pos hlegacy, Function.update_self, Function.update_of_ne hne, if_neg hpreferred]
      rfl
    · rw [if_neg hlegacy, Function.update_self]
      rfl

theorem objectAt_modelsFile {agentId : String} {fields : Fields} :
    objectAt env (putObject env content configDir (modelsFile content configDir agentId) fields)
        configDir (modelsFile (putObject env content configDir
          (modelsFile content configDir agentId) fields) configDir agentId) =
      some (Json.mapFloatsFields env.floatRead fields) := by
  rw [show modelsFile (putObject env content configDir (modelsFile content configDir agentId)
    fields)
    configDir agentId = modelsFile content configDir agentId from chosenFile_putObject,
    objectAt_putObject]

theorem opencodeFile_putObject :
    opencodeFile (putObject env content configDir (opencodeFile content configDir) root)
        configDir =
      opencodeFile content configDir := by
  unfold opencodeFile putObject
  by_cases hjsonc : (content (configDir, .opencodeJsonc)).isSome = true
  · rw [if_pos hjsonc, Function.update_self]
    rfl
  · rw [if_neg hjsonc, Function.update_of_ne (by simp), if_neg hjsonc]

theorem agentRoot_putObject (hkind : target.kind ≠ .codex) {fields : Fields}
    (hfile : primaryFile (putObject env content target.configDir (primaryFile content target)
      fields)
      target = primaryFile content target) :
    agentRoot env (putObject env content target.configDir (primaryFile content target) fields)
        target =
      some (Json.mapFloatsFields env.floatRead fields) := by
  rw [agentRoot, hfile]
  have hparse : ∀ text path, parseAgentConfigContent env target.kind text path =
      parseJsonLikeContent env text path := by
    intro text path
    cases hkind' : target.kind with
    | codex => exact absurd hkind' hkind
    | _ => rfl
  rw [hparse]
  exact objectAt_putObject fields

theorem url_setClaudeEntry (f : String → String) (root : Fields) :
    (parseClaudeConfig (Json.mapFloatsFields f (setClaudeEntry entryUrl root))).url =
      some entryUrl := by
  show textAt (Json.childObject (Json.mapFloatsFields f (setClaudeEntry entryUrl root)) "env")
    "ANTHROPIC_BASE_URL" = some entryUrl
  rw [childObject_mapFloats, textAt_mapFloats, setClaudeEntry, childObject_updateChild,
    textAt_insertField]

theorem url_setOpencodeEntry (f : String → String) (root : Fields) :
    (parseOpencodeConfig (Json.mapFloatsFields f (setOpencodeEntry entryUrl root))).url =
      some entryUrl := by
  show textAt (Json.childObject (Json.childObject (Json.childObject
    (Json.mapFloatsFields f (setOpencodeEntry entryUrl root)) "provider") "aor_shared") "options")
      "baseURL" = some entryUrl
  rw [childObject_mapFloats, childObject_mapFloats, childObject_mapFloats, textAt_mapFloats,
    setOpencodeEntry, childObject_updateChild, childObject_updateChild, childObject_updateChild,
    textAt_insertField]

theorem url_parseCodexConfigWithAuth (hname : resolveCodexProviderNameFromMap root = some name) :
    (parseCodexConfigWithAuth root none).url =
      (Json.at? (some (.obj root)) ["model_providers", name, "base_url"]).bind Json.asStr := by
  show textAt (((resolveCodexProviderNameFromMap root).map
    (Json.childObject (Json.childObject root "model_providers"))).getD []) "base_url" = _
  rw [hname, Option.map_some, Option.getD_some, textAt_eq_at?, Json.at?_childObject,
    ← Json.at?_cons, Json.at?_childObject, ← Json.at?_cons]

theorem resolveCodexProviderName_toFields {doc : TomlTable}
    (hname : resolveCodexProviderNameFromDoc doc = .ok name) :
    resolveCodexProviderNameFromMap (TomlItem.toFields doc) = some name := by
  unfold resolveCodexProviderNameFromDoc at hname
  rcases hblank : nonBlank ((doc.lookup "model_provider").bind TomlItem.asStr) with _ | text
  · rw [hblank] at hname
    cases hname
  · rw [hblank] at hname
    obtain ⟨s, hs, htrim, hne⟩ := nonBlank_eq_some.1 hblank
    obtain ⟨item, hitem, hstr⟩ := Option.bind_eq_some_iff.1 hs
    have hvalue : item.toValue = .str s := by
      rcases item with ⟨v⟩ | entries | tables
      · cases v with
        | string text => rw [TomlItem.toValue, TomlValue.toValue, Option.some.inj hstr]
        | _ => cases hstr
      · cases hstr
      · cases hstr
    rw [resolveCodexProviderNameFromMap, textAt, TomlTable.lookup_toFields, hitem, Option.map_some,
      hvalue]
    exact nonBlank_eq_some.2
      ⟨s, rfl, htrim.trans (Except.ok.inj hname), Except.ok.inj hname ▸ hne⟩

theorem url_setCodexEntry {doc : TomlTable} (hname : resolveCodexProviderNameFromDoc doc = .ok name)
    (hroot : Json.SameOff [] (some (.obj (TomlItem.toFields (setCodexEntry entryUrl name doc))))
      (some (.obj root))) :
    (parseCodexConfigWithAuth root none).url = some entryUrl := by
  have hprovider : resolveCodexProviderNameFromMap root = some name := by
    have htext := hroot.asStr_at? ["model_provider"]
    rw [Json.at?_cons, Json.at?_cons, Json.at?_nil, Json.at?_nil, setCodexEntry,
      TomlTable.lookup_toFields_updateTable, if_neg (by decide)] at htext
    rw [resolveCodexProviderNameFromMap, textAt, htext]
    exact resolveCodexProviderName_toFields hname
  rw [url_parseCodexConfigWithAuth hprovider, hroot.asStr_at?, Json.at?_cons, setCodexEntry,
    TomlTable.lookup_toFields_updateTable, if_pos rfl, Json.at?_cons,
    TomlTable.lookup_toFields_updateTable, if_pos rfl, Json.at?_cons, TomlTable.lookup_toFields,
    TomlTable.lookup_insert, if_pos rfl]
  rfl

theorem agentRoot_openclaw (hkind : target.kind = .openclaw) :
    agentRoot env content target = objectAt env content target.configDir .openclawJson := by
  rw [agentRoot, primaryFile, hkind]
  rfl

theorem agentUrl_of_written (h : EntryWritten env target entryUrl content content') :
    agentUrl env content' target = some (agentEntryUrl target.kind entryUrl) ↔
      TakesEffect env content target entryUrl := by
  unfold TakesEffect
  -- a directory with spaces around it is written at another place than it is read
  by_cases htrim : trimmed target.configDir = target.configDir
  · rw [if_pos htrim]
    cases h with
    | @claude root hkind hroot =>
      have hfile : ∀ content : AgentDisk, primaryFile content target = .settings := by
        intro content
        rw [primaryFile, hkind]
      have hread := @agentRoot_putObject env content target (by rw [hkind]; decide)
        (setClaudeEntry entryUrl root) (by rw [hfile, hfile])
      rw [hfile] at hread
      rw [htrim, hkind, agentUrl, hread, Option.bind_some, rootUrl, hkind]
      exact iff_of_true (url_setClaudeEntry _ root) (fun h => nomatch h)
    | @opencode root file hkind hfile hroot =>
      have hprimary : ∀ content : AgentDisk,
          primaryFile content target = opencodeFile content target.configDir := by
        intro content
        rw [primaryFile, hkind]
      have hread := @agentRoot_putObject env content target (by rw [hkind]; decide)
        (setOpencodeEntry entryUrl root)
        (by rw [hprimary, hprimary, opencodeFile_putObject])
      rw [hprimary] at hread
      rw [hfile, htrim, hkind, agentUrl, hread, Option.bind_some, rootUrl, hkind]
      exact iff_of_true (url_setOpencodeEntry _ root) (fun h => nomatch h)
    | @codex doc name hkind hdoc hname =>
      obtain ⟨doc', hparse, hsame⟩ := env.parseToml_print (setCodexEntry entryUrl name doc)
      have hfile : ∀ content : AgentDisk, primaryFile content target = .configToml := by
        intro content
        rw [primaryFile, hkind]
      have hread : agentRoot env (Function.update content (target.configDir, .configToml)
          (some (withNewline (env.tomlToString (setCodexEntry entryUrl name doc))))) target =
            some (TomlItem.toFields doc') := by
        have hblank := env.tomlPrint_ne_blank (setCodexEntry entryUrl name doc)
            (List.cons_ne_nil _ _)
        rw [agentRoot, hfile, hkind, Function.update_self, Option.getD_some,
          parseAgentConfigContent, parseTomlContent, if_neg hblank, hparse]
        rfl
      rw [htrim, hkind, agentUrl, hread, Option.bind_some, rootUrl, hkind]
      exact iff_of_true (url_setCodexEntry hname hsame) (fun h => nomatch h)
    | @openclaw root root' models file hkind hfile hroot hformat hmodels =>
      rw [htrim] at hfile hroot hmodels
      -- the file of the models may name another URL for the provider
      have hne := @modelsFile_ne_openclawJson content target.configDir
        (resolveOpenclawAgentId target.config)
      rw [htrim, hkind, agentUrl, agentRoot_openclaw hkind,
        objectAt_putObject_of_ne (hfile ▸ hne.symm),
        objectAt_putObject, Option.bind_some, rootUrl, hkind, hfile,
        ← @modelsFile_putObject env target.configDir content _ root']
      dsimp only
      rw [objectAt_modelsFile, resolveOpenclawProviderName_mapFloats,
        resolveOpenclawProviderName_format hformat, providerUrl_mergedProvider_mapFloats]
      refine (providerUrl_mergedProvider_iff hformat models).trans
        ⟨fun h _ root₁ models₁ hroot₁ hmodels₁ => ?_, fun h => ?_⟩
      · rw [objectAt_of_jsonLikeObject hroot, Option.some_inj] at hroot₁
        rw [modelsFile_putObject, ← hfile, objectAt_of_jsonLikeObject hmodels, Option.some_inj]
          at hmodels₁
        rwa [← hroot₁, ← hmodels₁]
      · refine h rfl root models (objectAt_of_jsonLikeObject hroot) ?_
        rw [modelsFile_putObject, ← hfile]
        exact objectAt_of_jsonLikeObject hmodels
  · rw [if_neg htrim, agentUrl_congr (h.content_of_ne (Ne.symm htrim))]

end Written

theorem reportsUrl_iff {env : AgentEnv} {targets : List IntegrationTarget} {targetId : String}
    {target : IntegrationTarget} (htarget : resolveTargetById targets targetId = .ok target)
    {s : State (String × AgentFile) String} {url : String} :
    (∃ file s', readAgentConfigWithTargets env targets targetId (fun _ => none) s =
        (.ok file, s') ∧ file.ReportsUrl url) ↔
      agentUrl env s.content target = some url := by
  obtain ⟨file, hyields, hreports⟩ :=
    @readAgentConfigWithTargets_yields env s.content targets targetId target htarget
  rw [← hreports]
  obtain ⟨made, hread⟩ := hyields s.made
  constructor
  · rintro ⟨file', s', hread', hurl⟩
    rw [show s = ⟨s.content, s.made⟩ from rfl, hread] at hread'
    cases hread'
    exact hurl
  · intro hurl
    exact ⟨file, _, hread, hurl⟩

/-- **The reader reports the base URL that was written exactly when it takes effect.** -/
theorem takesEffect_iff {env : AgentEnv} {targets : List IntegrationTarget} {targetId : String}
    {target : IntegrationTarget} (htarget : resolveTargetById targets targetId = .ok target)
    {entryUrl path : String} {faults : Faults} {s s' : State (String × AgentFile) String}
    (hwrite : writeTargetEntry env target entryUrl faults s = (.ok path, s')) :
    (∃ file s'', readAgentConfigWithTargets env targets targetId (fun _ => none) s' =
        (.ok file, s'') ∧ file.ReportsUrl (agentEntryUrl target.kind entryUrl)) ↔
      TakesEffect env s.content target entryUrl := by
  rw [reportsUrl_iff htarget]
  exact agentUrl_of_written (writeTargetEntry_ok hwrite)

def claudeTarget : IntegrationTarget := ⟨"t1", .claude, "/home/u/.claude", none, ""⟩

theorem parseJsonLikeContent_plain (fields : Fields) (path : String) :
    parseJsonLikeContent AgentEnv.plain (Json.obj fields).text path = .ok fields := by
  have hprint : (Json.obj fields).text = AgentEnv.plain.toStringPretty (.obj fields) := rfl
  rw [hprint, parseJsonLikeContent_print]
  exact congrArg Except.ok (Json.obj.inj
    ((Json.mapFloats_eq_self_iff id (.obj fields)).2 fun _ _ => rfl))

/-- The settings of a Claude, and nothing else. -/
def settingsOnly (root : Fields) : AgentDisk :=
  Function.update (fun _ => none) (claudeTarget.configDir, .settings) (some (Json.obj root).text)

theorem parsed_settingsOnly (root : Fields) :
    jsonLikeObject AgentEnv.plain claudeTarget.configDir .settings
      (settingsOnly root (claudeTarget.configDir, .settings)) = .ok root := by
  rw [settingsOnly, Function.update_self]
  exact parseJsonLikeContent_plain _ _

/-- Settings with another address. -/
def oldAddress : Fields :=
  [("model", .str "opus"),
    ("env", .obj [("ANTHROPIC_BASE_URL", .str "http://127.0.0.1:1"), ("HTTP_PROXY", .str "")])]

/-- A Claude that used another address uses the entry once it is written. -/
theorem takesEffect_oldAddress :
    ∃ s', writeTargetEntry AgentEnv.plain claudeTarget "http://127.0.0.1:8899/oc/dev"
        (fun _ => none) ⟨settingsOnly oldAddress, 0⟩ = (.ok "/home/u/.claude/settings.json", s') ∧
      ∃ file s'', readAgentConfigWithTargets AgentEnv.plain [claudeTarget] "t1" (fun _ => none)
          s' = (.ok file, s'') ∧
        file.ReportsUrl "http://127.0.0.1:8899/oc/dev" := by
  have htrim : trimmed claudeTarget.configDir = claudeTarget.configDir := by decide
  obtain ⟨s', hedit⟩ : ∃ s', editJsonObject AgentEnv.plain claudeTarget.configDir .settings
      (setClaudeEntry "http://127.0.0.1:8899/oc/dev") (fun _ => none) ⟨settingsOnly oldAddress, 0⟩ =
        (.ok "/home/u/.claude/settings.json", s') :=
    ⟨_, editJsonObject_eq_ok.2 ⟨⟨fun _ => rfl, rfl, rfl, trivial⟩, oldAddress,
      parsed_settingsOnly oldAddress, rfl, rfl⟩⟩
  have hwrite : writeTargetEntry AgentEnv.plain claudeTarget "http://127.0.0.1:8899/oc/dev"
      (fun _ => none) ⟨settingsOnly oldAddress, 0⟩ =
        (.ok "/home/u/.claude/settings.json", s') := by
    show writeClaudeSettings AgentEnv.plain (trimmed claudeTarget.configDir) _ _ _ = _
    rw [htrim]
    exact hedit
  have htarget : resolveTargetById [claudeTarget] "t1" = .ok claudeTarget := rfl
  refine ⟨s', hwrite, (takesEffect_iff htarget hwrite).2 ?_⟩
  rw [TakesEffect, if_pos htrim]
  intro hkind
  cases hkind

def openclawTarget : IntegrationTarget := ⟨"t2", .openclaw, "/home/u/.openclaw", none, ""⟩

def twoRegistries : Fields :=
  [("providers", .obj []),
    ("models", .obj [("providers",
      .obj [("aor_shared", .obj [("baseUrl", .str "http://127.0.0.1:1/v1")])])])]

/-- A `models.json`, and nothing else. -/
def modelsOnly (models : Fields) : AgentDisk :=
  Function.update (fun _ => none) ("/home/u/.openclaw", .models "default")
    (some (Json.obj models).text)

/-- **Providers at two places hide the entry**: the writer takes the ones at the root, and the
reader the ones under `models`. -/
theorem not_takesEffect_twoRegistries :
    ¬ ∀ (env : AgentEnv) (targets : List IntegrationTarget) (targetId : String)
        (target : IntegrationTarget) (entryUrl path : String) (faults : Faults)
        (s s' : State (String × AgentFile) String),
      resolveTargetById targets targetId = .ok target →
      writeTargetEntry env target entryUrl faults s = (.ok path, s') →
      ∃ file s'', readAgentConfigWithTargets env targets targetId (fun _ => none) s' =
        (.ok file, s'') ∧ file.ReportsUrl (agentEntryUrl target.kind entryUrl) := by
  intro h
  have hmodels : modelsOnly twoRegistries ("/home/u/.openclaw", .models "default") =
      some (Json.obj twoRegistries).text := Function.update_self _ _ _
  have hroot : modelsOnly twoRegistries ("/home/u/.openclaw", .openclawJson) = none :=
    Function.update_of_ne (by decide) _ _
  have hfile : AgentFile.models "default" =
      modelsFile (modelsOnly twoRegistries) "/home/u/.openclaw" "default" := by
    rw [modelsFile, chosenFile, hmodels]
    rfl
  have hdir : trimmed openclawTarget.configDir = "/home/u/.openclaw" := by decide
  have hagent : resolveOpenclawAgentId openclawTarget.config = "default" := rfl
  have hparsed : jsonLikeObject AgentEnv.plain "/home/u/.openclaw" (.models "default")
      (modelsOnly twoRegistries ("/home/u/.openclaw", .models "default")) = .ok twoRegistries := by
    rw [hmodels]
    exact parseJsonLikeContent_plain _ _
  have hempty : jsonLikeObject AgentEnv.plain "/home/u/.openclaw" .openclawJson
      (modelsOnly twoRegistries ("/home/u/.openclaw", .openclawJson)) = .ok [] := by
    rw [hroot]
    rfl
  obtain ⟨path, s', hwrite⟩ := @writeTargetEntry_openclaw AgentEnv.plain openclawTarget
    "http://127.0.0.1:8899/oc/dev" (modelsOnly twoRegistries) rfl rfl [] twoRegistries
    (.models "default") (by rw [hdir, hagent]; exact hfile) (by rw [hdir]; exact hempty)
    (by decide) (by rw [hdir]; exact hparsed)
  have htarget : resolveTargetById [openclawTarget] "t2" = .ok openclawTarget := rfl
  have heffect := (agentUrl_of_written (writeTargetEntry_ok hwrite)).1
    ((reportsUrl_iff htarget).1 (h _ _ _ _ _ _ _ _ _ htarget hwrite))
  have hsame : trimmed openclawTarget.configDir = openclawTarget.configDir := hdir
  rw [TakesEffect, if_pos hsame] at heffect
  have hread := heffect rfl [] twoRegistries (objectAt_of_jsonLikeObject hempty)
    (by rw [hagent]; exact hfile ▸ objectAt_of_jsonLikeObject hparsed)
  rcases hread with ⟨-, htwo⟩ | hurl
  · exact htwo (by decide)
  · exact absurd (Option.some.inj hurl) (by decide)

end AiOpenRouter
