/-
What a group entry leaves as it was.

A group entry is to change the base URL of an agent and nothing else.  The writer of
Codex replaces what is no standard table, and that of OpenClaw the whole provider in
`openclaw.json`, whose default models it spells anew.

* `entryPaths` are the paths of the base URL in each file;
* `onlyUrlChanged_iff`: everything else stays exactly when the files are as the writer
  would spell them.
-/
import AiOpenRouter.EntryTakesEffect
import AiOpenRouter.FailedAgentWrites

namespace AiOpenRouter

open Files
open Json (Fields SameOff aliases)

/-! ### The paths of the base URL -/

def fileValue (env : AgentEnv) (content : AgentDisk) (configDir : String) (file : AgentFile) :
    Option Json :=
  if file = .configToml then
    (tomlDocument env configDir file (content (configDir, file))).toOption.map fun doc =>
      .obj (TomlItem.toFields doc)
  else (jsonLikeObject env configDir file (content (configDir, file))).toOption.map .obj

def rootAt (env : AgentEnv) (content : AgentDisk) (configDir : String) (file : AgentFile) :
    Fields :=
  (jsonLikeObject env configDir file (content (configDir, file))).toOption.getD []

def codexProvider (env : AgentEnv) (content : AgentDisk) (configDir : String) : String :=
  ((tomlDocument env configDir .configToml (content (configDir, .configToml))).bind
    resolveCodexProviderNameFromDoc).toOption.getD ""

def openclawProvider (env : AgentEnv) (content : AgentDisk) (target : IntegrationTarget) : String :=
  resolveOpenclawProviderName (rootAt env content (trimmed target.configDir) .openclawJson) none
    target.config

/-- Where `models.json` has the providers that a group entry changes. -/
def registryPath (root : Fields) : List String :=
  if registryAtRoot root then ["providers"] else ["models", "providers"]

def urlKeys : List String := ["baseUrl", "baseURL"]

def entryPaths (env : AgentEnv) (content : AgentDisk) (target : IntegrationTarget)
    (file : AgentFile) : List (List String) :=
  let configDir := trimmed target.configDir
  match target.kind with
  | .claude => if file = .settings then aliases ["env"] ["ANTHROPIC_BASE_URL"] else []
  | .opencode =>
    if file = opencodeFile content configDir then
      aliases ["provider", "aor_shared", "options"] ["baseURL"]
    else []
  | .codex =>
    if file = .configToml then
      aliases ["model_providers", codexProvider env content configDir] ["base_url"]
    else []
  | .openclaw =>
    if file = .openclawJson then
      aliases ["models", "providers", trimmed (openclawProvider env content target)] urlKeys
    else if file = modelsFile content configDir (resolveOpenclawAgentId target.config) then
      aliases (registryPath (rootAt env content configDir file) ++
        [openclawProvider env content target]) urlKeys
    else []

/-- **Everything but the base URL is what it was, in every file.** -/
def OnlyUrlChanged (env : AgentEnv) (target : IntegrationTarget) (content content' : AgentDisk) :
    Prop :=
  ∀ configDir file, SameOff
    (if configDir = trimmed target.configDir then entryPaths env content target file else [])
    (fileValue env content configDir file) (fileValue env content' configDir file)

/-! ### What has to be there -/

def FloatsKept (env : AgentEnv) (touched : List (List String)) (root : Fields) : Prop :=
  SameOff touched (some (.obj root)) (some (.obj (Json.mapFloatsFields env.floatRead root)))

def HoldsOnly (item : Option TomlItem) (fields : Fields) (key : String) : Prop :=
  item.bind TomlItem.asTable = none → ∀ key', key' ≠ key → fields.lookup key' = none

/-- The providers and the written one are standard tables, or hold nothing that could be lost. -/
structure CodexKept (doc : TomlTable) (name : String) : Prop where
  providers : HoldsOnly (doc.lookup "model_providers")
    (Json.childObject (TomlItem.toFields doc) "model_providers") name
  provider : HoldsOnly ((TomlTable.childTable doc "model_providers").lookup name)
    (Json.childObject (Json.childObject (TomlItem.toFields doc) "model_providers") name) "base_url"

structure DefaultsKept (model : Fields) : Prop where
  primary : ∀ v, model.lookup "primary" = some v → ∃ text, v = .str text ∧ trimmed text = text ∧
    text ≠ ""
  fallbacks : ∀ v, model.lookup "fallbacks" = some v → ∃ texts, v = .arr (texts.map .str) ∧
    texts ≠ [] ∧ ∀ text ∈ texts, trimmed text = text ∧ text ≠ ""

def entryApi (config : Option AgentConfig) (root : Fields) : String :=
  (nonBlank (textAt (mergedProvider root none (resolveOpenclawProviderName root none config))
    "api")).getD "openai-responses"

/-- The provider of `openclaw.json` has a format and a base URL only, and there are default
models. -/
structure PrimaryKept (config : Option AgentConfig) (root : Fields) : Prop where
  api : Json.at? (some (.obj root)) ["models", "providers",
    trimmed (resolveOpenclawProviderName root none config), "api"] =
      some (.str (entryApi config root))
  rest : ∀ key, key ≠ "api" → key ∉ urlKeys → Json.at? (some (.obj root)) ["models", "providers",
    trimmed (resolveOpenclawProviderName root none config), key] = none
  defaults : ∃ model, Json.at? (some (.obj root)) ["agents", "defaults", "model"] =
    some (.obj model) ∧ DefaultsKept model

/-- The provider of `models.json` has the same format. -/
def ModelsKept (config : Option AgentConfig) (root models : Fields) : Prop :=
  Json.at? (some (.obj models)) (registryPath models ++
    [resolveOpenclawProviderName root none config, "api"]) = some (.str (entryApi config root))

/-- Wherever a file is written, it holds what has to be there. -/
def EntryKeeps (env : AgentEnv) (target : IntegrationTarget) (faults : Faults)
    (s : State (String × AgentFile) String) : Prop :=
  let configDir := trimmed target.configDir
  let written (file : AgentFile) : Prop :=
    Program.Served faults s.content s.made [.read (configDir, file), .write, .write]
  let holds (file : AgentFile) (root : Fields) : Prop :=
    jsonLikeObject env configDir file (s.content (configDir, file)) = .ok root
  let floatsKept (file : AgentFile) (root : Fields) : Prop :=
    FloatsKept env (entryPaths env s.content target file) root
  env.place configDir = .folder →
  match target.kind with
  | .claude => written .settings → ∀ root, holds .settings root → floatsKept .settings root
  | .opencode =>
    let file := opencodeFile s.content configDir
    written file → ∀ root, holds file root → floatsKept file root
  | .codex => written .configToml → ∀ doc name,
    tomlDocument env configDir .configToml (s.content (configDir, .configToml)) = .ok doc →
      resolveCodexProviderNameFromDoc doc = .ok name → CodexKept doc name
  | .openclaw => written .openclawJson → ∀ root, holds .openclawJson root →
    trimmed (resolveOpenclawProviderName root none target.config) ≠ "" →
      let agentId := resolveOpenclawAgentId target.config
      let file := modelsFile s.content configDir agentId
      (PrimaryKept target.config root ∧ floatsKept .openclawJson root) ∧
        (Program.Served faults s.content (s.made + 3) (syncing s.content configDir agentId) →
          ∀ models, holds file models →
            ModelsKept target.config root models ∧ floatsKept file models)

/-! ### One file -/

section OneFile

variable {entryUrl : String}

theorem sameOff_insertField {fields : Fields} {key : String} {value : Json} :
    SameOff (aliases [] [key]) (some (.obj fields))
      (some (.obj (Json.insertField fields key value))) := by
  rw [Json.sameOff_aliases_nil_iff]
  intro key' hkey
  rw [lookup_insertField, if_neg (by simpa using hkey)]
  exact SameOff.refl [] _

theorem sameOff_setClaudeEntry (root : Fields) :
    SameOff (aliases ["env"] ["ANTHROPIC_BASE_URL"]) (some (.obj root))
      (some (.obj (setClaudeEntry entryUrl root))) := by
  rw [setClaudeEntry, Json.sameOff_updateChild_iff (List.cons_ne_nil _ _)]
  exact sameOff_insertField

theorem sameOff_setOpencodeEntry (root : Fields) :
    SameOff (aliases ["provider", "aor_shared", "options"] ["baseURL"]) (some (.obj root))
      (some (.obj (setOpencodeEntry entryUrl root))) := by
  rw [setOpencodeEntry, Json.sameOff_updateChild_iff (List.cons_ne_nil _ _),
    Json.sameOff_updateChild_iff (List.cons_ne_nil _ _),
    Json.sameOff_updateChild_iff (List.cons_ne_nil _ _)]
  exact sameOff_insertField

/-- A table that is made in place of something else has the entries of an empty one. -/
theorem sameOff_childTable_iff {item : Option TomlItem} {fields : Fields} {key : String}
    (hfields : ∀ table, item.bind TomlItem.asTable = some table →
      fields = TomlItem.toFields table) :
    (∀ key', key' ≠ key → SameOff [] (fields.lookup key')
        ((TomlItem.toFields ((item.bind TomlItem.asTable).getD [])).lookup key')) ↔
      HoldsOnly item fields key := by
  unfold HoldsOnly
  rcases htable : item.bind TomlItem.asTable with _ | table
  · rw [forall_prop_of_true rfl]
    exact forall₂_congr fun key' _ => Json.sameOff_nil_none
  · rw [hfields table htable]
    exact iff_of_true (fun key' _ => SameOff.refl [] _) fun h => nomatch h

theorem childObject_of_asTable {parent : TomlTable} {key : String} {table : TomlTable}
    (h : (parent.lookup key).bind TomlItem.asTable = some table) :
    Json.childObject (TomlItem.toFields parent) key = TomlItem.toFields table := by
  obtain ⟨item, hitem, htable⟩ := Option.bind_eq_some_iff.1 h
  rw [Json.childObject, TomlTable.lookup_toFields, hitem]
  cases item with
  | table entries =>
    obtain rfl : entries = table := Option.some.inj htable
    rw [Option.map_some, TomlItem.toValue]
    rfl
  | value v => cases htable
  | arrayOfTables tables => cases htable

/-- **Codex keeps everything else exactly when what is replaced holds nothing else.** -/
theorem sameOff_setCodexEntry_iff {doc : TomlTable} {name : String} :
    SameOff (aliases ["model_providers", name] ["base_url"])
        (some (.obj (TomlItem.toFields doc)))
        (some (.obj (TomlItem.toFields (setCodexEntry entryUrl name doc)))) ↔
      CodexKept doc name := by
  have hkeys : ["base_url"] ≠ [] := List.cons_ne_nil _ _
  rw [setCodexEntry, Json.sameOff_aliases_cons_iff, TomlTable.lookup_toFields_updateTable,
    if_pos rfl,
    Json.sameOff_childObject_iff (Json.aliases_ne_nil hkeys), Json.sameOff_aliases_cons_iff,
    TomlTable.lookup_toFields_updateTable, if_pos rfl,
    Json.sameOff_childObject_iff (Json.aliases_ne_nil hkeys), Json.sameOff_aliases_nil_iff]
  have houter : ∀ key, key ≠ "model_providers" → SameOff [] ((TomlItem.toFields doc).lookup key)
      ((TomlItem.toFields (TomlTable.updateTable doc "model_providers" fun modelProviders =>
        TomlTable.updateTable modelProviders name fun provider =>
          TomlTable.insert provider "base_url" (.value (.string entryUrl)))).lookup key) := by
    intro key hkey
    rw [TomlTable.lookup_toFields_updateTable, if_neg hkey]
    exact SameOff.refl [] _
  rw [and_iff_right houter]
  have hproviders := @sameOff_childTable_iff (doc.lookup "model_providers")
    (Json.childObject (TomlItem.toFields doc) "model_providers") name
    fun _ => childObject_of_asTable
  have hprovider := @sameOff_childTable_iff
    ((TomlTable.childTable doc "model_providers").lookup name)
    (Json.childObject (Json.childObject (TomlItem.toFields doc) "model_providers") name)
      "base_url" <| by
      intro table htable
      rcases hdoc : (doc.lookup "model_providers").bind TomlItem.asTable with _ | providers
      · rw [TomlTable.childTable, hdoc] at htable
        cases htable
      · rw [TomlTable.childTable, hdoc, Option.getD_some] at htable
        rw [childObject_of_asTable hdoc, childObject_of_asTable htable]
  constructor
  · rintro ⟨hmiddle, hinner⟩
    refine ⟨hproviders.1 fun key hkey => ?_, hprovider.1 fun key hkey => ?_⟩
    · have := hmiddle key hkey
      rwa [TomlTable.lookup_toFields_updateTable, if_neg hkey] at this
    · have := hinner key (by simpa using hkey)
      rwa [TomlTable.lookup_toFields, TomlTable.lookup_insert, if_neg hkey,
        ← TomlTable.lookup_toFields] at this
  · intro hkept
    refine ⟨fun key hkey => ?_, fun key hkey => ?_⟩
    · rw [TomlTable.lookup_toFields_updateTable, if_neg hkey]
      exact hproviders.2 hkept.providers key hkey
    · have hne : key ≠ "base_url" := by simpa using hkey
      rw [TomlTable.lookup_toFields, TomlTable.lookup_insert, if_neg hne,
        ← TomlTable.lookup_toFields]
      exact hprovider.2 hkept.provider key hne

end OneFile

/-! ### The files of OpenClaw -/

section Openclaw

variable {config : Option AgentConfig} {entryUrl : String} {root root' : Fields}

def writtenFallbacks (editor : OpenClawEditorConfig) : Option Json :=
  if editor.fallbackModels = [] then none
  else some (.arr (((editor.fallbackModels.map trimmed).filter (· ≠ "")).map .str))

theorem lookup_setDefaultModels (editor : OpenClawEditorConfig) (model : Fields) (key : String) :
    (setDefaultModels editor model).lookup key =
      if key = "fallbacks" then writtenFallbacks editor
      else if key = "primary" then (nonBlank editor.primaryModel).map .str
        else model.lookup key := by
  unfold setDefaultModels writtenFallbacks
  rcases nonBlank editor.primaryModel with _ | text
  · rcases editor.fallbackModels with _ | ⟨head, texts⟩
    · exact (Json.lookup_removeField _ _ _).trans
        (if_congr Iff.rfl rfl (Json.lookup_removeField _ _ _))
    · exact (lookup_insertField _ _ _ _).trans
        (if_congr Iff.rfl rfl (Json.lookup_removeField _ _ _))
  · rcases editor.fallbackModels with _ | ⟨head, texts⟩
    · exact (Json.lookup_removeField _ _ _).trans
        (if_congr Iff.rfl rfl (lookup_insertField _ _ _ _))
    · exact (lookup_insertField _ _ _ _).trans
        (if_congr Iff.rfl rfl (lookup_insertField _ _ _ _))

variable {f : String → String} {model models : Fields} {name : String} {texts : List String}

theorem primary_iff :
    (model.lookup "primary" = (nonBlank (textAt model "primary")).map .str) ↔
      ∀ v, model.lookup "primary" = some v → ∃ text, v = .str text ∧ trimmed text = text ∧
        text ≠ "" := by
  rw [textAt]
  rcases hvalue : model.lookup "primary" with _ | v
  · exact iff_of_true rfl fun v h => absurd h (by simp)
  · rw [Option.bind_some]
    constructor
    · intro hsame w hw
      cases hw
      obtain ⟨text, htext, hv⟩ := Option.map_eq_some_iff.1 hsame.symm
      obtain ⟨raw, hraw, htrim, hne⟩ := nonBlank_eq_some.1 htext
      have hstr : v.asStr = some text := by rw [← hv]; rfl
      obtain rfl : raw = text := Option.some.inj (hraw.symm.trans hstr)
      exact ⟨raw, hv.symm, htrim, hne⟩
    · intro hspelled
      obtain ⟨text, rfl, htrim, hne⟩ := hspelled v rfl
      rw [Json.asStr, nonBlank_of_trimmed htrim hne]
      rfl

theorem parseStringArray_texts (hne : texts ≠ [])
    (h : ∀ text ∈ texts, trimmed text = text ∧ text ≠ "") :
    parseStringArray (some (.arr (texts.map .str))) = some texts := by
  have hparsed : ((texts.map Json.str).filterMap fun item =>
      (nonBlank item.asStr).or (nonBlank ((item.get "id").bind Json.asStr))) = texts := by
    rw [List.filterMap_map]
    refine (List.filterMap_congr fun text htext => ?_).trans (List.filterMap_some)
    have hstr : nonBlank (Json.str text).asStr = some text :=
      nonBlank_of_trimmed (h text htext).1 (h text htext).2
    rw [Function.comp_apply, hstr, Option.some_or]
  unfold parseStringArray
  dsimp only
  rw [hparsed, if_neg (by simpa using hne)]

theorem trim_filter_texts (h : ∀ text ∈ texts, trimmed text = text ∧ text ≠ "") :
    (texts.map trimmed).filter (· ≠ "") = texts := by
  have hmap : texts.map trimmed = texts := by
    rw [List.map_congr_left fun text htext => (h text htext).1, List.map_id']
  rw [hmap, List.filter_eq_self]
  intro text htext
  simpa using (h text htext).2

theorem trimmed_of_nonBlank {raw : Option String} {text : String} (h : nonBlank raw = some text) :
    trimmed text = text ∧ text ≠ "" := by
  obtain ⟨s, -, htrim, hne⟩ := nonBlank_eq_some.1 h
  exact ⟨htrim ▸ trimmed_trimmed s, hne⟩

theorem parseStringArray_eq_some {value : Option Json} (h : parseStringArray value = some texts) :
    texts ≠ [] ∧ ∀ text ∈ texts, trimmed text = text ∧ text ≠ "" := by
  unfold parseStringArray at h
  dsimp only at h
  split_ifs at h with hempty
  cases h
  refine ⟨by simpa using hempty, fun text htext => ?_⟩
  rcases value with _ | v
  · cases htext
  · cases v with
    | arr items =>
      obtain ⟨item, -, hitem⟩ := List.mem_filterMap.1 htext
      rcases Option.or_eq_some_iff.1 hitem with hstr | ⟨-, hid⟩
      · exact trimmed_of_nonBlank hstr
      · exact trimmed_of_nonBlank hid
    | str raw =>
      obtain ⟨piece, -, hpiece⟩ := List.mem_filterMap.1 htext
      exact trimmed_of_nonBlank hpiece
    | _ => cases htext

theorem fallbacks_iff {editor : OpenClawEditorConfig}
    (hfallbacks : editor.fallbackModels = (parseStringArray (model.lookup "fallbacks")).getD []) :
    model.lookup "fallbacks" = writtenFallbacks editor ↔
      ∀ v, model.lookup "fallbacks" = some v → ∃ texts, v = .arr (texts.map .str) ∧ texts ≠ [] ∧
        ∀ text ∈ texts, trimmed text = text ∧ text ≠ "" := by
  unfold writtenFallbacks
  rcases hparsed : parseStringArray (model.lookup "fallbacks") with _ | texts
  · have hnil : editor.fallbackModels = [] := by rw [hfallbacks, hparsed]; rfl
    rw [if_pos hnil]
    constructor
    · intro hnone v hv
      rw [hnone] at hv
      cases hv
    · intro hspelled
      by_contra hsome
      obtain ⟨v, hv⟩ := Option.ne_none_iff_exists'.1 hsome
      obtain ⟨texts, rfl, hne, htexts⟩ := hspelled v hv
      rw [hv, parseStringArray_texts hne htexts] at hparsed
      cases hparsed
  · obtain ⟨hne, htexts⟩ := parseStringArray_eq_some hparsed
    have hlist : editor.fallbackModels = texts := by rw [hfallbacks, hparsed]; rfl
    rw [hlist, if_neg hne, trim_filter_texts htexts]
    constructor
    · intro hsame v hv
      exact ⟨texts, Option.some.inj (hv.symm.trans hsame), hne, htexts⟩
    · intro hspelled
      rcases hvalue : model.lookup "fallbacks" with _ | v
      · rw [hvalue] at hparsed
        cases hparsed
      · obtain ⟨texts', rfl, hne', htexts'⟩ := hspelled v hvalue
        rw [hvalue, parseStringArray_texts hne' htexts'] at hparsed
        rw [Option.some.inj hparsed]

theorem plain_of_writtenFallbacks (f : String → String) {editor : OpenClawEditorConfig} {v : Json}
    (h : writtenFallbacks editor = some v) : v.asObject = none ∧ v.mapFloats f = v := by
  unfold writtenFallbacks at h
  split_ifs at h
  cases h
  refine ⟨rfl, ?_⟩
  rw [Json.mapFloats, Json.mapFloatsItems_eq, List.map_map]
  rfl

theorem at?_format_defaults
    (h : formatOpenclawPrimarySource (openclawEntryEditor config entryUrl root) root = .ok root')
    (path : List String) :
    Json.at? (some (.obj root')) ("agents" :: "defaults" :: "model" :: path) =
      Json.at? (some (.obj (setDefaultModels (openclawEntryEditor config entryUrl root)
        (modelConfigOf root)))) path := by
  obtain ⟨-, rfl⟩ := formatOpenclawPrimarySource_eq_ok.1 h
  rw [Json.at?_updateChild, Json.at?_updateChild, Json.at?_updateChild, updatePrimaryProvider,
    childObject_updateChild_of_ne _ (by decide)]
  rfl

theorem at?_format_provider
    (h : formatOpenclawPrimarySource (openclawEntryEditor config entryUrl root) root = .ok root')
    (key : String) :
    Json.at? (some (.obj root')) ["models", "providers",
        trimmed (resolveOpenclawProviderName root none config), key] =
      (buildOpenclawProviderSnapshot
        (openclawEntryEditor config entryUrl root) false).lookup key := by
  obtain ⟨-, rfl⟩ := formatOpenclawPrimarySource_eq_ok.1 h
  rw [Json.at?_cons, Json.lookup_updateChild, if_neg (by decide), ← Json.at?_cons,
    updatePrimaryProvider, Json.at?_updateChild, Json.at?_updateChild,
    openclawEntryEditor_providerId, Json.at?_updateChild, Json.at?_cons, Json.at?_nil]

theorem at?_modelConfigOf (key : String) :
    Json.at? (some (.obj root)) ["agents", "defaults", "model", key] =
      (modelConfigOf root).lookup key := by
  rw [Json.at?_cons, ← Json.at?_childObject, Json.at?_cons, ← Json.at?_childObject, Json.at?_cons,
    ← Json.at?_childObject, Json.at?_cons, Json.at?_nil]
  rfl

theorem modelConfigOf_of_at?
    (h : Json.at? (some (.obj root)) ["agents", "defaults", "model"] = some (.obj model)) :
    modelConfigOf root = model := by
  have hchild : Json.at? (some (.obj (Json.childObject (Json.childObject root "agents")
      "defaults"))) ["model"] = some (.obj model) := by
    rw [Json.at?_childObject, ← Json.at?_cons, Json.at?_childObject, ← Json.at?_cons, h]
  rw [Json.at?_cons, Json.at?_nil] at hchild
  rw [modelConfigOf, Json.childObject, hchild]
  rfl

theorem openclawEntryEditor_primaryModel :
    (openclawEntryEditor config entryUrl root).primaryModel =
      textAt (modelConfigOf root) "primary" := rfl

theorem openclawEntryEditor_fallbackModels :
    (openclawEntryEditor config entryUrl root).fallbackModels =
      (parseStringArray ((modelConfigOf root).lookup "fallbacks")).getD [] := rfl

theorem snapshotApi_eq : snapshotApi (openclawEntryEditor config entryUrl root) =
    entryApi config root := rfl

/-- **What has to be in `openclaw.json` for everything else to stay.** -/
theorem primaryKept_of_sameOff
    (h : formatOpenclawPrimarySource (openclawEntryEditor config entryUrl root) root = .ok root')
    (hsame : SameOff (aliases ["models", "providers",
      trimmed (resolveOpenclawProviderName root none config)] urlKeys) (some (.obj root))
      (some (.obj (Json.mapFloatsFields f root')))) :
    PrimaryKept config root := by
  have hmapped : SameOff _ (some (.obj root)) ((some (.obj root')).map (Json.mapFloats f)) := hsame
  -- what is written under a key that is no URL was there before
  have hat : ∀ key, key ∉ urlKeys → (∀ v, (buildOpenclawProviderSnapshot
      (openclawEntryEditor config entryUrl root) false).lookup key = some v →
        v.asObject = none ∧ v.mapFloats f = v) →
      Json.at? (some (.obj root)) ["models", "providers",
        trimmed (resolveOpenclawProviderName root none config), key] =
          (buildOpenclawProviderSnapshot (openclawEntryEditor config entryUrl root)
            false).lookup key := by
    intro key hkey hplain
    rw [← at?_format_provider h]
    refine hmapped.at?_eq ?_ (by rwa [at?_format_provider h])
    rw [Json.off_aliases_cons_iff, Json.off_aliases_cons_iff, Json.off_aliases_cons_iff]
    exact Json.off_aliases_nil hkey
  -- the default models lie off the path of the URL
  have hdefaults : ∀ path, Json.Off (aliases ["models", "providers",
      trimmed (resolveOpenclawProviderName root none config)] urlKeys) ("agents" :: path) :=
    Json.off_aliases_of_ne (by decide)
  have hwritten := fun path => @at?_format_defaults config entryUrl root root' h path
  refine ⟨?_, ?_, ?_⟩
  · rw [hat "api" (by decide), snapshot_eq]
    · rfl
    · rw [snapshot_eq]
      intro v hv
      cases hv
      exact ⟨rfl, rfl⟩
  · intro key hapi hkey
    have hbase : key ≠ "baseUrl" := by
      rintro rfl
      exact hkey (by decide)
    have hnone : (buildOpenclawProviderSnapshot (openclawEntryEditor config entryUrl root)
        false).lookup key = none := by
      rw [snapshot_eq, List.lookup_cons, beq_false_of_ne hapi, List.lookup_cons,
        beq_false_of_ne hbase]
      rfl
    rw [hat key hkey (by rw [hnone]; exact fun v hv => nomatch hv), hnone]
  · obtain ⟨model, hmodel⟩ := hmapped.exists_obj (hdefaults _) (hwritten [])
    refine ⟨model, hmodel, ?_⟩
    have hconfig := modelConfigOf_of_at? hmodel
    have hkey : ∀ key, (∀ v, (setDefaultModels (openclawEntryEditor config entryUrl root)
        (modelConfigOf root)).lookup key = some v → v.asObject = none ∧ v.mapFloats f = v) →
        model.lookup key = (setDefaultModels (openclawEntryEditor config entryUrl root)
          (modelConfigOf root)).lookup key := by
      intro key hplain
      rw [← hconfig, ← at?_modelConfigOf, hmapped.at?_eq (hdefaults _) ?_, hwritten, Json.at?_cons,
        Json.at?_nil]
      rw [hwritten, Json.at?_cons, Json.at?_nil]
      exact hplain
    constructor
    · have hprimary := hkey "primary" <| by
        rw [lookup_setDefaultModels, if_neg (by decide), if_pos rfl]
        intro v hv
        obtain ⟨text, -, rfl⟩ := Option.map_eq_some_iff.1 hv
        exact ⟨rfl, rfl⟩
      rw [lookup_setDefaultModels, if_neg (by decide), if_pos rfl,
        openclawEntryEditor_primaryModel, hconfig] at hprimary
      exact primary_iff.1 hprimary
    · have hfallbacks := hkey "fallbacks" <| by
        rw [lookup_setDefaultModels, if_pos rfl]
        exact fun v hv => plain_of_writtenFallbacks f hv
      rw [lookup_setDefaultModels, if_pos rfl] at hfallbacks
      refine (fallbacks_iff ?_).1 hfallbacks
      rw [openclawEntryEditor_fallbackModels, hconfig]

theorem lookup_eq_obj_of_at? {fields child : Fields} {key : String} {path : List String}
    (h : Json.at? (some (.obj fields)) (key :: path) = some (.obj child)) :
    ∃ inner, fields.lookup key = some (.obj inner) ∧
      Json.at? (some (.obj inner)) path = some (.obj child) := by
  rw [Json.at?_cons] at h
  rcases hvalue : fields.lookup key with _ | v
  · rw [hvalue] at h
    cases h
  · rw [hvalue] at h
    cases v with
    | obj inner => exact ⟨inner, rfl, h⟩
    | _ =>
      cases path with
      | nil => cases Option.some.inj h
      | cons head path => cases h

theorem sameOff_of_primaryKept
    (h : formatOpenclawPrimarySource (openclawEntryEditor config entryUrl root) root = .ok root')
    (hkept : PrimaryKept config root) :
    SameOff (aliases ["models", "providers",
        trimmed (resolveOpenclawProviderName root none config)] urlKeys)
      (some (.obj root)) (some (.obj root')) := by
  obtain ⟨-, rfl⟩ := formatOpenclawPrimarySource_eq_ok.1 h
  have hkeys : urlKeys ≠ [] := List.cons_ne_nil _ _
  -- first the provider, then the default models
  have hprovider : SameOff (aliases ["models", "providers",
      trimmed (resolveOpenclawProviderName root none config)] urlKeys) (some (.obj root))
      (some (.obj (updatePrimaryProvider root
        (trimmed (resolveOpenclawProviderName root none config)) fun _ =>
          buildOpenclawProviderSnapshot (openclawEntryEditor config entryUrl root) false))) := by
    rw [updatePrimaryProvider, Json.sameOff_updateChild_iff hkeys,
      Json.sameOff_updateChild_iff hkeys,
      Json.sameOff_updateChild_iff hkeys, Json.sameOff_aliases_nil_iff]
    intro key hkey
    have hat : Json.at? (some (.obj root)) ["models", "providers",
        trimmed (resolveOpenclawProviderName root none config), key] =
          (Json.childObject (Json.childObject (Json.childObject root "models") "providers")
            (trimmed (resolveOpenclawProviderName root none config))).lookup key := by
      rw [Json.at?_cons, ← Json.at?_childObject, Json.at?_cons, ← Json.at?_childObject,
        Json.at?_cons, ← Json.at?_childObject, Json.at?_cons, Json.at?_nil]
    rw [← hat, snapshot_eq, List.lookup_cons]
    by_cases hapi : key = "api"
    · rw [hapi, beq_self_eq_true, hkept.api]
      exact SameOff.refl [] _
    · have hbase : key ≠ "baseUrl" := by
        rintro rfl
        exact hkey (by decide)
      rw [beq_false_of_ne hapi, hkept.rest key hapi hkey]
      dsimp only
      rw [List.lookup_cons, beq_false_of_ne hbase]
      exact SameOff.refl [] none
  refine hprovider.trans ?_
  rw [Json.sameOff_aliases_cons_iff, Json.lookup_updateChild, if_neg (by decide)]
  refine ⟨fun key _ => ?_, SameOff.refl _ _⟩
  rw [Json.lookup_updateChild]
  by_cases hagents : key = "agents"
  · rw [if_pos hagents, hagents]
    obtain ⟨model, hmodel, hdefaults⟩ := hkept.defaults
    obtain ⟨agents, hagentsAt, hat⟩ := lookup_eq_obj_of_at? hmodel
    obtain ⟨defaults, hdefaultsAt, hat'⟩ := lookup_eq_obj_of_at? hat
    rw [Json.at?_cons, Json.at?_nil] at hat'
    have hother : (updatePrimaryProvider root
        (trimmed (openclawEntryEditor config entryUrl root).providerId) fun _ =>
          buildOpenclawProviderSnapshot (openclawEntryEditor config entryUrl root)
            false).lookup "agents" = some (.obj agents) := by
      rw [updatePrimaryProvider, Json.lookup_updateChild, if_neg (by decide), hagentsAt]
    have hchild : Json.childObject (updatePrimaryProvider root
        (trimmed (openclawEntryEditor config entryUrl root).providerId) fun _ =>
          buildOpenclawProviderSnapshot (openclawEntryEditor config entryUrl root) false) "agents" =
        agents := by
      rw [Json.childObject, hother]
      rfl
    rw [← @openclawEntryEditor_providerId config entryUrl root, hother, hchild]
    refine Json.sameOff_nil_updateChild hdefaultsAt (Json.sameOff_nil_updateChild hat' ?_)
    rw [Json.sameOff_nil_obj_iff]
    have hconfig := modelConfigOf_of_at? hmodel
    intro key'
    rw [lookup_setDefaultModels]
    by_cases hfallbacks : key' = "fallbacks"
    · rw [if_pos hfallbacks, hfallbacks, ← (fallbacks_iff ?_).2 hdefaults.fallbacks]
      · exact SameOff.refl [] _
      · rw [openclawEntryEditor_fallbackModels, hconfig]
    · rw [if_neg hfallbacks]
      by_cases hprimary : key' = "primary"
      · rw [if_pos hprimary, hprimary, openclawEntryEditor_primaryModel, hconfig,
          ← primary_iff.2 hdefaults.primary]
        exact SameOff.refl [] _
      · rw [if_neg hprimary]
        exact SameOff.refl [] _
  · rw [if_neg hagents]
    exact SameOff.refl [] _

/-! ### The file `models.json` -/

/-- What is on the way to a provider of `models.json`. -/
theorem sameOff_updateRegistry_iff {g : Fields → Fields} :
    SameOff (aliases (registryPath models ++ [name]) urlKeys) (some (.obj models))
        (some (.obj (updateRegistry models g))) ↔
      SameOff (aliases [name] urlKeys) (some (.obj (registryMap models)))
        (some (.obj (g (registryMap models)))) := by
  have hkeys : urlKeys ≠ [] := List.cons_ne_nil _ _
  unfold registryPath updateRegistry registryMap
  by_cases hroot : registryAtRoot models = true
  · rw [if_pos hroot, if_pos hroot, if_pos hroot]
    exact Json.sameOff_updateChild_iff hkeys
  · rw [if_neg hroot, if_neg hroot, if_neg hroot]
    exact (Json.sameOff_updateChild_iff hkeys).trans (Json.sameOff_updateChild_iff hkeys)

theorem at?_registryPath (models : Fields) (key : String) (path : List String) :
    Json.at? (some (.obj models)) (registryPath models ++ key :: path) =
      Json.at? (some (.obj (registryMap models))) (key :: path) := by
  unfold registryPath registryMap
  by_cases hroot : registryAtRoot models = true
  · rw [if_pos hroot, if_pos hroot, List.singleton_append, Json.at?_cons, ← Json.at?_childObject]
  · rw [if_neg hroot, if_neg hroot, List.cons_append, List.singleton_append, Json.at?_cons,
      ← Json.at?_childObject, Json.at?_cons, ← Json.at?_childObject]

theorem at?_updateRegistry (models : Fields) (g : Fields → Fields) (path : List String) :
    Json.at? (some (.obj (updateRegistry models g))) (registryPath models ++ path) =
      Json.at? (some (.obj (g (registryMap models)))) path := by
  unfold registryPath updateRegistry registryMap
  by_cases hroot : registryAtRoot models = true
  · rw [if_pos hroot, if_pos hroot, if_pos hroot, List.singleton_append, Json.at?_updateChild]
  · rw [if_neg hroot, if_neg hroot, if_neg hroot, List.cons_append, List.singleton_append,
      Json.at?_updateChild, Json.at?_updateChild]

theorem off_registryPath {key : String} (h : key ∉ urlKeys) :
    Json.Off (aliases (registryPath models ++ [name]) urlKeys)
      (registryPath models ++ [name, key]) := by
  unfold registryPath
  split_ifs
  · exact Json.off_aliases_cons_iff.2 (Json.off_aliases_cons_iff.2 (Json.off_aliases_nil h))
  · exact Json.off_aliases_cons_iff.2 (Json.off_aliases_cons_iff.2
      (Json.off_aliases_cons_iff.2 (Json.off_aliases_nil h)))

theorem lookup_merge_snapshot {existing : Option Fields} {key : String} (hkey : key ∉ urlKeys) :
    (mergeOpenclawProvider existing
        (buildOpenclawProviderSnapshot
          (openclawEntryEditor config entryUrl root) false)).lookup key =
      if key = "api" then some (.str (entryApi config root))
        else (existing.getD []).lookup key := by
  have hbase : key ≠ "baseUrl" := by
    rintro rfl
    exact hkey (by decide)
  have hother : key ≠ "baseURL" := by
    rintro rfl
    exact hkey (by decide)
  rw [snapshot_eq, snapshotApi_eq]
  unfold mergeOpenclawProvider
  rw [Json.lookup_extendFields, List.lookup_cons]
  by_cases hapi : key = "api"
  · rw [if_pos hapi, hapi, beq_self_eq_true]
    rfl
  · have hspelling : ∀ other, other ≠ "api" → other ≠ "baseUrl" →
        ¬ ((([("api", .str (entryApi config root)),
          ("baseUrl", .str (buildOpenclawEntryUrl entryUrl))] : Fields).lookup other).isSome =
            true) := by
      intro other hapi' hbase'
      rw [List.lookup_cons, beq_false_of_ne hapi', List.lookup_cons, beq_false_of_ne hbase']
      exact Bool.false_ne_true
    have hurl : ((([("api", .str (entryApi config root)),
        ("baseUrl", .str (buildOpenclawEntryUrl entryUrl))] : Fields).lookup "baseUrl").isSome =
          true) := rfl
    dsimp only
    rw [if_neg hapi, beq_false_of_ne hapi, if_neg (hspelling "api_key" (by decide) (by decide)),
      if_neg (hspelling "apiKey" (by decide) (by decide)),
      if_neg (hspelling "baseURL" (by decide) (by decide)), if_pos hurl]
    dsimp only
    rw [List.lookup_cons, beq_false_of_ne hbase, Json.lookup_removeField, if_neg hother]
    rfl

/-- **What has to be in `models.json` for everything else to stay.** -/
theorem sameOff_syncProvider_iff :
    SameOff (aliases (registryPath models ++ [name]) urlKeys) (some (.obj models))
        (some (.obj (Json.mapFloatsFields f (syncProvider name
          (buildOpenclawProviderSnapshot (openclawEntryEditor config entryUrl root) false) true
          models)))) ↔
      Json.at? (some (.obj models)) (registryPath models ++ [name, "api"]) =
          some (.str (entryApi config root)) ∧
        SameOff (aliases (registryPath models ++ [name]) urlKeys) (some (.obj models))
          (some (.obj (Json.mapFloatsFields f models))) := by
  have hkeys : urlKeys ≠ [] := List.cons_ne_nil _ _
  -- the write itself changes one key besides the URL
  have hsame : Json.at? (some (.obj models)) (registryPath models ++ [name, "api"]) =
      some (.str (entryApi config root)) →
      SameOff (aliases (registryPath models ++ [name]) urlKeys) (some (.obj models))
        (some (.obj (syncProvider name
          (buildOpenclawProviderSnapshot (openclawEntryEditor config entryUrl root) false) true
          models))) := by
    intro hapi
    rw [at?_registryPath, Json.at?_cons, ← Json.at?_childObject, Json.at?_cons,
      Json.at?_nil] at hapi
    rw [syncProvider, sameOff_updateRegistry_iff, Json.sameOff_aliases_cons_iff, lookup_insertField,
      if_pos rfl, Json.sameOff_childObject_iff (Json.aliases_ne_nil hkeys),
      Json.sameOff_aliases_nil_iff]
    refine ⟨fun key hkey => ?_, fun key hkey => ?_⟩
    · rw [lookup_insertField, if_neg hkey]
      exact SameOff.refl [] _
    · rw [nextProvider, if_pos rfl, lookup_merge_snapshot hkey]
      by_cases hkeyApi : key = "api"
      · rw [if_pos hkeyApi, hkeyApi, hapi]
        exact SameOff.refl [] _
      · rw [if_neg hkeyApi]
        exact SameOff.refl [] _
  constructor
  · intro h
    have hmapped : SameOff _ (some (.obj models)) ((some (.obj (syncProvider name
        (buildOpenclawProviderSnapshot (openclawEntryEditor config entryUrl root) false) true
        models))).map (Json.mapFloats f)) := h
    have hwritten : Json.at? (some (.obj (syncProvider name
        (buildOpenclawProviderSnapshot (openclawEntryEditor config entryUrl root) false) true
        models))) (registryPath models ++ [name, "api"]) = some (.str (entryApi config root)) := by
      rw [syncProvider, at?_updateRegistry, Json.at?_cons, lookup_insertField, if_pos rfl,
        Json.at?_cons, Json.at?_nil, nextProvider, if_pos rfl, lookup_merge_snapshot (by decide),
        if_pos rfl]
    have hoff : Json.Off (aliases (registryPath models ++ [name]) urlKeys)
        (registryPath models ++ [name, "api"]) := off_registryPath (by decide)
    have hapi := hmapped.at?_eq hoff <| by
      rw [hwritten]
      intro v hv
      cases hv
      exact ⟨rfl, rfl⟩
    rw [hwritten] at hapi
    exact ⟨hapi, (Json.sameOff_mapFloats_iff (hsame hapi) f).1 hmapped⟩
  · rintro ⟨hapi, hfloats⟩
    exact (Json.sameOff_mapFloats_iff (hsame hapi) f).2 hfloats

/-- **What has to be in `openclaw.json` for everything else to stay, with the floats.** -/
theorem sameOff_format_iff
    (h : formatOpenclawPrimarySource (openclawEntryEditor config entryUrl root) root = .ok root') :
    SameOff (aliases ["models", "providers",
        trimmed (resolveOpenclawProviderName root none config)] urlKeys)
        (some (.obj root)) (some (.obj (Json.mapFloatsFields f root'))) ↔
      PrimaryKept config root ∧ SameOff (aliases ["models", "providers",
        trimmed (resolveOpenclawProviderName root none config)] urlKeys)
        (some (.obj root)) (some (.obj (Json.mapFloatsFields f root))) := by
  constructor
  · intro hsame
    have hkept := primaryKept_of_sameOff h hsame
    exact ⟨hkept, (Json.sameOff_mapFloats_iff (sameOff_of_primaryKept h hkept) f).1 hsame⟩
  · rintro ⟨hkept, hfloats⟩
    exact (Json.sameOff_mapFloats_iff (sameOff_of_primaryKept h hkept) f).2 hfloats

end Openclaw

/-! ### The files of an agent -/

section Files

variable {env : AgentEnv} {target : IntegrationTarget} {entryUrl : String}
  {content content' : AgentDisk}

theorem onlyUrlChanged_iff_of_files (files : List AgentFile)
    (hsame : ∀ place, (∀ file ∈ files, place ≠ (trimmed target.configDir, file)) →
      content' place = content place) :
    OnlyUrlChanged env target content content' ↔ ∀ file ∈ files,
      SameOff (entryPaths env content target file)
        (fileValue env content (trimmed target.configDir) file)
        (fileValue env content' (trimmed target.configDir) file) := by
  constructor
  · intro h file _
    have := h (trimmed target.configDir) file
    rwa [if_pos rfl] at this
  · intro h configDir file
    by_cases hwritten : configDir = trimmed target.configDir ∧ file ∈ files
    · obtain ⟨rfl, hfile⟩ := hwritten
      rw [if_pos rfl]
      exact h file hfile
    · have hplace : content' (configDir, file) = content (configDir, file) := by
        refine hsame _ fun written hfile heq => hwritten ?_
        obtain ⟨rfl, rfl⟩ := Prod.mk.inj heq
        exact ⟨rfl, hfile⟩
      have hvalue : fileValue env content' configDir file =
          fileValue env content configDir file := by
        unfold fileValue
        rw [hplace]
      rw [hvalue]
      exact SameOff.refl _ _

variable {file : AgentFile} {configDir : String} {root : Fields}

theorem fileValue_of_ok (hfile : file ≠ .configToml)
    (h : jsonLikeObject env configDir file (content (configDir, file)) = .ok root) :
    fileValue env content configDir file = some (.obj root) := by
  rw [fileValue, if_neg hfile, h]
  rfl

theorem rootAt_of_ok
    (h : jsonLikeObject env configDir file (content (configDir, file)) = .ok root) :
    rootAt env content configDir file = root := by
  rw [rootAt, h]
  rfl

theorem fileValue_putObject (hfile : file ≠ .configToml) (root : Fields) :
    fileValue env (putObject env content configDir file root) configDir file =
      some (.obj (Json.mapFloatsFields env.floatRead root)) := by
  refine fileValue_of_ok hfile ?_
  rw [putObject, Function.update_self]
  exact parseJsonLikeContent_print root _

/-- **An edit of a JSON file changes the base URL only exactly when the floats are kept.** -/
theorem onlyUrlChanged_putObject_iff (hfile : file ≠ .configToml) {root' : Fields}
    (hroot : jsonLikeObject env (trimmed target.configDir) file
      (content (trimmed target.configDir, file)) = .ok root) :
    OnlyUrlChanged env target content
        (putObject env content (trimmed target.configDir) file root') ↔
      SameOff (entryPaths env content target file) (some (.obj root))
        (some (.obj (Json.mapFloatsFields env.floatRead root'))) := by
  have hsame : ∀ place, (∀ file' ∈ [file], place ≠ (trimmed target.configDir, file')) →
      putObject env content (trimmed target.configDir) file root' place = content place :=
    fun place hplace => Function.update_of_ne (hplace file List.mem_cons_self) _ _
  rw [onlyUrlChanged_iff_of_files [file] hsame, List.forall_mem_singleton,
    fileValue_of_ok hfile hroot, fileValue_putObject hfile]

theorem onlyUrlChanged_refl : OnlyUrlChanged env target content content :=
  fun _ _ => SameOff.refl _ _

variable {faults : Faults} {s s' : State (String × AgentFile) String}

theorem onlyUrlChanged_editJsonObject_iff {edit : Fields → Fields} (hfile : file ≠ .configToml)
    (hedit : ∀ root, SameOff (entryPaths env s.content target file) (some (.obj root))
      (some (.obj (edit root)))) :
    OnlyUrlChanged env target s.content
        (editJsonObject env (trimmed target.configDir) file edit faults s).2.content ↔
      (Program.Served faults s.content s.made
          [.read (trimmed target.configDir, file), .write, .write] →
        ∀ root, jsonLikeObject env (trimmed target.configDir) file
          (s.content (trimmed target.configDir, file)) = .ok root →
            FloatsKept env (entryPaths env s.content target file) root) := by
  rw [(atomic_editJsonObject file edit).content_iff onlyUrlChanged_refl
    (fun content => Program.Served faults s.content s.made
      [.read (trimmed target.configDir, file), .write, .write] ∧
        ∃ root, jsonLikeObject env (trimmed target.configDir) file
          (s.content (trimmed target.configDir, file)) = .ok root ∧
            content = putObject env s.content (trimmed target.configDir) file (edit root))]
  · constructor
    · intro hall hserved root hroot
      have h := hall _ ⟨hserved, root, hroot, rfl⟩
      rw [onlyUrlChanged_putObject_iff hfile hroot] at h
      exact (Json.sameOff_mapFloats_iff (hedit root) _).1 h
    · rintro hkept _ ⟨hserved, root, hroot, rfl⟩
      rw [onlyUrlChanged_putObject_iff hfile hroot]
      exact (Json.sameOff_mapFloats_iff (hedit root) _).2 (hkept hserved root hroot)
  · rintro _ ⟨hserved, root, hroot, rfl⟩
    have hrun := (@editJsonObject_eq_ok env (trimmed target.configDir) faults s _ file edit _).2
      (And.intro hserved ⟨root, hroot, rfl, rfl⟩)
    exact ⟨_, _, hrun, by dsimp only⟩
  · intro path s' hrun
    obtain ⟨hserved, root, hroot, -, hs'⟩ := editJsonObject_eq_ok.1 hrun
    exact And.intro hserved ⟨root, hroot, by rw [hs']⟩

theorem writeCodexConfig_eq_ok {configDir path : String} :
    writeCodexConfig env configDir entryUrl faults s = (.ok path, s') ↔
      Program.Served faults s.content s.made [.read (configDir, .configToml), .write, .write] ∧
        ∃ doc name, tomlDocument env configDir .configToml
            (s.content (configDir, .configToml)) = .ok doc ∧
          resolveCodexProviderNameFromDoc doc = .ok name ∧
            path = AgentFile.path configDir .configToml ∧
              s' = ⟨Function.update s.content (configDir, .configToml)
                (some (withNewline (env.tomlToString (setCodexEntry entryUrl name doc)))),
                s.made + 3⟩ := by
  unfold writeCodexConfig
  rw [Program.bind_eq_ok]
  constructor
  · rintro ⟨doc, _, hread, hrest⟩
    obtain ⟨hserved, hdoc, rfl⟩ := readTomlDocument_eq_ok.1 hread
    obtain ⟨name, _, hchecked, hrest'⟩ := Program.bind_eq_ok.1 hrest
    obtain ⟨hname, rfl⟩ := checked_eq_ok.1 hchecked
    obtain ⟨_, _, hwrite, hpure⟩ := Program.bind_eq_ok.1 hrest'
    obtain ⟨⟨hmade, hwritten⟩, rfl⟩ := writeFileContent_eq_ok.1 hwrite
    obtain ⟨rfl, rfl⟩ := Program.pure_eq_ok.1 hpure
    exact ⟨⟨hserved, hmade, hwritten, trivial⟩, doc, name, hdoc, hname, rfl, rfl⟩
  · rintro ⟨⟨hserved, hmade, hwritten, -⟩, doc, name, hdoc, hname, rfl, rfl⟩
    exact ⟨doc, _, readTomlDocument_eq_ok.2 ⟨hserved, hdoc, rfl⟩, Program.bind_eq_ok.2
      ⟨name, _, checked_eq_ok.2 ⟨hname, rfl⟩, Program.bind_eq_ok.2
        ⟨(), _, writeFileContent_eq_ok.2 ⟨⟨hmade, hwritten⟩, rfl⟩, rfl⟩⟩⟩

theorem onlyUrlChanged_writeCodexConfig_iff (hkind : target.kind = .codex) :
    OnlyUrlChanged env target s.content
        (writeCodexConfig env (trimmed target.configDir) entryUrl faults s).2.content ↔
      (Program.Served faults s.content s.made
          [.read (trimmed target.configDir, .configToml), .write, .write] →
        ∀ doc name, tomlDocument env (trimmed target.configDir) .configToml
            (s.content (trimmed target.configDir, .configToml)) = .ok doc →
          resolveCodexProviderNameFromDoc doc = .ok name → CodexKept doc name) := by
  -- what one write does to the file of Codex
  have hchanged : ∀ {doc name}, tomlDocument env (trimmed target.configDir) .configToml
      (s.content (trimmed target.configDir, .configToml)) = .ok doc →
      resolveCodexProviderNameFromDoc doc = .ok name →
      (OnlyUrlChanged env target s.content
          (Function.update s.content (trimmed target.configDir, .configToml)
            (some (withNewline (env.tomlToString (setCodexEntry entryUrl name doc))))) ↔
        CodexKept doc name) := by
    intro doc name hdoc hname
    have hpaths : entryPaths env s.content target .configToml =
        aliases ["model_providers", name] ["base_url"] := by
      rw [entryPaths, hkind]
      dsimp only
      rw [if_pos rfl, codexProvider, hdoc]
      show aliases ["model_providers", (resolveCodexProviderNameFromDoc doc).toOption.getD ""] _ = _
      rw [hname]
      rfl
    have hbefore : fileValue env s.content (trimmed target.configDir) .configToml =
        some (.obj (TomlItem.toFields doc)) := by
      rw [fileValue, if_pos rfl, hdoc]
      rfl
    obtain ⟨doc', hparse, hsame⟩ := env.parseToml_print (setCodexEntry entryUrl name doc)
    have hafter : fileValue env (Function.update s.content (trimmed target.configDir, .configToml)
        (some (withNewline (env.tomlToString (setCodexEntry entryUrl name doc)))))
          (trimmed target.configDir) .configToml = some (.obj (TomlItem.toFields doc')) := by
      have hblank := env.tomlPrint_ne_blank (setCodexEntry entryUrl name doc) (List.cons_ne_nil _ _)
      rw [fileValue, if_pos rfl, Function.update_self, tomlDocument, parseTomlContent,
        if_neg hblank, hparse]
      rfl
    -- the print is read as what was printed
    have hprinted : SameOff (aliases ["model_providers", name] ["base_url"])
        (some (.obj (TomlItem.toFields (setCodexEntry entryUrl name doc))))
        (some (.obj (TomlItem.toFields doc'))) := fun path _ =>
          hsame path fun t ht => absurd ht List.not_mem_nil
    have hother : ∀ place, (∀ file ∈ [AgentFile.configToml],
        place ≠ (trimmed target.configDir, file)) →
          Function.update s.content (trimmed target.configDir, .configToml)
            (some (withNewline (env.tomlToString (setCodexEntry entryUrl name doc)))) place =
              s.content place :=
      fun place hplace => Function.update_of_ne (hplace _ List.mem_cons_self) _ _
    rw [onlyUrlChanged_iff_of_files [.configToml] hother, List.forall_mem_singleton, hpaths,
      hbefore, hafter, ← @sameOff_setCodexEntry_iff entryUrl]
    exact ⟨fun h => h.trans hprinted.symm, fun h => h.trans hprinted⟩
  -- the file is as it was, or as the one write that was served leaves it
  rw [(atomic_writeCodexConfig entryUrl).content_iff onlyUrlChanged_refl
    (fun content => Program.Served faults s.content s.made
      [.read (trimmed target.configDir, .configToml), .write, .write] ∧
        ∃ doc name, tomlDocument env (trimmed target.configDir) .configToml
            (s.content (trimmed target.configDir, .configToml)) = .ok doc ∧
          resolveCodexProviderNameFromDoc doc = .ok name ∧
            content = Function.update s.content (trimmed target.configDir, .configToml)
              (some (withNewline (env.tomlToString (setCodexEntry entryUrl name doc)))))]
  · constructor
    · intro hall hserved doc name hdoc hname
      exact (hchanged hdoc hname).1 (hall _ ⟨hserved, doc, name, hdoc, hname, rfl⟩)
    · rintro hkept _ ⟨hserved, doc, name, hdoc, hname, rfl⟩
      exact (hchanged hdoc hname).2 (hkept hserved doc name hdoc hname)
  · rintro _ ⟨hserved, doc, name, hdoc, hname, rfl⟩
    have hrun := (@writeCodexConfig_eq_ok env entryUrl faults s _ (trimmed target.configDir) _).2
      (And.intro hserved ⟨doc, name, hdoc, hname, rfl, rfl⟩)
    exact ⟨_, _, hrun, by dsimp only⟩
  · intro path s' hrun
    obtain ⟨hserved, doc, name, hdoc, hname, -, hs'⟩ := writeCodexConfig_eq_ok.1 hrun
    exact And.intro hserved ⟨doc, name, hdoc, hname, by rw [hs']⟩

section Openclaw

variable {root root' models : Fields} {file : AgentFile}

theorem entryPaths_openclawJson (hkind : target.kind = .openclaw)
    (hroot : jsonLikeObject env (trimmed target.configDir) .openclawJson
      (content (trimmed target.configDir, .openclawJson)) = .ok root) :
    entryPaths env content target .openclawJson = aliases ["models", "providers",
      trimmed (resolveOpenclawProviderName root none target.config)] urlKeys := by
  rw [entryPaths, hkind]
  dsimp only
  rw [if_pos rfl, openclawProvider, rootAt_of_ok hroot]

theorem entryPaths_modelsFile (hkind : target.kind = .openclaw)
    (hroot : jsonLikeObject env (trimmed target.configDir) .openclawJson
      (content (trimmed target.configDir, .openclawJson)) = .ok root)
    (hfile : file = modelsFile content (trimmed target.configDir)
      (resolveOpenclawAgentId target.config))
    (hmodels : jsonLikeObject env (trimmed target.configDir) file
      (content (trimmed target.configDir, file)) = .ok models) :
    entryPaths env content target file = aliases (registryPath models ++
      [resolveOpenclawProviderName root none target.config]) urlKeys := by
  have hne : file ≠ .openclawJson := hfile ▸ modelsFile_ne_openclawJson _ _
  rw [entryPaths, hkind]
  dsimp only
  rw [if_neg hne, if_pos hfile, openclawProvider, rootAt_of_ok hroot, rootAt_of_ok hmodels]

theorem onlyUrlChanged_primary_iff (hkind : target.kind = .openclaw)
    (hroot : jsonLikeObject env (trimmed target.configDir) .openclawJson
      (content (trimmed target.configDir, .openclawJson)) = .ok root)
    (hformat : formatOpenclawPrimarySource (openclawEntryEditor target.config entryUrl root) root =
      .ok root') :
    OnlyUrlChanged env target content
        (putObject env content (trimmed target.configDir) .openclawJson root') ↔
      PrimaryKept target.config root ∧
        FloatsKept env (entryPaths env content target .openclawJson) root := by
  have hne : AgentFile.openclawJson ≠ .configToml := by simp
  rw [onlyUrlChanged_putObject_iff hne hroot, FloatsKept, entryPaths_openclawJson hkind hroot,
    sameOff_format_iff hformat]

theorem onlyUrlChanged_both_iff (hkind : target.kind = .openclaw)
    (hroot : jsonLikeObject env (trimmed target.configDir) .openclawJson
      (content (trimmed target.configDir, .openclawJson)) = .ok root)
    (hformat : formatOpenclawPrimarySource (openclawEntryEditor target.config entryUrl root) root =
      .ok root')
    (hfile : file = modelsFile content (trimmed target.configDir)
      (resolveOpenclawAgentId target.config))
    (hmodels : jsonLikeObject env (trimmed target.configDir) file
      (content (trimmed target.configDir, file)) = .ok models) :
    OnlyUrlChanged env target content
        (putObject env (putObject env content (trimmed target.configDir) .openclawJson root')
          (trimmed target.configDir) file
          (syncProvider (resolveOpenclawProviderName root none target.config)
            (buildOpenclawProviderSnapshot (openclawEntryEditor target.config entryUrl root) false)
            true models)) ↔
      (PrimaryKept target.config root ∧
          FloatsKept env (entryPaths env content target .openclawJson) root) ∧
        ModelsKept target.config root models ∧
          FloatsKept env (entryPaths env content target file) models := by
  have hne : AgentFile.openclawJson ≠ .configToml := by simp
  have hother : file ≠ .openclawJson := hfile ▸ modelsFile_ne_openclawJson _ _
  have htoml : file ≠ .configToml := by
    rw [hfile, modelsFile, chosenFile]
    split_ifs <;> simp
  have hplace : (trimmed target.configDir, AgentFile.openclawJson) ≠
      (trimmed target.configDir, file) := fun heq => hother (Prod.mk.inj heq).2.symm
  have hsame : ∀ place, (∀ file' ∈ [.openclawJson, file],
      place ≠ (trimmed target.configDir, file')) →
        putObject env (putObject env content (trimmed target.configDir) .openclawJson root')
          (trimmed target.configDir) file (syncProvider
            (resolveOpenclawProviderName root none target.config)
            (buildOpenclawProviderSnapshot (openclawEntryEditor target.config entryUrl root) false)
            true models) place = content place := by
    intro place hwritten
    rw [putObject, Function.update_of_ne (hwritten file (by simp)), putObject,
      Function.update_of_ne (hwritten .openclawJson (by simp))]
  rw [onlyUrlChanged_iff_of_files [.openclawJson, file] hsame, List.forall_mem_cons,
    List.forall_mem_singleton, fileValue_putObject htoml, fileValue_of_ok htoml hmodels,
    fileValue_of_ok hne hroot]
  have hprimary : fileValue env (putObject env
      (putObject env content (trimmed target.configDir) .openclawJson root')
      (trimmed target.configDir) file
        (syncProvider (resolveOpenclawProviderName root none target.config)
        (buildOpenclawProviderSnapshot (openclawEntryEditor target.config entryUrl root) false)
        true models)) (trimmed target.configDir) .openclawJson =
      some (.obj (Json.mapFloatsFields env.floatRead root')) := by
    rw [fileValue, putObject, Function.update_of_ne hplace, ← fileValue, fileValue_putObject hne]
  rw [hprimary, entryPaths_openclawJson hkind hroot, sameOff_format_iff hformat,
    entryPaths_modelsFile hkind hroot hfile hmodels, sameOff_syncProvider_iff]
  rfl

theorem onlyUrlChanged_sync_iff {s₁ : State (String × AgentFile) String}
    (hkind : target.kind = .openclaw)
    (hfile : file = modelsFile content (trimmed target.configDir)
      (resolveOpenclawAgentId target.config))
    (hroot : jsonLikeObject env (trimmed target.configDir) .openclawJson
      (content (trimmed target.configDir, .openclawJson)) = .ok root)
    (hformat : formatOpenclawPrimarySource (openclawEntryEditor target.config entryUrl root) root =
      .ok root')
    (hs₁ : s₁.content = putObject env content (trimmed target.configDir) .openclawJson root') :
    OnlyUrlChanged env target content (syncOpenclawProviderToModelsFile env
        (trimmed target.configDir) (resolveOpenclawAgentId target.config)
        (resolveOpenclawProviderName root none target.config)
        (buildOpenclawProviderSnapshot (openclawEntryEditor target.config entryUrl root) false) true
        faults s₁).2.content ↔
      (PrimaryKept target.config root ∧
          FloatsKept env (entryPaths env content target .openclawJson) root) ∧
        (Program.Served faults content s₁.made (syncing content (trimmed target.configDir)
            (resolveOpenclawAgentId target.config)) →
          ∀ models, jsonLikeObject env (trimmed target.configDir) file
              (content (trimmed target.configDir, file)) = .ok models →
            ModelsKept target.config root models ∧
              FloatsKept env (entryPaths env content target file) models) := by
  have hserved : ModelsServed env faults s₁.content s₁.made (trimmed target.configDir)
      (resolveOpenclawAgentId target.config) ↔
        ModelsServed env faults content s₁.made (trimmed target.configDir)
          (resolveOpenclawAgentId target.config) := by
    rw [hs₁]
    exact modelsServed_putObject
  rcases hsync : syncOpenclawProviderToModelsFile env (trimmed target.configDir)
    (resolveOpenclawAgentId target.config) (resolveOpenclawProviderName root none target.config)
    (buildOpenclawProviderSnapshot (openclawEntryEditor target.config entryUrl root) false) true
    faults s₁ with ⟨e | u, s₂⟩
  · rw [atomic_sync _ _ _ _ _ _ _ _ hsync, hs₁]
    refine (onlyUrlChanged_primary_iff hkind hroot hformat).trans
      (and_iff_left fun hserved' models hmodels => ?_).symm
    obtain ⟨_, hwritten⟩ := exists_sync_iff.2
      (hserved.2 (And.intro hserved' ⟨models, hfile ▸ hmodels⟩))
    rw [hsync] at hwritten
    cases hwritten
  · obtain ⟨hserved', hmodels'⟩ := hserved.1 (exists_sync_iff.1 ⟨_, hsync⟩)
    obtain ⟨-, models, hmodels, rfl⟩ := sync_eq_ok.1 hsync
    dsimp only
    rw [hs₁, modelsFile_putObject, ← hfile, putObject, Function.update_of_ne
      (by simpa [hfile] using modelsFile_ne_openclawJson (trimmed target.configDir) _)] at hmodels
    rw [hs₁, modelsFile_putObject, ← hfile]
    refine (onlyUrlChanged_both_iff hkind hroot hformat hfile hmodels).trans
      (and_congr_right fun _ => ?_)
    rw [forall_prop_of_true hserved']
    constructor
    · intro h models₁ hmodels₁
      rw [hmodels] at hmodels₁
      rwa [← Except.ok.inj hmodels₁]
    · intro h
      exact h models hmodels

theorem onlyUrlChanged_writeOpenclawConfig_iff (hkind : target.kind = .openclaw)
    (hfile : file = modelsFile s.content (trimmed target.configDir)
      (resolveOpenclawAgentId target.config)) :
    OnlyUrlChanged env target s.content (writeOpenclawConfig env (trimmed target.configDir)
        target.config entryUrl faults s).2.content ↔
      (Program.Served faults s.content s.made
          [.read (trimmed target.configDir, .openclawJson), .write, .write] →
        ∀ root, jsonLikeObject env (trimmed target.configDir) .openclawJson
            (s.content (trimmed target.configDir, .openclawJson)) = .ok root →
          trimmed (resolveOpenclawProviderName root none target.config) ≠ "" →
          (PrimaryKept target.config root ∧
              FloatsKept env (entryPaths env s.content target .openclawJson) root) ∧
            (Program.Served faults s.content (s.made + 3)
                (syncing s.content (trimmed target.configDir)
                  (resolveOpenclawAgentId target.config)) →
              ∀ models, jsonLikeObject env (trimmed target.configDir) file
                  (s.content (trimmed target.configDir, file)) = .ok models →
                ModelsKept target.config root models ∧
                  FloatsKept env (entryPaths env s.content target file) models)) := by
  unfold writeOpenclawConfig
  rcases hprimary : writeOpenclawPrimary env (trimmed target.configDir) target.config entryUrl
    faults
    s with ⟨e | editor, s₁⟩
  · rw [Program.bind_apply_error hprimary, atomic_writeOpenclawPrimary _ _ _ _ _ _ hprimary]
    refine iff_of_true onlyUrlChanged_refl fun hserved root hroot hname => ?_
    have hformat : ∃ root', formatOpenclawPrimarySource
        (openclawEntryEditor target.config entryUrl root) root = .ok root' :=
      ⟨_, formatOpenclawPrimarySource_eq_ok.2 ⟨hname, rfl⟩⟩
    obtain ⟨root', hformat⟩ := hformat
    have hwritten := (@writeOpenclawPrimary_eq_ok env (trimmed target.configDir) faults s _
      target.config entryUrl _).2 (And.intro hserved ⟨root, root', hroot, rfl, hformat, rfl⟩)
    rw [hprimary] at hwritten
    cases hwritten
  · obtain ⟨hserved, root, root', hroot, heditor, hformat, hs₁⟩ :=
      writeOpenclawPrimary_eq_ok.1 hprimary
    have hname := (formatOpenclawPrimarySource_eq_ok.1 hformat).1
    have hcontent : s₁.content =
        putObject env s.content (trimmed target.configDir) .openclawJson root' := by rw [hs₁]
    have hmade : s₁.made = s.made + 3 := by rw [hs₁]
    rw [Program.bind_apply_ok hprimary, forall_prop_of_true hserved, heditor,
      openclawEntryEditor_agentId, openclawEntryEditor_providerId, Program.map_snd,
      onlyUrlChanged_sync_iff hkind hfile hroot hformat hcontent, hmade]
    constructor
    · intro h root₁ hroot₁ _
      rw [hroot] at hroot₁
      rwa [← Except.ok.inj hroot₁]
    · intro h
      exact h root hroot hname

end Openclaw

end Files

/-- **A group entry changes the base URL only exactly when the files hold what they have to.** -/
theorem onlyUrlChanged_iff (env : AgentEnv) (target : IntegrationTarget) (entryUrl : String)
    (faults : Faults) (s : State (String × AgentFile) String) :
    OnlyUrlChanged env target s.content
        (writeTargetEntry env target entryUrl faults s).2.content ↔
      EntryKeeps env target faults s := by
  unfold writeTargetEntry EntryKeeps
  dsimp only
  cases hplace : env.place (trimmed target.configDir) with
  | missing => exact iff_of_true onlyUrlChanged_refl fun h => nomatch h
  | noFolder => exact iff_of_true onlyUrlChanged_refl fun h => nomatch h
  | folder =>
    rw [forall_prop_of_true rfl]
    cases hkind : target.kind with
    | claude =>
      refine onlyUrlChanged_editJsonObject_iff (by simp) fun root => ?_
      rw [entryPaths, hkind]
      exact sameOff_setClaudeEntry root
    | opencode =>
      have hfile : opencodeFile s.content (trimmed target.configDir) ≠ .configToml := by
        unfold opencodeFile
        split_ifs <;> simp
      refine onlyUrlChanged_editJsonObject_iff hfile fun root => ?_
      have hpaths : entryPaths env s.content target
          (opencodeFile s.content (trimmed target.configDir)) =
            aliases ["provider", "aor_shared", "options"] ["baseURL"] := by
        rw [entryPaths, hkind]
        exact if_pos rfl
      exact hpaths ▸ sameOff_setOpencodeEntry root
    | codex => exact onlyUrlChanged_writeCodexConfig_iff hkind
    | openclaw => exact onlyUrlChanged_writeOpenclawConfig_iff hkind rfl

def providerWithKey : Fields :=
  [("models", .obj [("providers", .obj [("aor_shared",
    .obj [("api", .str "openai-responses"), ("apiKey", .str "sk-1")])])])]

/-- **The token of the provider in `openclaw.json` is lost.** -/
theorem not_onlyUrlChanged_providerWithKey :
    ¬ ∀ (env : AgentEnv) (target : IntegrationTarget) (entryUrl : String) (faults : Faults)
        (s : State (String × AgentFile) String), OnlyUrlChanged env target s.content
      (writeTargetEntry env target entryUrl faults s).2.content := by
  intro h
  have hcontent : Function.update (fun _ => none : AgentDisk)
      (trimmed openclawTarget.configDir, .openclawJson) (some (Json.obj providerWithKey).text)
        (trimmed openclawTarget.configDir, .openclawJson) =
      some (Json.obj providerWithKey).text := Function.update_self _ _ _
  have hroot : jsonLikeObject AgentEnv.plain (trimmed openclawTarget.configDir) .openclawJson
      (some (Json.obj providerWithKey).text) = .ok providerWithKey := parseJsonLikeContent_plain _ _
  have hchanged := h AgentEnv.plain openclawTarget "http://127.0.0.1:8899/oc/dev" (fun _ => none)
    ⟨Function.update (fun _ => none) (trimmed openclawTarget.configDir, .openclawJson)
      (some (Json.obj providerWithKey).text), 0⟩
  have hkept := (onlyUrlChanged_writeOpenclawConfig_iff rfl rfl).1 hchanged
    (Program.served_of_none _) providerWithKey (by dsimp only; rw [hcontent]; exact hroot)
    (by decide)
  have hkey := hkept.1.1.rest "apiKey" (by decide) (by decide)
  cases hkey

end AiOpenRouter
