/-
What the settings of an agent are after a write, as its reader takes them.

The writer of each kind sets what a configuration has and leaves the rest; the reader
looks at more places than the writer sets.

* `readAs_claude`, `readAs_opencode`: a token that is not set stays with Claude, and with
  OpenCode at its old place;
* `readAs_codex`: Codex has what was set;
* `readAs_openclaw`: a provider at the second place of `models.json` counts before the
  written one.
-/
import AiOpenRouter.EntryTakesEffect

namespace AiOpenRouter

open Json (Fields)

/-! ### Configurations -/

def AgentConfig.texts (config : AgentConfig) : List String :=
  config.agentId.toList ++ config.providerId.toList ++ config.url.toList ++
    config.apiToken.toList ++ config.apiFormat.toList ++ config.model.toList ++
    config.fallbackModels.getD []

/-- The texts have no blanks around them and are not empty, and the timeout is a `u64`. -/
structure AgentConfig.Clean (config : AgentConfig) : Prop where
  texts : ∀ text ∈ config.texts, trimmed text = text ∧ text ≠ ""
  timeout : ∀ n, config.timeout = some n → n < 18446744073709551616

def Returned {α : Type} (set read : Option α) : Prop :=
  ∀ value, set = some value → read = some value

/-- **The settings are read as they were set**: the token, which is also not there when none is set,
and the other fields that are set, of those that agents of a kind have. -/
def AgentConfig.ReadAs (kind : IntegrationClientKind) (config read : AgentConfig) : Prop :=
  read.apiToken = config.apiToken ∧ Returned config.url read.url ∧
    Returned config.model read.model ∧
    match kind with
    | .claude =>
      Returned config.timeout read.timeout ∧
        Returned config.alwaysThinkingEnabled read.alwaysThinkingEnabled ∧
        Returned config.includeCoauthoredBy read.includeCoauthoredBy ∧
        Returned config.skipDangerousModePermissionPrompt read.skipDangerousModePermissionPrompt
    | .opencode => Returned config.timeout read.timeout
    | .codex => True
    | .openclaw =>
      Returned config.agentId read.agentId ∧ Returned config.providerId read.providerId ∧
        Returned config.apiFormat read.apiFormat ∧
        Returned config.fallbackModels read.fallbackModels

/-! ### What a write sets -/

section Setting

variable (f : String → String)

theorem asBool_mapFloats (value : Option Json) :
    (value.map (Json.mapFloats f)).bind Json.asBool = value.bind Json.asBool := by
  rcases value with _ | value
  · rfl
  · cases value with
    | num n => cases n <;> rfl
    | _ => rfl

theorem asU64_mapFloats (value : Option Json) :
    (value.map (Json.mapFloats f)).bind Json.asU64 = value.bind Json.asU64 := by
  rcases value with _ | value
  · rfl
  · cases value with
    | num n => cases n <;> rfl
    | _ => rfl

variable {key : String} (config : AgentConfig) (root fields : Fields)

theorem parseClaudeConfig_mapFloats :
    parseClaudeConfig (Json.mapFloatsFields f root) = parseClaudeConfig root := by
  unfold parseClaudeConfig
  simp only [childObject_mapFloats, textAt_mapFloats, Json.lookup_mapFloatsFields, asBool_mapFloats]

theorem or_map {α β : Type} (g : α → β) (x y : Option α) :
    (x.map g).or (y.map g) = (x.or y).map g := by
  cases x <;> rfl

theorem parseOpencodeConfig_mapFloats :
    parseOpencodeConfig (Json.mapFloatsFields f root) = parseOpencodeConfig root := by
  unfold parseOpencodeConfig
  simp only [childObject_mapFloats, textAt_mapFloats, Json.lookup_mapFloatsFields, or_map,
    asStr_mapFloats, asU64_mapFloats]

variable {f}

theorem lookup_insertText (key key' : String) (text : Option String) :
    (insertText fields key text).lookup key' =
      if key' = key then (text.map Json.str).or (fields.lookup key') else fields.lookup key' := by
  cases text with
  | none =>
    rw [insertText]
    split_ifs <;> rfl
  | some text => rw [insertText, lookup_insertField]; rfl

theorem lookup_insertFlag (key key' : String) (flag : Option Bool) :
    (insertFlag fields key flag).lookup key' =
      if key' = key then (flag.map Json.bool).or (fields.lookup key') else fields.lookup key' := by
  cases flag with
  | none =>
    rw [insertFlag]
    split_ifs <;> rfl
  | some flag => rw [insertFlag, lookup_insertField]; rfl

theorem childObject_congr {parent parent' : Fields} (h : parent'.lookup key = parent.lookup key) :
    Json.childObject parent' key = Json.childObject parent key := by
  rw [Json.childObject, h, Json.childObject]

theorem childObject_insertText_of_ne {key' : String} (h : key' ≠ key) (text : Option String) :
    Json.childObject (insertText fields key text) key' = Json.childObject fields key' :=
  childObject_congr (by rw [lookup_insertText, if_neg h])

theorem childObject_insertFlag_of_ne {key' : String} (h : key' ≠ key) (flag : Option Bool) :
    Json.childObject (insertFlag fields key flag) key' = Json.childObject fields key' :=
  childObject_congr (by rw [lookup_insertFlag, if_neg h])

theorem asStr_or (text : Option String) (old : Option Json) :
    ((text.map Json.str).or old).bind Json.asStr = text.or (old.bind Json.asStr) := by
  cases text <;> rfl

theorem asBool_or (flag : Option Bool) (old : Option Json) :
    ((flag.map Json.bool).or old).bind Json.asBool = flag.or (old.bind Json.asBool) := by
  cases flag <;> rfl

theorem returned_or {α : Type} (set old : Option α) : Returned set (set.or old) := by
  rintro value rfl
  rfl

theorem parseU64_toString {n : ℕ} (h : n < 18446744073709551616) :
    parseU64 (toString n) = some n := by
  have hchars : (toString n).toList = Nat.toDigits 10 n := Nat.toList_repr
  have hdigit : ∀ c ∈ Nat.toDigits 10 n, c.isDigit = true := fun c hc =>
    Nat.isDigit_of_mem_toDigits (by decide) (by decide) hc
  have hsign : (Nat.toDigits 10 n).head? ≠ some '+' := by
    intro hhead
    exact absurd (hdigit '+' (List.mem_of_mem_head? hhead)) (by decide)
  have hne : (Nat.toDigits 10 n).isEmpty = false := by simp
  have hvalue : (Nat.toDigits 10 n).foldl (fun n c => 10 * n + (c.toNat - '0'.toNat)) 0 = n :=
    Nat.ofDigitChars_toDigits (by decide) (by decide)
  unfold parseU64
  rw [hchars]
  dsimp only
  have hdigits : ¬ ((Nat.toDigits 10 n).isEmpty = true ∨
      ¬ (Nat.toDigits 10 n).all Char.isDigit = true) := by
    rw [hne, List.all_eq_true]
    simpa using hdigit
  rw [if_neg hsign, if_neg hdigits, hvalue, if_pos h]

theorem env_setClaudeConfig :
    Json.childObject (setClaudeConfig config root) "env" =
      insertText (insertText (insertText (insertText (Json.childObject root "env")
        "ANTHROPIC_BASE_URL" config.url) "ANTHROPIC_AUTH_TOKEN" config.apiToken)
          "ANTHROPIC_MODEL" config.model) "API_TIMEOUT_MS" (config.timeout.map toString) := by
  unfold setClaudeConfig
  dsimp only
  rw [childObject_insertFlag_of_ne _ (by decide), childObject_insertFlag_of_ne _ (by decide),
    childObject_insertFlag_of_ne _ (by decide), childObject_updateChild]

/-- **What Claude has after a write**: what is set, and what was there otherwise. -/
theorem parse_setClaudeConfig :
    parseClaudeConfig (setClaudeConfig config root) =
      { url := config.url.or (parseClaudeConfig root).url
        apiToken := config.apiToken.or (parseClaudeConfig root).apiToken
        model := config.model.or (parseClaudeConfig root).model
        timeout := ((config.timeout.map toString).or
          (textAt (Json.childObject root "env") "API_TIMEOUT_MS")).bind parseU64
        alwaysThinkingEnabled :=
          config.alwaysThinkingEnabled.or (parseClaudeConfig root).alwaysThinkingEnabled
        includeCoauthoredBy :=
          config.includeCoauthoredBy.or (parseClaudeConfig root).includeCoauthoredBy
        skipDangerousModePermissionPrompt := config.skipDangerousModePermissionPrompt.or
          (parseClaudeConfig root).skipDangerousModePermissionPrompt } := by
  unfold parseClaudeConfig
  rw [env_setClaudeConfig]
  unfold setClaudeConfig
  simp [textAt, lookup_insertText, lookup_insertFlag, asStr_or, asBool_or, -Option.map_map]

theorem options_setOpencodeConfig :
    Json.childObject (Json.childObject (Json.childObject (setOpencodeConfig config root) "provider")
      "aor_shared") "options" =
        setOpencodeOptions config (Json.childObject (Json.childObject (Json.childObject root
          "provider") "aor_shared") "options") := by
  unfold setOpencodeConfig
  dsimp only
  rw [childObject_insertText_of_ne _ (by decide), childObject_updateChild, childObject_updateChild,
    childObject_updateChild]

def legacyOpencodeToken (root : Fields) : Option String :=
  let aorShared := Json.childObject (Json.childObject root "provider") "aor_shared"
  ((aorShared.lookup "apiKey").or (aorShared.lookup "api_key")).bind Json.asStr

theorem lookup_setOpencodeOptions {config : AgentConfig} (options : Fields)
    (htoken : nonBlank config.apiToken = config.apiToken) :
    (setOpencodeOptions config options).lookup "baseURL" =
        (config.url.map Json.str).or (options.lookup "baseURL") ∧
      (setOpencodeOptions config options).lookup "timeout" =
        (config.timeout.map fun n => Json.int n).or (options.lookup "timeout") ∧
      (setOpencodeOptions config options).lookup "apiKey" = config.apiToken.map Json.str ∧
      (setOpencodeOptions config options).lookup "api_key" = none := by
  unfold setOpencodeOptions
  rw [htoken]
  cases config.timeout <;> cases config.apiToken <;> simp [lookup_insertText]

theorem asU64_int {n : ℕ} (h : n < 18446744073709551616) : (Json.int n).asU64 = some n := by
  show (if 0 ≤ (n : ℤ) ∧ (n : ℤ) ≤ 18446744073709551615 then some (n : ℤ).toNat else none) = some n
  rw [if_pos ⟨by omega, by omega⟩, Int.toNat_natCast]

/-- **What OpenCode has after a write**: without a token, the one at the old place counts. -/
theorem parse_setOpencodeConfig {config : AgentConfig}
    (htoken : nonBlank config.apiToken = config.apiToken)
    (htimeout : ∀ n, config.timeout = some n → n < 18446744073709551616) :
    parseOpencodeConfig (setOpencodeConfig config root) =
      { providerId := some "aor_shared"
        url := config.url.or (parseOpencodeConfig root).url
        apiToken := config.apiToken.or (legacyOpencodeToken root)
        timeout := config.timeout.or (parseOpencodeConfig root).timeout
        model := config.model.or (parseOpencodeConfig root).model } := by
  have hplace : ∀ key, key ≠ "options" → (Json.childObject (Json.childObject
      (setOpencodeConfig config root) "provider") "aor_shared").lookup key =
        (Json.childObject (Json.childObject root "provider") "aor_shared").lookup key := by
    intro key hkey
    unfold setOpencodeConfig
    dsimp only
    rw [childObject_insertText_of_ne _ (by decide), childObject_updateChild,
      childObject_updateChild, Json.lookup_updateChild, if_neg hkey]
  have hmodel : (setOpencodeConfig config root).lookup "model" =
      (config.model.map Json.str).or (root.lookup "model") := by
    unfold setOpencodeConfig
    dsimp only
    rw [lookup_insertText, if_pos rfl, Json.lookup_updateChild, if_neg (by decide)]
  unfold parseOpencodeConfig legacyOpencodeToken
  dsimp only
  rw [options_setOpencodeConfig, hplace _ (by decide), hplace _ (by decide)]
  obtain ⟨hurl, htime, hkey, hold⟩ := lookup_setOpencodeOptions (Json.childObject (Json.childObject
    (Json.childObject root "provider") "aor_shared") "options") htoken
  unfold textAt
  rw [hurl, htime, hkey, hold, hmodel, asStr_or, asStr_or, Option.or_none, asStr_or]
  cases hset : config.timeout with
  | none => rfl
  | some n =>
    have hread := asU64_int (htimeout n hset)
    simp [hread]

end Setting

/-! ### Claude and OpenCode -/

section Editing

variable {f : String → String} {config : AgentConfig} {root : Fields}

theorem readAs_claude (hclean : config.Clean) :
    config.ReadAs .claude
        (parseClaudeConfig (Json.mapFloatsFields f (setClaudeConfig config root))) ↔
      (config.apiToken = none →
        textAt (Json.childObject root "env") "ANTHROPIC_AUTH_TOKEN" = none) := by
  have htimeout : Returned config.timeout (((config.timeout.map toString).or
      (textAt (Json.childObject root "env") "API_TIMEOUT_MS")).bind parseU64) := by
    intro n hn
    rw [hn]
    exact parseU64_toString (hclean.timeout n hn)
  have htoken : config.apiToken.or (parseClaudeConfig root).apiToken = config.apiToken ↔
      (config.apiToken = none → (parseClaudeConfig root).apiToken = none) := by
    cases config.apiToken <;> simp
  rw [parseClaudeConfig_mapFloats, parse_setClaudeConfig, AgentConfig.ReadAs]
  dsimp only
  rw [htoken]
  exact ⟨fun h => h.1, fun h => ⟨h, returned_or _ _, returned_or _ _, htimeout, returned_or _ _,
    returned_or _ _, returned_or _ _⟩⟩

theorem AgentConfig.Clean.nonBlank_eq (hclean : config.Clean) {field : Option String}
    (hfield : ∀ text ∈ field.toList, text ∈ config.texts) : nonBlank field = field := by
  cases field with
  | none => rfl
  | some text =>
    obtain ⟨htrim, hne⟩ := hclean.texts text (hfield text (List.mem_singleton_self text))
    exact nonBlank_of_trimmed htrim hne

theorem AgentConfig.Clean.nonBlank_apiToken (hclean : config.Clean) :
    nonBlank config.apiToken = config.apiToken :=
  hclean.nonBlank_eq fun text htext => by simp [AgentConfig.texts, Option.mem_toList.1 htext]

/-- **OpenCode**: without a token, one at the old place counts. -/
theorem readAs_opencode (hclean : config.Clean) :
    config.ReadAs .opencode
        (parseOpencodeConfig (Json.mapFloatsFields f (setOpencodeConfig config root))) ↔
      (config.apiToken = none → legacyOpencodeToken root = none) := by
  have htoken : config.apiToken.or (legacyOpencodeToken root) = config.apiToken ↔
      (config.apiToken = none → legacyOpencodeToken root = none) := by
    cases config.apiToken <;> simp
  rw [parseOpencodeConfig_mapFloats, parse_setOpencodeConfig root hclean.nonBlank_apiToken
    hclean.timeout, AgentConfig.ReadAs]
  dsimp only
  rw [htoken]
  exact ⟨fun h => h.1, fun h => ⟨h, returned_or _ _, returned_or _ _, returned_or _ _⟩⟩

end Editing

/-! ### Codex -/

section Codex

variable {config : AgentConfig} {name : String} {doc : TomlTable}

theorem lookup_remove (entries : TomlTable) (key : String) :
    (TomlTable.remove entries key).lookup key = none := by
  rw [TomlTable.remove, List.lookup_eq_none_iff]
  intro entry hentry
  rw [bne_iff_ne]
  exact Ne.symm (by simpa using (List.mem_filter.1 hentry).2)

theorem at?_setCodexConfig (key : String) :
    Json.at? (some (.obj (TomlItem.toFields (setCodexConfig config name doc))))
        ["model_providers", name, key] =
      ((TomlTable.remove
        ((config.url.map fun url => TomlTable.insert (TomlTable.childTable (TomlTable.childTable doc
          "model_providers") name) "base_url" (.value (.string url))).getD
            (TomlTable.childTable (TomlTable.childTable doc "model_providers") name))
          "api_key").lookup key).map TomlItem.toValue := by
  have hprovider : (setCodexConfig config name doc).lookup "model_providers" =
      some (.table (TomlTable.updateTable (TomlTable.childTable doc "model_providers") name
        fun provider => TomlTable.remove ((config.url.map fun url =>
          TomlTable.insert provider "base_url" (.value (.string url))).getD provider)
            "api_key")) := by
    unfold setCodexConfig TomlTable.updateTable
    cases config.model <;> cases config.url <;> simp
  rw [Json.at?_cons, TomlTable.lookup_toFields, hprovider, Option.map_some, TomlItem.toValue,
    Json.at?_cons, TomlTable.lookup_toFields_updateTable, if_pos rfl, Json.at?_cons,
    TomlTable.lookup_toFields, Json.at?_nil]

theorem lookup_setCodexConfig :
    (TomlItem.toFields (setCodexConfig config name doc)).lookup "model_provider" =
        (TomlItem.toFields doc).lookup "model_provider" ∧
      ∀ model, config.model = some model →
        (TomlItem.toFields (setCodexConfig config name doc)).lookup "model" =
          some (.str model) := by
  unfold setCodexConfig
  constructor
  · cases config.model <;> simp [TomlTable.lookup_toFields, TomlTable.updateTable]
  · intro model hmodel
    rw [hmodel, TomlTable.lookup_toFields, TomlTable.lookup_insert, if_pos rfl, Option.map_some,
      TomlItem.toValue, TomlValue.toValue]

/-- **Codex** has what was set, and no token but that of `auth.json`. -/
theorem readAs_codex (hclean : config.Clean)
    (hname : resolveCodexProviderNameFromDoc doc = .ok name) {root auth : Fields}
    {f : String → String}
    (hroot : Json.SameOff [] (some (.obj (TomlItem.toFields (setCodexConfig config name doc))))
      (some (.obj root))) :
    config.ReadAs .codex (parseCodexConfigWithAuth root
      (some (Json.mapFloatsFields f (setCodexAuth config auth)))) := by
  obtain ⟨hprovider, hmodel⟩ := @lookup_setCodexConfig config name doc
  have htext : ∀ key, textAt root key =
      textAt (TomlItem.toFields (setCodexConfig config name doc)) key := by
    intro key
    have hat := hroot.asStr_at? [key]
    rwa [Json.at?_cons, Json.at?_cons, Json.at?_nil, Json.at?_nil] at hat
  have hresolved : resolveCodexProviderNameFromMap root = some name := by
    rw [resolveCodexProviderNameFromMap, htext, textAt, hprovider]
    exact resolveCodexProviderName_toFields hname
  have hat : ∀ key, textAt (((resolveCodexProviderNameFromMap root).map
      (Json.childObject (Json.childObject root "model_providers"))).getD []) key =
        (Json.at? (some (.obj (TomlItem.toFields (setCodexConfig config name doc))))
          ["model_providers", name, key]).bind Json.asStr := by
    intro key
    rw [hresolved, Option.map_some, Option.getD_some, textAt_eq_at?, Json.at?_childObject,
      ← Json.at?_cons, Json.at?_childObject, ← Json.at?_cons, hroot.asStr_at?]
  refine ⟨?_, ?_, ?_, trivial⟩
  · show (textAt _ "OPENAI_API_KEY").or (textAt _ "api_key") = config.apiToken
    rw [hat, at?_setCodexConfig, lookup_remove, textAt_mapFloats, setCodexAuth,
      hclean.nonBlank_apiToken]
    cases config.apiToken with
    | none => rw [textAt, Json.lookup_removeField, if_pos rfl]; rfl
    | some token => rw [textAt_insertField]; rfl
  · intro url hurl
    show textAt _ "base_url" = some url
    rw [hat, at?_setCodexConfig, hurl, Option.map_some, Option.getD_some, TomlTable.remove,
      TomlTable.lookup_filter_ne _ (by decide), TomlTable.lookup_insert, if_pos rfl]
    rfl
  · intro model hset
    show textAt root "model" = some model
    rw [htext, textAt, hmodel model hset]
    rfl

end Codex

/-! ### OpenClaw -/

section OpenclawFloats

variable (f : String → String)

theorem extendFields_mapFloats (fields patch : Fields) (key : String) :
    (Json.extendFields (Json.mapFloatsFields f fields) (Json.mapFloatsFields f patch)).lookup key =
      (Json.mapFloatsFields f (Json.extendFields fields patch)).lookup key := by
  rw [Json.lookup_extendFields, Json.lookup_mapFloatsFields, Json.lookup_mapFloatsFields,
    Json.lookup_mapFloatsFields, Json.lookup_extendFields, or_map]

theorem extractOpenclawApiToken_mapFloats (provider : Fields) (auth : Option Fields) :
    extractOpenclawApiToken (Json.mapFloatsFields f provider) auth =
      extractOpenclawApiToken provider auth := by
  have hauth : ((((Json.mapFloatsFields f provider).lookup "auth").bind Json.asObject).bind
      fun auth => ((auth.lookup "profile").or (auth.lookup "profileId")).bind Json.asStr) =
        ((provider.lookup "auth").bind Json.asObject).bind fun auth =>
          ((auth.lookup "profile").or (auth.lookup "profileId")).bind Json.asStr := by
    rw [Json.lookup_mapFloatsFields, asObject_mapFloats]
    rcases (provider.lookup "auth").bind Json.asObject with _ | auth
    · rfl
    · rw [Option.map_some, Option.bind_some, Option.bind_some, Json.lookup_mapFloatsFields,
        Json.lookup_mapFloatsFields, or_map, asStr_mapFloats]
  unfold extractOpenclawApiToken resolveOpenclawAuthProfileId firstText
  dsimp only
  rw [hauth]
  simp only [textAt_mapFloats]

theorem extractOpenclawApiToken_congr {provider provider' : Fields} {auth : Option Fields}
    (h : ∀ key, key ≠ "baseUrl" → key ≠ "api" → provider.lookup key = provider'.lookup key) :
    extractOpenclawApiToken provider auth = extractOpenclawApiToken provider' auth := by
  have htext : ∀ key, key ≠ "baseUrl" → key ≠ "api" → textAt provider key = textAt provider' key :=
    fun key hurl hapi => congrArg (Option.bind · Json.asStr) (h key hurl hapi)
  unfold extractOpenclawApiToken resolveOpenclawAuthProfileId firstText
  simp only [List.findSome?_cons, List.findSome?_nil, htext, h, ne_eq, String.reduceEq,
    not_false_eq_true]

theorem parseStringArray_mapFloats (value : Option Json) :
    parseStringArray (value.map (Json.mapFloats f)) = parseStringArray value := by
  rcases value with _ | value
  · rfl
  · cases value with
    | arr items =>
      have hget : ∀ item : Json, (item.mapFloats f).get "id" =
          (item.get "id").map (Json.mapFloats f) := by
        intro item
        cases item with
        | obj fields => exact Json.lookup_mapFloatsFields f fields "id"
        | num n => cases n <;> rfl
        | _ => rfl
      have hitem : ∀ item : Json, (nonBlank (item.mapFloats f).asStr).or
          (nonBlank (((item.mapFloats f).get "id").bind Json.asStr)) =
            (nonBlank item.asStr).or (nonBlank ((item.get "id").bind Json.asStr)) := by
        intro item
        have hstr : (item.mapFloats f).asStr = item.asStr := by
          simpa using asStr_mapFloats f (some item)
        rw [hstr, hget, asStr_mapFloats]
      unfold parseStringArray
      rw [Option.map_some, Json.mapFloats, Json.mapFloatsItems_eq]
      dsimp only
      rw [List.filterMap_map]
      simp only [Function.comp_def, hitem]
    | num n => cases n <;> rfl
    | _ => rfl

/-- **The settings of OpenClaw do not depend on floats.** -/
theorem parseOpenclawConfigWithSources_mapFloats (root models : Fields) (auth : Option Fields)
    (config : Option AgentConfig) :
    parseOpenclawConfigWithSources (Json.mapFloatsFields f root)
        (some (Json.mapFloatsFields f models)) auth config =
      parseOpenclawConfigWithSources root (some models) auth config := by
  have hgetD : ∀ fields : Option Fields, (fields.map (Json.mapFloatsFields f)).getD [] =
      Json.mapFloatsFields f (fields.getD []) := by
    rintro (_ | fields) <;> rfl
  have hmerged : ∀ name key, (mergedProvider (Json.mapFloatsFields f root)
      (some (Json.mapFloatsFields f models)) name).lookup key =
        (Json.mapFloatsFields f (mergedProvider root (some models) name)).lookup key := by
    intro name key
    unfold mergedProvider
    rw [Option.bind_some, Option.bind_some, getOpenclawProviderObject_mapFloats,
      getOpenclawProviderObject_mapFloats, hgetD, hgetD, extendFields_mapFloats]
  have hmodel : modelConfigOf (Json.mapFloatsFields f root) =
      Json.mapFloatsFields f (modelConfigOf root) := by
    unfold modelConfigOf
    rw [childObject_mapFloats, childObject_mapFloats, childObject_mapFloats]
  have htext : ∀ name key, textAt (mergedProvider (Json.mapFloatsFields f root)
      (some (Json.mapFloatsFields f models)) name) key =
        textAt (mergedProvider root (some models) name) key := by
    intro name key
    rw [textAt, hmerged, ← textAt, textAt_mapFloats]
  unfold parseOpenclawConfigWithSources
  dsimp only
  rw [resolveOpenclawProviderName_mapFloats, providerUrl_mergedProvider_mapFloats, htext,
    extractOpenclawApiToken_congr fun key _ _ => hmerged _ key, extractOpenclawApiToken_mapFloats,
    hmodel,
    textAt_mapFloats, Json.lookup_mapFloatsFields, parseStringArray_mapFloats]

end OpenclawFloats

section OpenclawFiles

variable {config : AgentConfig} {root root' : Fields}

def writtenProvider (config : AgentConfig) : String :=
  (nonBlank config.providerId).getD "aor_shared"

/-- The second place of `models.json`, which the reader looks at and the writer does not change. -/
def staleProvider (models : Fields) (name : String) : Fields :=
  if HasTwoRegistries models then (getOpenclawProviderObject models name).getD [] else []

theorem trimmed_writtenProvider : trimmed (writtenProvider config) = writtenProvider config := by
  unfold writtenProvider
  cases hset : nonBlank config.providerId with
  | none => decide
  | some name =>
    obtain ⟨s, -, hs, -⟩ := nonBlank_eq_some.1 hset
    rw [Option.getD_some, ← hs, trimmed_trimmed]

def writtenAt (config : AgentConfig) (key : String) : Option Json :=
  if key = "apiKey" then config.apiToken.map Json.str
  else if key = "baseUrl" then config.url.map Json.str
  else if key = "api" then some (.str (config.apiFormat.getD "openai-responses"))
  else none

theorem AgentConfig.Clean.nonBlank_url (hclean : config.Clean) : nonBlank config.url = config.url :=
  hclean.nonBlank_eq fun text htext => by simp [AgentConfig.texts, Option.mem_toList.1 htext]

theorem AgentConfig.Clean.nonBlank_apiFormat (hclean : config.Clean) :
    nonBlank config.apiFormat = config.apiFormat :=
  hclean.nonBlank_eq fun text htext => by simp [AgentConfig.texts, Option.mem_toList.1 htext]

theorem AgentConfig.Clean.nonBlank_model (hclean : config.Clean) :
    nonBlank config.model = config.model :=
  hclean.nonBlank_eq fun text htext => by simp [AgentConfig.texts, Option.mem_toList.1 htext]

theorem AgentConfig.Clean.nonBlank_agentId (hclean : config.Clean) :
    nonBlank config.agentId = config.agentId :=
  hclean.nonBlank_eq fun text htext => by simp [AgentConfig.texts, Option.mem_toList.1 htext]

theorem AgentConfig.Clean.nonBlank_providerId (hclean : config.Clean) :
    nonBlank config.providerId = config.providerId :=
  hclean.nonBlank_eq fun text htext => by simp [AgentConfig.texts, Option.mem_toList.1 htext]

theorem lookup_bareSnapshot (hclean : config.Clean) (key : String) :
    (buildOpenclawProviderSnapshot (openclawEditorFromAgentConfig config) false).lookup key =
      if key = "apiKey" then none else writtenAt config key := by
  unfold buildOpenclawProviderSnapshot writtenAt
  dsimp only [openclawEditorFromAgentConfig]
  rw [if_neg (by decide), snapshotApi, hclean.nonBlank_url, hclean.nonBlank_apiFormat,
    lookup_insertText]
  by_cases hurl : key = "baseUrl"
  · subst hurl
    rw [if_pos rfl, if_neg (by decide), if_neg (by decide), if_pos rfl]
    exact Option.or_none
  · rw [if_neg hurl, List.lookup_cons]
    by_cases hapi : key = "api"
    · subst hapi
      rfl
    · rw [if_neg hurl, if_neg hapi, beq_false_of_ne hapi]
      split_ifs <;> rfl

theorem lookup_snapshot (hclean : config.Clean) (key : String) :
    (buildOpenclawProviderSnapshot (openclawEditorFromAgentConfig config) true).lookup key =
      writtenAt config key := by
  have hinsert : buildOpenclawProviderSnapshot (openclawEditorFromAgentConfig config) true =
      insertText (buildOpenclawProviderSnapshot (openclawEditorFromAgentConfig config) false)
        "apiKey" (nonBlank config.apiToken) := rfl
  rw [hinsert, hclean.nonBlank_apiToken, lookup_insertText, lookup_bareSnapshot hclean]
  by_cases htoken : key = "apiKey"
  · rw [if_pos htoken, if_pos htoken, Option.or_none, writtenAt, if_pos htoken]
  · rw [if_neg htoken, if_neg htoken]

theorem setOpenclawConfig_ok (hclean : config.Clean)
    (hset : setOpenclawConfig (openclawEditorFromAgentConfig config) root = .ok root') :
    (∃ provider, getOpenclawProviderObject root' (writtenProvider config) = some provider ∧
      ∀ key, provider.lookup key = writtenAt config key) ∧
        modelConfigOf root' =
          setDefaultModels (openclawEditorFromAgentConfig config) (modelConfigOf root) := by
  have hname : trimmed (openclawEditorFromAgentConfig config).providerId = writtenProvider config :=
    trimmed_writtenProvider
  have htoken : (openclawEditorFromAgentConfig config).apiKey = config.apiToken := rfl
  unfold setOpenclawConfig at hset
  cases hformat : formatOpenclawPrimarySource (openclawEditorFromAgentConfig config) root with
  | error e =>
    rw [hformat] at hset
    cases hset
  | ok root₁ =>
    obtain ⟨-, hroot₁⟩ := formatOpenclawPrimarySource_eq_ok.1 hformat
    rw [hname] at hroot₁
    have hsnapshot := lookup_bareSnapshot hclean
    -- the provider, its place and the models after the first write
    have hproviders : Json.childObject (Json.childObject root₁ "models") "providers" =
        Json.updateChild (Json.childObject (Json.childObject root "models") "providers")
          (writtenProvider config) fun _ =>
            buildOpenclawProviderSnapshot (openclawEditorFromAgentConfig config) false := by
      rw [hroot₁, childObject_updateChild_of_ne _ (by decide), updatePrimaryProvider,
        childObject_updateChild, childObject_updateChild]
    have hnested : nestedProviders root₁ =
        some (Json.childObject (Json.childObject root₁ "models") "providers") := by
      rw [hproviders, hroot₁, nestedProviders_updateChild_of_ne _ (by decide),
        updatePrimaryProvider, nestedProviders_updateChild]
    have hmodel : modelConfigOf root₁ =
        setDefaultModels (openclawEditorFromAgentConfig config) (modelConfigOf root) := by
      rw [hroot₁, modelConfigOf, childObject_updateChild, childObject_updateChild,
        childObject_updateChild, updatePrimaryProvider, childObject_updateChild_of_ne _ (by decide)]
      rfl
    rw [hformat, htoken, hclean.nonBlank_apiToken] at hset
    -- without a token this is all; with one the key is set behind it
    cases hset' : config.apiToken with
    | none =>
      rw [hset'] at hset
      obtain rfl : root₁ = root' := Except.ok.inj hset
      refine ⟨⟨buildOpenclawProviderSnapshot (openclawEditorFromAgentConfig config) false, ?_,
        fun key => ?_⟩, hmodel⟩
      · rw [getOpenclawProviderObject, getOpenclawProvidersObject, hnested, Option.some_or,
          Option.bind_some, hproviders, Json.lookup_updateChild, if_pos rfl]
        rfl
      · rw [hsnapshot]
        by_cases hkey : key = "apiKey"
        · rw [if_pos hkey, writtenAt, if_pos hkey, hset']
          rfl
        · rw [if_neg hkey]
    | some token =>
      rw [hset'] at hset
      have hroot' : updatePrimaryProvider root₁ (writtenProvider config) (fun provider =>
          Json.removeField (Json.insertField provider "apiKey" (.str token)) "api_key") = root' :=
        Except.ok.inj hset
      refine ⟨⟨Json.removeField (Json.insertField (buildOpenclawProviderSnapshot
        (openclawEditorFromAgentConfig config) false) "apiKey" (.str token)) "api_key", ?_,
          fun key => ?_⟩, ?_⟩
      · rw [← hroot', getOpenclawProviderObject, getOpenclawProvidersObject, updatePrimaryProvider,
          nestedProviders_updateChild, Option.some_or, Option.bind_some, Json.lookup_updateChild,
          if_pos rfl, hproviders, childObject_updateChild]
        rfl
      · rw [Json.lookup_removeField, lookup_insertField]
        by_cases hold : key = "api_key"
        · rw [if_pos hold, hold]
          rfl
        · rw [if_neg hold]
          by_cases hkey : key = "apiKey"
          · rw [if_pos hkey, hkey, writtenAt, if_pos rfl, hset']
            rfl
          · rw [if_neg hkey, hsnapshot, if_neg hkey]
      · rw [← hmodel, ← hroot', modelConfigOf, updatePrimaryProvider,
          childObject_updateChild_of_ne _ (by decide), modelConfigOf]

/-- **The reader takes the second place of `models.json` before what was written.** -/
theorem lookup_mergedProvider (hclean : config.Clean)
    (hset : setOpenclawConfig (openclawEditorFromAgentConfig config) root = .ok root')
    (models : Fields) (key : String) :
    (mergedProvider root' (some (syncProvider (writtenProvider config)
        (buildOpenclawProviderSnapshot (openclawEditorFromAgentConfig config) true) false models))
          (writtenProvider config)).lookup key =
      ((staleProvider models (writtenProvider config)).lookup key).or (writtenAt config key) := by
  obtain ⟨⟨provider, hprovider, hlookup⟩, -⟩ := setOpenclawConfig_ok hclean hset
  unfold mergedProvider staleProvider
  rw [Json.lookup_extendFields, hprovider, Option.getD_some, hlookup, Option.bind_some,
    getD_getOpenclawProviderObject_syncProvider]
  by_cases htwo : HasTwoRegistries models
  · rw [if_pos htwo, if_neg fun h => h.2 htwo]
  · rw [if_neg htwo, if_pos ⟨rfl, htwo⟩, nextProvider, if_neg (by decide), lookup_snapshot hclean]
    cases writtenAt config key <;> rfl

/-- **The reader looks for the provider that was written.** -/
theorem resolveOpenclawProviderName_set (hclean : config.Clean)
    (hset : setOpenclawConfig (openclawEditorFromAgentConfig config) root = .ok root')
    (models : Option Fields) :
    resolveOpenclawProviderName root' models (some config) = writtenProvider config := by
  obtain ⟨⟨provider, hprovider, -⟩, -⟩ := setOpenclawConfig_ok hclean hset
  unfold resolveOpenclawProviderName writtenProvider at *
  rw [Option.bind_some]
  cases hname : nonBlank config.providerId with
  | some name => rfl
  | none =>
    rw [hname, Option.getD_none] at hprovider
    obtain ⟨providers, hproviders, hfound⟩ := Option.bind_eq_some_iff.1 hprovider
    obtain ⟨value, hvalue, -⟩ := Option.bind_eq_some_iff.1 hfound
    have hmem : "aor_shared" ∈ sortedKeys providers := by
      have hsome : (providers.lookup "aor_shared").isSome = true := by
        rw [hvalue]
        rfl
      obtain ⟨field, hfield, hkey⟩ := List.lookup_isSome_iff.1 hsome
      exact (List.mem_insertionSort _).2
        (List.mem_map.2 ⟨field, hfield, (beq_iff_eq.1 hkey).symm⟩)
    dsimp only
    rw [hproviders, Option.bind_some, pickProvider, if_pos hmem]
    rfl

/-- What the reader finds at the second place of `models.json` is what is set. -/
structure StaleAgrees (config : AgentConfig) (stale : Fields) (auth : Option Fields) : Prop where
  url : ∀ url value, config.url = some url → stale.lookup "baseUrl" = some value → value = .str url
  apiFormat : ∀ format value, config.apiFormat = some format → stale.lookup "api" = some value →
    value = .str format
  apiToken : stale.lookup "apiKey" = none ∧ config.apiToken ≠ none ∨
    extractOpenclawApiToken stale auth = config.apiToken

section Merged

variable {provider stale : Fields} {auth : Option Fields}

theorem apiToken_merged_iff (hclean : config.Clean)
    (h : ∀ key, provider.lookup key = (stale.lookup key).or (writtenAt config key)) :
    extractOpenclawApiToken provider auth = config.apiToken ↔
      stale.lookup "apiKey" = none ∧ config.apiToken ≠ none ∨
        extractOpenclawApiToken stale auth = config.apiToken := by
  by_cases hset : stale.lookup "apiKey" = none ∧ config.apiToken ≠ none
  · refine iff_of_true ?_ (.inl hset)
    have hkey := h "apiKey"
    rw [hset.1, Option.none_or, writtenAt, if_pos rfl] at hkey
    have htoken := hclean.nonBlank_apiToken
    cases hapi : config.apiToken with
    | none => exact absurd hapi hset.2
    | some token =>
      rw [hapi] at hkey htoken
      unfold extractOpenclawApiToken firstText
      rw [List.findSome?_cons, textAt, hkey]
      dsimp only [Option.map_some, Option.bind_some, Json.asStr]
      rw [htoken]
      rfl
  · rw [or_iff_right hset]
    rw [extractOpenclawApiToken_congr fun key hurl hapi => ?_]
    rw [h, writtenAt, if_neg hurl, if_neg hapi]
    by_cases hkey : key = "apiKey"
    · rw [if_pos hkey, hkey]
      cases hstale : stale.lookup "apiKey" with
      | some value => rfl
      | none =>
        have hnone : config.apiToken = none := not_not.1 fun hne => hset ⟨hstale, hne⟩
        rw [hnone]
        rfl
    · rw [if_neg hkey, Option.or_none]

theorem returned_merged_iff {set : Option String} {old : Option Json} :
    Returned set ((old.or (set.map Json.str)).bind Json.asStr) ↔
      ∀ text value, set = some text → old = some value → value = .str text := by
  constructor
  · rintro h text value rfl rfl
    have hread : value.asStr = some text := h text rfl
    cases value with
    | str s => rw [Option.some.inj hread]
    | _ => cases hread
  · rintro h text rfl
    cases hold : old with
    | none => rfl
    | some value => rw [h text value rfl hold]; rfl

theorem url_merged_iff
    (h : ∀ key, provider.lookup key = (stale.lookup key).or (writtenAt config key)) :
    Returned config.url (providerUrl provider) ↔
      ∀ url value, config.url = some url → stale.lookup "baseUrl" = some value →
        value = .str url := by
  have hbase : provider.lookup "baseUrl" =
      (stale.lookup "baseUrl").or (config.url.map Json.str) := h "baseUrl"
  rw [← returned_merged_iff]
  unfold Returned providerUrl
  refine forall_congr' fun url => imp_congr_right fun hurl => ?_
  -- with a URL that is set there is a value, and the other spelling does not count
  have hsome : ∃ value, provider.lookup "baseUrl" = some value := by
    rw [hbase, hurl]
    cases stale.lookup "baseUrl" with
    | none => exact ⟨_, rfl⟩
    | some value => exact ⟨_, rfl⟩
  obtain ⟨value, hvalue⟩ := hsome
  rw [← hbase, hvalue, Option.some_or]

theorem apiFormat_merged_iff
    (h : ∀ key, provider.lookup key = (stale.lookup key).or (writtenAt config key)) :
    Returned config.apiFormat (textAt provider "api") ↔
      ∀ format value, config.apiFormat = some format → stale.lookup "api" = some value →
        value = .str format := by
  have hapi : provider.lookup "api" = (stale.lookup "api").or
    (some (.str (config.apiFormat.getD "openai-responses"))) := h "api"
  rw [← returned_merged_iff]
  unfold Returned textAt
  refine forall_congr' fun format => imp_congr_right fun hformat => ?_
  rw [hapi, hformat]
  rfl

end Merged

theorem returned_primary (hclean : config.Clean) (modelConfig : Fields) :
    Returned config.model
      (textAt (setDefaultModels (openclawEditorFromAgentConfig config) modelConfig) "primary") := by
  intro model hmodel
  have hprimary : nonBlank (openclawEditorFromAgentConfig config).primaryModel = some model :=
    hclean.nonBlank_model.trans hmodel
  unfold setDefaultModels
  rw [hprimary]
  dsimp only
  rw [textAt]
  by_cases hempty : (openclawEditorFromAgentConfig config).fallbackModels.isEmpty = true
  · rw [if_pos hempty, Json.lookup_removeField, if_neg (by decide), lookup_insertField, if_pos rfl]
    rfl
  · rw [if_neg hempty, lookup_insertField, if_neg (by decide), lookup_insertField, if_pos rfl]
    rfl

theorem parseStringArray_strs {texts : List String}
    (htexts : ∀ text ∈ texts, trimmed text = text ∧ text ≠ "") :
    parseStringArray (some (.arr (texts.map .str))) =
      if texts.isEmpty then none else some texts := by
  unfold parseStringArray
  dsimp only
  rw [List.filterMap_map]
  have hread : texts.filterMap ((fun item => (nonBlank item.asStr).or
      (nonBlank ((item.get "id").bind Json.asStr))) ∘ Json.str) = texts.filterMap some := by
    refine List.filterMap_congr fun text htext => ?_
    obtain ⟨htrim, hne⟩ := htexts text htext
    show (nonBlank (some text)).or _ = some text
    rw [nonBlank_of_trimmed htrim hne, Option.some_or]
  rw [hread, List.filterMap_some]

theorem returned_fallbacks_iff (hclean : config.Clean) (modelConfig : Fields) :
    Returned config.fallbackModels (parseStringArray
        ((setDefaultModels (openclawEditorFromAgentConfig config) modelConfig).lookup
          "fallbacks")) ↔
      config.fallbackModels ≠ some [] := by
  have hmodels : (openclawEditorFromAgentConfig config).fallbackModels =
      config.fallbackModels.getD [] := rfl
  unfold setDefaultModels
  rw [hmodels]
  cases hset : config.fallbackModels with
  | none =>
    refine iff_of_true ?_ (by simp)
    rintro models hnone
    cases hnone
  | some models =>
    have htexts : ∀ text ∈ models, trimmed text = text ∧ text ≠ "" := fun text htext =>
      hclean.texts text (by simp [AgentConfig.texts, hset, htext])
    have hkept : (models.map trimmed).filter (· ≠ "") = models := by
      have hmap : models.map trimmed = models := by
        conv_rhs => rw [← List.map_id models]
        exact List.map_congr_left fun text htext => (htexts text htext).1
      rw [hmap, List.filter_eq_self]
      exact fun text htext => by simpa using (htexts text htext).2
    rw [Option.getD_some]
    by_cases hempty : models.isEmpty = true
    · rw [if_pos hempty, Json.lookup_removeField, if_pos rfl]
      rw [List.isEmpty_iff.1 hempty]
      refine iff_of_false (fun h => ?_) (fun h => h rfl)
      cases h [] rfl
    · rw [if_neg hempty, hkept, lookup_insertField, if_pos rfl, parseStringArray_strs htexts,
        if_neg hempty]
      refine iff_of_true (fun _ h => h) fun h => hempty ?_
      rw [Option.some.inj h]
      rfl

theorem fallbackModels_parse (value : Option Json) :
    (if ((parseStringArray value).getD []).isEmpty then none
      else some ((parseStringArray value).getD [])) = parseStringArray value := by
  cases hparsed : parseStringArray value with
  | none => rfl
  | some texts =>
    have hne : ¬ texts.isEmpty = true := by
      intro hempty
      unfold parseStringArray at hparsed
      dsimp only at hparsed
      split_ifs at hparsed with hlist
      rw [Option.some.inj hparsed] at hlist
      exact hlist hempty
    rw [Option.getD_some, if_neg hne]

/-- **OpenClaw**: an empty list of fallbacks is none, and what stands at the second place of
`models.json` has to agree. -/
theorem readAs_openclaw (hclean : config.Clean)
    (hset : setOpenclawConfig (openclawEditorFromAgentConfig config) root = .ok root')
    (f : String → String) (models : Fields) (auth : Option Fields) :
    config.ReadAs .openclaw (openclawEditorToAgentConfig (parseOpenclawEditorConfig
        (Json.mapFloatsFields f root') (some (Json.mapFloatsFields f (syncProvider
          (writtenProvider config)
          (buildOpenclawProviderSnapshot (openclawEditorFromAgentConfig config) true) false
            models)))
            auth (some config))) ↔
      config.fallbackModels ≠ some [] ∧
        StaleAgrees config (staleProvider models (writtenProvider config)) auth := by
  have hmerged := lookup_mergedProvider hclean hset models
  obtain ⟨-, hmodel⟩ := setOpenclawConfig_ok hclean hset
  have hagent : Returned config.agentId (some (resolveOpenclawAgentId (some config))) := by
    intro agentId hid
    rw [resolveOpenclawAgentId, Option.bind_some, hclean.nonBlank_agentId, hid, Option.getD_some]
  have hprovider : Returned config.providerId (some (writtenProvider config)) := by
    intro providerId hid
    rw [writtenProvider, hclean.nonBlank_providerId, hid, Option.getD_some]
  unfold parseOpenclawEditorConfig openclawEditorToAgentConfig AgentConfig.ReadAs
  rw [parseOpenclawConfigWithSources_mapFloats]
  unfold parseOpenclawConfigWithSources
  dsimp only
  rw [resolveOpenclawProviderName_set hclean hset, hmodel, fallbackModels_parse]
  dsimp only [Option.getD_some]
  rw [apiToken_merged_iff hclean hmerged, url_merged_iff hmerged, apiFormat_merged_iff hmerged,
    returned_fallbacks_iff hclean]
  constructor
  · rintro ⟨htoken, hurl, -, -, -, hapi, hfallbacks⟩
    exact ⟨hfallbacks, hurl, hapi, htoken⟩
  · rintro ⟨hfallbacks, hurl, hapi, htoken⟩
    exact ⟨htoken, hurl, returned_primary hclean _, hagent, hprovider, hapi, hfallbacks⟩

end OpenclawFiles

end AiOpenRouter
