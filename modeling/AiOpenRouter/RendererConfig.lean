/-
The configuration in the renderer (`store/proxyActions.ts`).

The renderer gets the printed configuration, and keeps it in a form of its own. The
values pass between the two as JSON, and `undefined` is a field that is left out.

* `Renderer.normalizeConfig` and `Renderer.buildSaveConfigPayload` rebuild the
  providers and the groups;
* `ShowsConfig`: an object has the fields of a printed configuration;
* `shows_normalizeConfig`: of a configuration whose model names are trimmed, the
  renderer leaves out blank names and ids, and the retired fields of the groups.
-/
import AiOpenRouter.NormalForms
import AiOpenRouter.TableMigration

namespace AiOpenRouter

/-! ### JavaScript -/

/-- White space and line terminators, as `String.prototype.trim` removes them. -/
def isJsSpace (c : Char) : Bool :=
  (9 ≤ c.toNat && c.toNat ≤ 13) || c.toNat = 32 || c.toNat = 160 || c.toNat = 5760
    || (8192 ≤ c.toNat && c.toNat ≤ 8202) || c.toNat = 8232 || c.toNat = 8233 || c.toNat = 8239
    || c.toNat = 8287 || c.toNat = 12288 || c.toNat = 65279

/-- `String.prototype.trim`. -/
def jsTrim (s : String) : String :=
  String.ofList (Text.trimEndMatches isJsSpace (s.toList.dropWhile isJsSpace))

/-- `{ ...fields, ...changes }`. -/
def spread (fields changes : List (String × Json)) : List (String × Json) :=
  changes.foldl (fun fields field => Json.insertField fields field.1 field.2) fields

/-- The fields of an object, to be spread: none of `undefined` and `null`. -/
def fieldsOf : Option Json → List (String × Json)
  | some (.obj fields) => fields
  | _ => []

/-- `value ?? default`. -/
def nullish (value : Option Json) (default : Json) : Json :=
  match value with
  | none | some .null => default
  | some value => value

/-- `Array.isArray(value) ? value : []`. -/
def itemsOf (value : Option Json) : List Json := (value.bind Json.asArray).getD []

namespace Renderer

/-! ### Providers -/

/-- `trimAndDedupModels`. -/
def trimAndDedupModels (models : Option Json) : List String :=
  ((itemsOf models).filterMap Json.asStr).foldl
    (fun normalized model =>
      if jsTrim model = "" ∨ jsTrim model ∈ normalized then normalized
      else normalized ++ [jsTrim model])
    []

/-- `value === 0`. -/
def isZero : Option Json → Bool
  | some (.num (.int n)) => n = 0
  | some (.num (.float text)) => F64.isZero ⟨text⟩
  | _ => false

/-- `isMeaningfullyConfiguredLegacyCost`. -/
def isMeaningfullyConfiguredLegacyCost (cost : Option Json) : Bool :=
  match cost with
  | some (.obj fields) =>
    (match fields.lookup "enabled" with | some (.bool enabled) => enabled | _ => false)
      || !isZero (fields.lookup "inputPricePerM") || !isZero (fields.lookup "outputPricePerM")
      || !isZero (fields.lookup "cacheInputPricePerM")
      || !isZero (fields.lookup "cacheOutputPricePerM")
      || (match nullish (fields.lookup "currency") (.str "USD") with
          | .str currency => currency ≠ "USD"
          | _ => true)
      || (match fields.lookup "template" with | none | some .null => false | _ => true)
  | _ => false

/-- `normalizedModelCostsEntries`: the costs of known models, the first under each trimmed name. -/
def normalizedModelCostsEntries (models : List String) (costs : List (String × Json)) :
    List (String × Json) :=
  costs.foldl
    (fun entries cost =>
      if jsTrim cost.1 = "" ∨ jsTrim cost.1 ∉ models then entries
      else if jsTrim cost.1 ∈ entries.map Prod.fst then entries
      else entries ++ [(jsTrim cost.1, cost.2)])
    []

/-- `normalizedModelCosts`. -/
def normalizedModelCosts (models : List String) (fields : List (String × Json)) :
    List (String × Json) :=
  let entries := normalizedModelCostsEntries models (fieldsOf (fields.lookup "modelCosts"))
  if entries ≠ [] then entries
  else if isMeaningfullyConfiguredLegacyCost (fields.lookup "cost") then
    models.map fun model => (model, (fields.lookup "cost").getD .null)
  else []

/-- `normalizeProvider`. -/
def normalizeProvider (provider : Json) : Json :=
  let fields := fieldsOf (some provider)
  let models := trimAndDedupModels (fields.lookup "models")
  let costs := normalizedModelCosts models fields
  let fields := Json.insertField fields "models" (.arr (models.map .str))
  .obj (if costs ≠ [] then Json.insertField fields "modelCosts" (.obj costs)
    else fields.filter (·.1 ≠ "modelCosts"))

/-- The map of the providers under their ids: `set` replaces what it has, blank ids are skipped. -/
def providerMap (normalize : Json → Json) (providers : List Json) : List (String × Json) :=
  providers.foldl
    (fun map provider =>
      match provider.getStr "id" with
      | some id => if jsTrim id = "" then map else Json.insertField map id (normalize provider)
      | none => map)
    []

/-! ### Groups -/

/-- `normalizeGroupFailoverConfig`, with `DEFAULT_GROUP_FAILOVER_CONFIG`. -/
def normalizeGroupFailoverConfig (failover : Option Json) : Json :=
  .obj (spread [("enabled", .bool false), ("failureThreshold", .int 3),
    ("cooldownSeconds", .int 300)] (fieldsOf failover))

/-- `normalizeGroup`. -/
def normalizeGroup (group : Json) : Json :=
  .obj (optionalField "id" (group.get "id") ++ optionalField "name" (group.get "name") ++
    [("routingTable", nullish (group.get "routingTable") (.arr [])),
      ("failover", normalizeGroupFailoverConfig (group.get "failover"))])

/-! ### Configurations -/

/-- `createDefaultConfig`. -/
def createDefaultConfig : List (String × Json) :=
  [("server", .obj [("host", .str "0.0.0.0"), ("port", .int 8899), ("authEnabled", .bool false),
      ("localBearerToken", .str "")]),
    ("compat", .obj [("strictMode", .bool false), ("textToolCallFallbackEnabled", .bool true),
      ("headerPassthroughEnabled", .bool true)]),
    ("logging", .obj [("captureBody", .bool false)]),
    ("ui", .obj [("theme", .str "light"), ("locale", .str "en-US"), ("localeMode", .str "auto"),
      ("launchOnStartup", .bool false), ("autoStartServer", .bool true),
      ("closeToTray", .bool true),
      ("quotaAutoRefreshMinutes", .int 5), ("autoUpdateEnabled", .bool true)]),
    ("remoteGit", .obj [("enabled", .bool false), ("repoUrl", .str ""), ("token", .str ""),
      ("branch", .str "main")]),
    ("providers", .arr []), ("groups", .arr [])]

def partOf (input : List (String × Json)) (key : String) : List (String × Json) :=
  spread (fieldsOf (createDefaultConfig.lookup key)) (fieldsOf (input.lookup key))

/-- A part with `true` for a setting that is missing. -/
def withTrue (part : List (String × Json)) (keys : List String) : List (String × Json) :=
  spread part (keys.map fun key => (key, nullish (part.lookup key) (.bool true)))

/-- `safeConfig`. -/
def safeConfig (input : List (String × Json)) : List (String × Json) :=
  spread (spread createDefaultConfig input)
    [("server", .obj (partOf input "server")), ("compat", .obj (partOf input "compat")),
      ("logging", .obj (partOf input "logging")), ("ui", .obj (partOf input "ui")),
      ("remoteGit", .obj (partOf input "remoteGit")),
      ("providers", .arr (itemsOf (input.lookup "providers"))),
      ("groups", .arr (itemsOf (input.lookup "groups")))]

/-- `normalizeConfig`. -/
def normalizeConfig (config : Json) : Json :=
  let input := match config with | .obj fields => fields | _ => createDefaultConfig
  .obj (spread (safeConfig input)
    [("ui", .obj (withTrue (partOf input "ui") ["autoUpdateEnabled"])),
      ("providers", .arr ((providerMap normalizeProvider
        (itemsOf (input.lookup "providers"))).map Prod.snd)),
      ("compat", .obj (withTrue (partOf input "compat")
        ["headerPassthroughEnabled", "textToolCallFallbackEnabled"])),
      ("groups", .arr ((itemsOf (input.lookup "groups")).map normalizeGroup))])

/-- `buildSaveConfigPayload`. -/
def buildSaveConfigPayload (config : Json) : Json :=
  .obj (spread (fieldsOf (some config))
    [("providers", .arr ((providerMap id (itemsOf (config.get "providers"))).map Prod.snd)),
      ("groups", .arr ((itemsOf (config.get "groups")).map normalizeGroup))])

end Renderer

/-! ### Spread fields -/

variable {fields changes : List (String × Json)} (config : ProxyConfig)

theorem lookup_spread (h : (changes.map Prod.fst).Nodup) (key : String) :
    (spread fields changes).lookup key = (changes.lookup key).or (fields.lookup key) := by
  unfold spread
  induction changes using List.reverseRecOn with
  | nil => rfl
  | append_singleton changes field ih =>
    rw [List.map_append, List.map_singleton, ← List.concat_eq_append, List.nodup_concat] at h
    rw [List.foldl_append, List.foldl_cons, List.foldl_nil, lookup_insertField, ih h.2,
      List.lookup_append]
    by_cases hkey : key = field.1
    · have hnone : changes.lookup field.1 = none :=
        List.lookup_eq_none_iff.2 fun other hmem =>
          bne_iff_ne.2 fun heq => h.1 (heq ▸ List.mem_map_of_mem hmem)
      rw [if_pos hkey, hkey, hnone, List.lookup_cons_self]
      rfl
    · have hnone : [field].lookup key = none := by
        rw [List.lookup_cons, beq_false_of_ne hkey]
        rfl
      rw [if_neg hkey, hnone, Option.or_none]

theorem nodup_insertField (h : (fields.map Prod.fst).Nodup) (key : String) (value : Json) :
    ((Json.insertField fields key value).map Prod.fst).Nodup := by
  unfold Json.insertField
  split_ifs with hany
  · have hkeys : (fields.map fun field => if field.1 = key then (key, value) else field).map
        Prod.fst = fields.map Prod.fst := by
      rw [List.map_map]
      refine List.map_congr_left fun field _ => ?_
      by_cases hkey : field.1 = key
      · rw [Function.comp_apply, if_pos hkey, hkey]
      · rw [Function.comp_apply, if_neg hkey]
    rwa [hkeys]
  · rw [List.map_append, List.map_singleton, ← List.concat_eq_append, List.nodup_concat]
    refine ⟨fun hmem => hany ?_, h⟩
    obtain ⟨field, hfield, hkey⟩ := List.mem_map.1 hmem
    exact List.any_eq_true.2 ⟨field, hfield, decide_eq_true hkey⟩

theorem nodup_spread (h : (fields.map Prod.fst).Nodup) (changes : List (String × Json)) :
    ((spread fields changes).map Prod.fst).Nodup :=
  @List.foldlRecOn _ _ (fun fields => (fields.map Prod.fst).Nodup) changes _ fields h
    fun _ hfields field _ => nodup_insertField hfields field.1 field.2

theorem insertField_cons_of_ne {field : String × Json} {key : String} (h : field.1 ≠ key)
    (fields : List (String × Json)) (value : Json) :
    Json.insertField (field :: fields) key value = field :: Json.insertField fields key value := by
  have hany : ((field :: fields).any fun field => decide (field.1 = key)) =
      fields.any fun field => decide (field.1 = key) := by
    rw [List.any_cons, decide_eq_false h, Bool.false_or]
  unfold Json.insertField
  rw [hany, List.map_cons, if_neg h]
  split_ifs <;> rfl

theorem insertField_cons_self {key : String} (h : key ∉ fields.map Prod.fst) (value value' : Json) :
    Json.insertField ((key, value) :: fields) key value' = (key, value') :: fields := by
  have hrest : (fields.map fun field => if field.1 = key then (key, value') else field) =
      fields := by
    refine (List.map_congr_left fun field hmem => ?_).trans (List.map_id _)
    exact if_neg fun heq => h (List.mem_map.2 ⟨field, hmem, heq⟩)
  unfold Json.insertField
  rw [if_pos (by simp), List.map_cons, if_pos rfl, hrest]

theorem spread_cons_of_notMem {field : String × Json} (h : field.1 ∉ changes.map Prod.fst)
    (fields : List (String × Json)) :
    spread (field :: fields) changes = field :: spread fields changes := by
  unfold spread
  induction changes generalizing fields with
  | nil => rfl
  | cons first changes ih =>
    rw [List.map_cons, List.mem_cons, not_or] at h
    rw [List.foldl_cons, List.foldl_cons, insertField_cons_of_ne h.1, ih h.2]

theorem spread_eq_changes (hkeys : fields.map Prod.fst = changes.map Prod.fst)
    (hnodup : (changes.map Prod.fst).Nodup) : spread fields changes = changes := by
  induction changes generalizing fields with
  | nil => exact List.map_eq_nil_iff.1 hkeys
  | cons first changes ih =>
    cases fields with
    | nil => cases hkeys
    | cons field fields =>
      obtain ⟨key, value⟩ := field
      obtain ⟨hkey, hrest⟩ := List.cons.inj hkeys
      obtain rfl : key = first.1 := hkey
      rw [List.map_cons, List.nodup_cons] at hnodup
      have hthis : spread ((first.1, value) :: fields) (first :: changes) =
          spread (first :: fields) changes := by
        rw [spread, List.foldl_cons, insertField_cons_self (hrest ▸ hnodup.1)]
        rfl
      rw [hthis, spread_cons_of_notMem hnodup.1, ih hrest hnodup.2]

theorem spread_eq_self (hnodup : (fields.map Prod.fst).Nodup)
    (h : ∀ field ∈ changes, fields.lookup field.1 = some field.2) :
    spread fields changes = fields := by
  unfold spread
  induction changes with
  | nil => rfl
  | cons first changes ih =>
    rw [List.foldl_cons, insertField_of_lookup hnodup (h first List.mem_cons_self)]
    exact ih fun field hmem => h field (List.mem_cons_of_mem _ hmem)

/-! ### What the renderer makes of a provider -/

def Rule.withNames (rule : Rule) : Rule := { rule with models := rule.models.filter (· ≠ "") }

/-- The model names are distinct, and trimmed by the rules of both languages. -/
structure Rule.HasTrimmedModels (rule : Rule) : Prop where
  trimmed : ∀ model ∈ rule.models, AiOpenRouter.trimmed model = model ∧ jsTrim model = model
  nodup : rule.models.Nodup

theorem Rule.HasTrimmedModels.withNames {rule : Rule} (h : rule.HasTrimmedModels) :
    rule.withNames.HasTrimmedModels :=
  ⟨fun model hmem => h.trimmed model (List.mem_of_mem_filter hmem), h.nodup.filter _⟩

theorem validModels_withNames {rule : Rule} (h : rule.HasTrimmedModels) :
    validModels rule.models = rule.withNames.models := by
  have hmap : rule.models.map trimmed = rule.models :=
    (List.map_congr_left fun model hmem => (h.trimmed model hmem).1).trans (List.map_id _)
  rw [validModels, hmap]
  rfl

namespace Renderer

variable {rule : Rule}

theorem trimAndDedupModels_toJson (h : rule.HasTrimmedModels) :
    trimAndDedupModels (some (.arr (rule.models.map .str))) = rule.withNames.models := by
  obtain ⟨htrimmed, hnodup⟩ := h
  have hitems : (itemsOf (some (.arr (rule.models.map .str)))).filterMap Json.asStr =
      rule.models := by
    show (rule.models.map Json.str).filterMap Json.asStr = rule.models
    rw [List.filterMap_map]
    exact List.filterMap_some
  rw [trimAndDedupModels, hitems, Rule.withNames]
  dsimp only
  generalize rule.models = models at htrimmed hnodup
  induction models using List.reverseRecOn with
  | nil => rfl
  | append_singleton models model ih =>
    rw [← List.concat_eq_append, List.nodup_concat] at hnodup
    rw [List.foldl_append, List.foldl_cons, List.foldl_nil,
      ih (fun other hmem => htrimmed other (List.mem_append_left _ hmem)) hnodup.2,
      (htrimmed model (List.mem_append_right _ List.mem_cons_self)).2, List.filter_append]
    by_cases hblank : model = ""
    · rw [if_pos (.inl hblank), List.filter_cons_of_neg (by simp [hblank]), List.filter_nil,
        List.append_nil]
    · have hnew : ¬(model = "" ∨ model ∈ models.filter (· ≠ "")) :=
        not_or.2 ⟨hblank, fun hmem => hnodup.1 (List.mem_of_mem_filter hmem)⟩
      rw [if_neg hnew, List.filter_cons_of_pos (by simp [hblank]), List.filter_nil]

theorem normalizedModelCostsEntries_eq_self {models : List String} {costs : List (String × Json)}
    (hknown : ∀ cost ∈ costs, jsTrim cost.1 = cost.1 ∧ cost.1 ≠ "" ∧ cost.1 ∈ models)
    (hnodup : (costs.map Prod.fst).Nodup) : normalizedModelCostsEntries models costs = costs := by
  unfold normalizedModelCostsEntries
  induction costs using List.reverseRecOn with
  | nil => rfl
  | append_singleton costs cost ih =>
    rw [List.map_append, List.map_singleton, ← List.concat_eq_append, List.nodup_concat] at hnodup
    obtain ⟨htrimmed, hne, hmem⟩ := hknown cost (List.mem_append_right _ List.mem_cons_self)
    rw [List.foldl_append, List.foldl_cons, List.foldl_nil,
      ih (fun other hother => hknown other (List.mem_append_left _ hother)) hnodup.2, htrimmed,
      if_neg (not_or.2 ⟨hne, not_not.2 hmem⟩), if_neg hnodup.1]

theorem isMeaningfullyConfiguredLegacyCost_toJson (cost : RuleCostConfig) :
    isMeaningfullyConfiguredLegacyCost (some cost.toJson) =
      AiOpenRouter.isMeaningfullyConfiguredLegacyCost cost := by
  obtain ⟨enabled, input, output, cacheInput, cacheOutput, currency, template⟩ := cost
  cases template with
  | none => rfl
  | some template => rfl

theorem normalizedModelCosts_toJson (hnormal : rule.IsNormal) (hmodels : rule.HasTrimmedModels)
    {fields : List (String × Json)}
    (hcosts : fields.lookup "modelCosts" = if rule.modelCosts.isEmpty then none
      else some (rule.modelCosts.toJson RuleCostConfig.toJson))
    (hcost : fields.lookup "cost" = some rule.cost.toJson) :
    normalizedModelCosts rule.withNames.models fields =
      rule.modelCosts.entries.map fun entry => (entry.1, entry.2.toJson) := by
  have hentries : normalizedModelCostsEntries rule.withNames.models
      (fieldsOf (fields.lookup "modelCosts")) =
        rule.modelCosts.entries.map fun entry => (entry.1, entry.2.toJson) := by
    by_cases hempty : rule.modelCosts.isEmpty = true
    · rw [hcosts, if_pos hempty, List.isEmpty_iff.1 hempty]
      rfl
    · rw [hcosts, if_neg hempty]
      refine normalizedModelCostsEntries_eq_self (fun cost hmem => ?_) ?_
      · obtain ⟨entry, hentry, rfl⟩ := List.mem_map.1 hmem
        have hvalid := (hnormal.keys entry hentry).2
        have hname : entry.1 ∈ rule.withNames.models := validModels_withNames hmodels ▸ hvalid
        exact ⟨(hmodels.trimmed _ (List.mem_of_mem_filter hname)).2,
          (trimmed_of_mem_validModels hvalid).2, hname⟩
      · have hkeys : (fieldsOf (some (rule.modelCosts.toJson RuleCostConfig.toJson))).map Prod.fst =
            rule.modelCosts.entries.map Prod.fst := by
          show (rule.modelCosts.entries.map _).map Prod.fst = _
          rw [List.map_map]
          rfl
        rw [hkeys]
        exact rule.modelCosts.nodup
  rw [normalizedModelCosts, hentries, hcost, isMeaningfullyConfiguredLegacyCost_toJson]
  by_cases hempty : rule.modelCosts.isEmpty = true
  · -- a legacy cost that counts belongs to no model
    rw [List.isEmpty_iff.1 hempty, List.map_nil, if_neg (not_not.2 rfl)]
    by_cases hlegacy : AiOpenRouter.isMeaningfullyConfiguredLegacyCost rule.cost = true
    · rw [if_pos hlegacy, ← validModels_withNames hmodels, hnormal.legacy hempty hlegacy,
        List.map_nil]
    · rw [if_neg hlegacy]
  · refine if_pos fun hnil => hempty ?_
    rw [HashMap.isEmpty, List.map_eq_nil_iff.1 hnil]
    rfl

theorem normalizeProvider_toJson (hnormal : rule.IsNormal) (hmodels : rule.HasTrimmedModels) :
    normalizeProvider rule.toJson = rule.withNames.toJson := by
  have hnames : (fieldsOf (some rule.toJson)).lookup "models" =
      some (.arr (rule.models.map .str)) := rfl
  have hcost : (fieldsOf (some rule.toJson)).lookup "cost" = some rule.cost.toJson := by
    cases hdefault : rule.defaultModel <;> cases hmappings : rule.modelMappings <;>
      simp [fieldsOf, Rule.toJson, optionalField, hdefault, hmappings, List.lookup_cons]
  have hcosts : (fieldsOf (some rule.toJson)).lookup "modelCosts" =
      if rule.modelCosts.isEmpty then none
      else some (rule.modelCosts.toJson RuleCostConfig.toJson) := by
    cases hdefault : rule.defaultModel <;> cases hmappings : rule.modelMappings <;>
      by_cases hempty : rule.modelCosts.isEmpty = true <;>
      simp [fieldsOf, Rule.toJson, optionalField, hdefault, hmappings, List.lookup_cons, hempty]
  have hkept := normalizedModelCosts_toJson hnormal hmodels hcosts hcost
  unfold normalizeProvider
  dsimp only
  rw [hnames, trimAndDedupModels_toJson hmodels, hkept]
  by_cases hempty : rule.modelCosts.isEmpty = true
  · have hsame : rule.withNames.modelCosts.isEmpty = true := hempty
    rw [List.isEmpty_iff.1 hempty, List.map_nil, if_neg (not_not.2 rfl), Rule.toJson, Rule.toJson,
      if_pos hempty, if_pos hsame]
    cases hdefault : rule.defaultModel <;> cases hmappings : rule.modelMappings <;>
      simp [fieldsOf, Json.insertField, optionalField, Rule.withNames, hdefault, hmappings]
  · have hsame : ¬ rule.withNames.modelCosts.isEmpty = true := hempty
    have hne : rule.modelCosts.entries.map (fun entry => (entry.1, entry.2.toJson)) ≠ [] :=
      fun hnil => hempty (by rw [HashMap.isEmpty, List.map_eq_nil_iff.1 hnil]; rfl)
    rw [if_pos hne, Rule.toJson, Rule.toJson, if_neg hempty, if_neg hsame]
    cases hdefault : rule.defaultModel <;> cases hmappings : rule.modelMappings <;>
      simp [fieldsOf, Json.insertField, optionalField, Rule.withNames, hdefault, hmappings,
        HashMap.toJson]

theorem providerMap_toJson (normalize : Json → Json) {rules : List Rule}
    (hnodup : (rules.map Rule.id).Nodup) :
    providerMap normalize (rules.map Rule.toJson) =
      (rules.filter (jsTrim ·.id ≠ "")).map fun rule => (rule.id, normalize rule.toJson) := by
  unfold providerMap
  induction rules using List.reverseRecOn with
  | nil => rfl
  | append_singleton rules rule ih =>
    rw [List.map_append, List.map_singleton, ← List.concat_eq_append, List.nodup_concat] at hnodup
    have hid : rule.toJson.getStr "id" = some rule.id := rfl
    rw [List.map_append, List.foldl_append, ih hnodup.2, List.map_singleton, List.foldl_cons,
      List.foldl_nil, List.filter_append, List.map_append, hid]
    dsimp only
    by_cases hblank : jsTrim rule.id = ""
    · rw [if_pos hblank, List.filter_cons_of_neg (by simp [hblank]), List.filter_nil, List.map_nil,
        List.append_nil]
    · have hnew : ¬ ((rules.filter (jsTrim ·.id ≠ "")).map
          fun rule => (rule.id, normalize rule.toJson)).any (fun field => field.1 = rule.id) =
            true := by
        intro hany
        obtain ⟨field, hfield, hkey⟩ := List.any_eq_true.1 hany
        obtain ⟨other, hother, rfl⟩ := List.mem_map.1 hfield
        exact hnodup.1 (List.mem_map.2
          ⟨other, List.mem_of_mem_filter hother, of_decide_eq_true hkey⟩)
      rw [if_neg hblank, Json.insertField, if_neg hnew, List.filter_cons_of_pos (by simp [hblank]),
        List.filter_nil, List.map_singleton]

end Renderer

/-! ### What the renderer makes of a configuration -/

def Group.rendered (group : Group) : Group :=
  { group with
    models := none, providerIds := none, activeProviderId := none, providers := none
    failover := some (group.failover.getD defaultGroupFailoverConfig) }

def ProxyConfig.rendered (config : ProxyConfig) : ProxyConfig :=
  { config with
    providers := (config.providers.filter (jsTrim ·.id ≠ "")).map Rule.withNames
    groups := config.groups.map Group.rendered }

theorem filter_rendered :
    config.rendered.providers.filter (jsTrim ·.id ≠ "") = config.rendered.providers := by
  refine List.filter_eq_self.2 fun rule hmem => ?_
  obtain ⟨source, hsource, rfl⟩ := List.mem_map.1 hmem
  exact (List.mem_filter.1 hsource).2

theorem map_rendered : config.rendered.groups.map Group.rendered = config.rendered.groups := by
  refine (List.map_congr_left fun group hmem => ?_).trans (List.map_id _)
  obtain ⟨source, -, rfl⟩ := List.mem_map.1 hmem
  rfl

theorem ProxyConfig.rendered_rendered : config.rendered.rendered = config.rendered := by
  have hnames : ∀ rule : Rule, rule.withNames.withNames = rule.withNames := by
    intro rule
    rw [Rule.withNames, Rule.withNames]
    dsimp only
    rw [List.filter_filter]
    simp only [Bool.and_self]
  have hproviders : (config.rendered.providers.filter (jsTrim ·.id ≠ "")).map Rule.withNames =
      config.rendered.providers := by
    rw [filter_rendered]
    refine (List.map_congr_left fun rule hmem => ?_).trans (List.map_id _)
    obtain ⟨source, -, rfl⟩ := List.mem_map.1 hmem
    exact hnames source
  rw [ProxyConfig.rendered, hproviders, map_rendered]

theorem sublist_id_rendered (f : String → String) (config : ProxyConfig) :
    (config.rendered.providers.map fun rule => f rule.id).Sublist
      (config.providers.map fun rule => f rule.id) := by
  have hmap : config.rendered.providers.map (fun rule => f rule.id) =
      (config.providers.filter (jsTrim ·.id ≠ "")).map fun rule => f rule.id := by
    rw [ProxyConfig.rendered]
    dsimp only
    rw [List.map_map]
    rfl
  rw [hmap]
  exact List.filter_sublist.map _

theorem nodup_id_rendered {config : ProxyConfig} (h : (config.providers.map Rule.id).Nodup) :
    (config.rendered.providers.map Rule.id).Nodup :=
  h.sublist (sublist_id_rendered id config)

structure ShowsConfig (config : ProxyConfig) (fields : List (String × Json)) : Prop where
  nodup : (fields.map Prod.fst).Nodup
  configVersion : fields.lookup "configVersion" = some (.int config.configVersion.toNat)
  server : fields.lookup "server" = some config.server.toJson
  compat : fields.lookup "compat" = some config.compat.toJson
  logging : fields.lookup "logging" = some config.logging.toJson
  ui : fields.lookup "ui" = some config.ui.toJson
  remoteGit : fields.lookup "remoteGit" = some config.remoteGit.toJson
  providers : fields.lookup "providers" = some (.arr (config.providers.map Rule.toJson))
  groups : fields.lookup "groups" = some (.arr (config.groups.map Group.toJson))

theorem shows_toJson : ShowsConfig config config.jsonFields := by
  refine ⟨?_, rfl, rfl, rfl, rfl, rfl, rfl, rfl, rfl⟩
  show ["configVersion", "server", "compat", "logging", "ui", "remoteGit", "providers",
    "groups"].Nodup
  decide

namespace Renderer

/-- **A group in the renderer** has no retired fields. -/
theorem normalizeGroup_toJson (group : Group) :
    normalizeGroup group.toJson = group.rendered.toJson := by
  have hfailover : group.toJson.get "failover" = group.failover.map GroupFailoverConfig.toJson := by
    simp [Group.toJson, Json.get, List.lookup_append, Decode.lookup_optionalField, List.lookup_cons]
  have hkept : normalizeGroupFailoverConfig (group.failover.map GroupFailoverConfig.toJson) =
      (group.failover.getD defaultGroupFailoverConfig).toJson := by
    cases group.failover <;> rfl
  have hid : group.toJson.get "id" = some (.str group.id) := rfl
  have hname : group.toJson.get "name" = some (.str group.name) := rfl
  have htable : group.toJson.get "routingTable" =
      some (.arr (group.routingTable.map RouteEntry.toJson)) := rfl
  rw [normalizeGroup, hid, hname, htable, hfailover, hkept]
  rfl

theorem map_normalizeGroup (groups : List Group) :
    (groups.map Group.toJson).map normalizeGroup =
      (groups.map Group.rendered).map Group.toJson := by
  rw [List.map_map, List.map_map]
  exact List.map_congr_left fun group _ => normalizeGroup_toJson group

section Config

variable {config : ProxyConfig} {fields : List (String × Json)}

/-- The fields of the printed settings, over their defaults, are these fields. -/
theorem partOf_eq (h : ShowsConfig config fields) :
    partOf fields "server" = fieldsOf (some config.server.toJson) ∧
      partOf fields "compat" = fieldsOf (some config.compat.toJson) ∧
      partOf fields "logging" = fieldsOf (some config.logging.toJson) ∧
      partOf fields "ui" = fieldsOf (some config.ui.toJson) ∧
      partOf fields "remoteGit" = fieldsOf (some config.remoteGit.toJson) := by
  unfold partOf
  rw [h.server, h.compat, h.logging, h.ui, h.remoteGit]
  refine ⟨spread_eq_changes rfl ?_, spread_eq_changes rfl ?_, spread_eq_changes rfl ?_,
    spread_eq_changes rfl ?_, spread_eq_changes rfl ?_⟩
  · show ["host", "port", "authEnabled", "localBearerToken"].Nodup
    decide
  · show ["strictMode", "textToolCallFallbackEnabled", "headerPassthroughEnabled"].Nodup
    decide
  · show ["captureBody"].Nodup
    decide
  · show ["theme", "locale", "localeMode", "launchOnStartup", "autoStartServer", "closeToTray",
      "quotaAutoRefreshMinutes", "autoUpdateEnabled"].Nodup
    decide
  · show ["enabled", "repoUrl", "token", "branch"].Nodup
    decide

theorem withTrue_eq_self {part : List (String × Json)} {keys : List String}
    (hnodup : (part.map Prod.fst).Nodup)
    (h : ∀ key ∈ keys, ∃ b, part.lookup key = some (.bool b)) : withTrue part keys = part := by
  unfold withTrue
  have hfields : ∀ field ∈ keys.map fun key => (key, nullish (part.lookup key) (.bool true)),
      part.lookup field.1 = some field.2 := by
    intro field hmem
    obtain ⟨key, hkey, rfl⟩ := List.mem_map.1 hmem
    obtain ⟨b, hb⟩ := h key hkey
    dsimp only
    rw [hb]
    rfl
  exact spread_eq_self hnodup hfields

theorem shows_safeConfig (h : ShowsConfig config fields) :
    ShowsConfig config (safeConfig fields) := by
  have hdefaults : ShowsConfig config (spread createDefaultConfig fields) := by
    have hlookup : ∀ {key : String} {value : Json}, fields.lookup key = some value →
        (spread createDefaultConfig fields).lookup key = some value := by
      intro key value hkey
      rw [lookup_spread h.nodup, hkey]
      rfl
    refine ⟨nodup_spread ?_ fields, hlookup h.configVersion, hlookup h.server, hlookup h.compat,
      hlookup h.logging, hlookup h.ui, hlookup h.remoteGit, hlookup h.providers, hlookup h.groups⟩
    show ["server", "compat", "logging", "ui", "remoteGit", "providers", "groups"].Nodup
    decide
  have hproviders : Json.arr (itemsOf (fields.lookup "providers")) =
      .arr (config.providers.map Rule.toJson) := by
    rw [h.providers]
    rfl
  have hgroups : Json.arr (itemsOf (fields.lookup "groups")) =
      .arr (config.groups.map Group.toJson) := by
    rw [h.groups]
    rfl
  obtain ⟨hserver, hcompat, hlogging, hui, hremote⟩ := partOf_eq h
  have hself : safeConfig fields = spread createDefaultConfig fields := by
    refine spread_eq_self hdefaults.nodup fun field hmem => ?_
    rw [hserver, hcompat, hlogging, hui, hremote, hproviders, hgroups] at hmem
    simp only [List.mem_cons, List.not_mem_nil, or_false] at hmem
    rcases hmem with rfl | rfl | rfl | rfl | rfl | rfl | rfl
    · exact hdefaults.server
    · exact hdefaults.compat
    · exact hdefaults.logging
    · exact hdefaults.ui
    · exact hdefaults.remoteGit
    · exact hdefaults.providers
    · exact hdefaults.groups
  rw [hself]
  exact hdefaults

theorem withTrue_settings (config : ProxyConfig) :
    withTrue (fieldsOf (some config.ui.toJson)) ["autoUpdateEnabled"] =
        fieldsOf (some config.ui.toJson) ∧
      withTrue (fieldsOf (some config.compat.toJson))
        ["headerPassthroughEnabled", "textToolCallFallbackEnabled"] =
          fieldsOf (some config.compat.toJson) := by
  constructor
  · refine withTrue_eq_self ?_ fun key hmem => ?_
    · show ["theme", "locale", "localeMode", "launchOnStartup", "autoStartServer", "closeToTray",
        "quotaAutoRefreshMinutes", "autoUpdateEnabled"].Nodup
      decide
    · rw [List.mem_singleton.1 hmem]
      exact ⟨config.ui.autoUpdateEnabled, rfl⟩
  · refine withTrue_eq_self ?_ fun key hmem => ?_
    · show ["strictMode", "textToolCallFallbackEnabled", "headerPassthroughEnabled"].Nodup
      decide
    · rcases List.mem_pair.1 hmem with rfl | rfl
      · exact ⟨config.compat.headerPassthroughEnabled, rfl⟩
      · exact ⟨config.compat.textToolCallFallbackEnabled, rfl⟩

theorem ShowsConfig.replace {config' : ProxyConfig} {changes : List (String × Json)}
    (h : ShowsConfig config fields)
    (hsettings : config'.settings = config.settings) (hchanges : (changes.map Prod.fst).Nodup)
    (hparts : ∀ field ∈ changes, config'.jsonFields.lookup field.1 = some field.2)
    (hproviders : (changes.lookup "providers").isSome)
    (hgroups : (changes.lookup "groups").isSome) :
    ShowsConfig config' (spread fields changes) := by
  -- a changed field shows its new value, any other what it showed before
  have hlookup : ∀ {key : String} {value : Json}, config'.jsonFields.lookup key = some value →
      (changes.lookup key = none → fields.lookup key = some value) →
        (spread fields changes).lookup key = some value := by
    intro key value hvalue hkept
    rw [lookup_spread hchanges]
    cases hfound : changes.lookup key with
    | none => exact hkept hfound
    | some value' =>
      obtain ⟨before, after, heq, -⟩ := List.lookup_eq_some_iff.1 hfound
      have hmem : (key, value') ∈ changes := heq ▸ List.mem_append_right _ List.mem_cons_self
      exact (hparts _ hmem).symm.trans hvalue
  have hversion := congrArg ProxyConfig.configVersion hsettings
  have hserver := congrArg ProxyConfig.server hsettings
  have hcompat := congrArg ProxyConfig.compat hsettings
  have hlogging := congrArg ProxyConfig.logging hsettings
  have hui := congrArg ProxyConfig.ui hsettings
  have hremote := congrArg ProxyConfig.remoteGit hsettings
  dsimp only [ProxyConfig.settings] at hversion hserver hcompat hlogging hui hremote
  refine ⟨nodup_spread h.nodup _, hlookup rfl fun _ => ?_, hlookup rfl fun _ => ?_,
    hlookup rfl fun _ => ?_, hlookup rfl fun _ => ?_, hlookup rfl fun _ => ?_,
    hlookup rfl fun _ => ?_, hlookup rfl fun hnone => ?_, hlookup rfl fun hnone => ?_⟩
  · rw [hversion]
    exact h.configVersion
  · rw [hserver]
    exact h.server
  · rw [hcompat]
    exact h.compat
  · rw [hlogging]
    exact h.logging
  · rw [hui]
    exact h.ui
  · rw [hremote]
    exact h.remoteGit
  · rw [hnone] at hproviders
    cases hproviders
  · rw [hnone] at hgroups
    cases hgroups

theorem shows_normalizeConfig (h : ShowsConfig config fields)
    (hnodup : (config.providers.map Rule.id).Nodup)
    (hnormal : ∀ rule ∈ config.providers, rule.IsNormal)
    (hmodels : ∀ rule ∈ config.providers, rule.HasTrimmedModels) :
    ∃ fields', normalizeConfig (.obj fields) = .obj fields' ∧
      ShowsConfig config.rendered fields' := by
  have hproviders : (providerMap normalizeProvider (itemsOf (fields.lookup "providers"))).map
      Prod.snd = config.rendered.providers.map Rule.toJson := by
    have hitems : itemsOf (fields.lookup "providers") = config.providers.map Rule.toJson := by
      rw [h.providers]
      rfl
    rw [hitems, providerMap_toJson normalizeProvider hnodup, List.map_map, ProxyConfig.rendered]
    dsimp only
    rw [List.map_map]
    refine List.map_congr_left fun rule hmem => ?_
    have hrule := List.mem_of_mem_filter hmem
    exact normalizeProvider_toJson (hnormal rule hrule) (hmodels rule hrule)
  have hgroups : (itemsOf (fields.lookup "groups")).map normalizeGroup =
      config.rendered.groups.map Group.toJson := by
    rw [h.groups]
    exact map_normalizeGroup config.groups
  obtain ⟨-, hcompat, -, hui, -⟩ := partOf_eq h
  obtain ⟨huiTrue, hcompatTrue⟩ := withTrue_settings config
  have hshows : ShowsConfig config.rendered (spread (safeConfig fields)
      [("ui", config.ui.toJson), ("providers", .arr (config.rendered.providers.map Rule.toJson)),
        ("compat", config.compat.toJson),
        ("groups", .arr (config.rendered.groups.map Group.toJson))]) := by
    refine ShowsConfig.replace (shows_safeConfig h) rfl ?_ (fun field hmem => ?_) rfl rfl
    · show ["ui", "providers", "compat", "groups"].Nodup
      decide
    · simp only [List.mem_cons, List.not_mem_nil, or_false] at hmem
      rcases hmem with rfl | rfl | rfl | rfl <;> rfl
  refine ⟨_, ?_, hshows⟩
  unfold normalizeConfig
  dsimp only
  rw [hproviders, hgroups, hcompat, hui, huiTrue, hcompatTrue]
  rfl

/-- **What the renderer saves** of a configuration that it has normalised. -/
theorem shows_buildSaveConfigPayload (h : ShowsConfig config.rendered fields)
    (hnodup : (config.providers.map Rule.id).Nodup) :
    ∃ fields', buildSaveConfigPayload (.obj fields) = .obj fields' ∧
      ShowsConfig config.rendered fields' := by
  have hproviders : (providerMap id (itemsOf ((Json.obj fields).get "providers"))).map Prod.snd =
      config.rendered.providers.map Rule.toJson := by
    have hitems : itemsOf ((Json.obj fields).get "providers") =
        config.rendered.providers.map Rule.toJson := by
      rw [Json.get, h.providers]
      rfl
    rw [hitems, providerMap_toJson id (nodup_id_rendered hnodup), filter_rendered, List.map_map]
    rfl
  have hgroups : (itemsOf ((Json.obj fields).get "groups")).map normalizeGroup =
      config.rendered.groups.map Group.toJson := by
    have hitems : itemsOf ((Json.obj fields).get "groups") =
        config.rendered.groups.map Group.toJson := by
      rw [Json.get, h.groups]
      rfl
    rw [hitems, map_normalizeGroup, map_rendered]
  refine ⟨_, by rw [buildSaveConfigPayload, hproviders, hgroups], ?_⟩
  refine ShowsConfig.replace h rfl ?_ (fun field hmem => ?_) rfl rfl
  · show ["providers", "groups"].Nodup
    decide
  · rcases List.mem_pair.1 hmem with rfl | rfl <;> rfl

end Config

end Renderer

end AiOpenRouter
