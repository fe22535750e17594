/-
The printed form of groups and settings, and the readers of providers and groups
(`serde` on the configuration entities).

* `SameAs` compares entities by content, their hash maps in any order;
* `rule_toJson_read` and `group_toJson_read`: what is printed is read back.
-/
import AiOpenRouter.ConfigEntities
import AiOpenRouter.JsonReading
import AiOpenRouter.Sequences

namespace AiOpenRouter

/-! ### The printed form of groups and settings -/

/-- The printed form of a route. -/
def RouteEntry.toJson (entry : RouteEntry) : Json :=
  .obj [("requestModel", .str entry.requestModel), ("providerId", .str entry.providerId),
    ("targetModel", .str entry.targetModel)]

/-- The printed form of a failover configuration. -/
def GroupFailoverConfig.toJson (failover : GroupFailoverConfig) : Json :=
  .obj [("enabled", .bool failover.enabled),
    ("failureThreshold", .int failover.failureThreshold.toNat),
    ("cooldownSeconds", .int failover.cooldownSeconds.toNat)]

def strings (texts : List String) : Json := .arr (texts.map .str)

/-- The printed form of a group. -/
def Group.toJson (group : Group) : Json :=
  .obj ([("id", .str group.id), ("name", .str group.name),
      ("routingTable", .arr (group.routingTable.map RouteEntry.toJson))] ++
    optionalField "models" (group.models.map strings) ++
    optionalField "providerIds" (group.providerIds.map strings) ++
    optionalField "activeProviderId" (group.activeProviderId.map .str) ++
    optionalField "providers" (group.providers.map fun rules => .arr (rules.map Rule.toJson)) ++
    optionalField "failover" (group.failover.map GroupFailoverConfig.toJson))

/-- The printed form of the server settings. -/
def ServerConfig.toJson (server : ServerConfig) : Json :=
  .obj [("host", .str server.host), ("port", .int server.port.toNat),
    ("authEnabled", .bool server.authEnabled), ("localBearerToken", .str server.localBearerToken)]

/-- The printed form of the converter settings. -/
def CompatConfig.toJson (compat : CompatConfig) : Json :=
  .obj [("strictMode", .bool compat.strictMode),
    ("textToolCallFallbackEnabled", .bool compat.textToolCallFallbackEnabled),
    ("headerPassthroughEnabled", .bool compat.headerPassthroughEnabled)]

/-- The printed form of the logging settings. -/
def LoggingConfig.toJson (logging : LoggingConfig) : Json :=
  .obj [("captureBody", .bool logging.captureBody)]

/-- The printed form of the interface settings. -/
def UiConfig.toJson (ui : UiConfig) : Json :=
  .obj [("theme", .str ui.theme), ("locale", .str ui.locale), ("localeMode", .str ui.localeMode),
    ("launchOnStartup", .bool ui.launchOnStartup), ("autoStartServer", .bool ui.autoStartServer),
    ("closeToTray", .bool ui.closeToTray),
    ("quotaAutoRefreshMinutes", .int ui.quotaAutoRefreshMinutes.toNat),
    ("autoUpdateEnabled", .bool ui.autoUpdateEnabled)]

/-- The printed form of the repository settings. -/
def RemoteGitConfig.toJson (remote : RemoteGitConfig) : Json :=
  .obj [("enabled", .bool remote.enabled), ("repoUrl", .str remote.repoUrl),
    ("token", .str remote.token), ("branch", .str remote.branch)]

def ProxyConfig.jsonFields (config : ProxyConfig) : List (String × Json) :=
  [("configVersion", .int config.configVersion.toNat), ("server", config.server.toJson),
    ("compat", config.compat.toJson), ("logging", config.logging.toJson),
    ("ui", config.ui.toJson), ("remoteGit", config.remoteGit.toJson),
    ("providers", .arr (config.providers.map Rule.toJson)),
    ("groups", .arr (config.groups.map Group.toJson))]

/-- The printed form of a configuration. -/
def ProxyConfig.toJson (config : ProxyConfig) : Json := .obj config.jsonFields

/-! ### The same by content -/

def Rule.withoutMaps (rule : Rule) : Rule :=
  { rule with
    modelMappings := none
    quota := { rule.quota with customHeaders := HashMap.empty }
    modelCosts := HashMap.empty }

/-- The same provider, its hash maps in any order. -/
structure Rule.SameAs (rule rule' : Rule) : Prop where
  rest : rule.withoutMaps = rule'.withoutMaps
  modelMappings : Option.Rel HashMap.SameAs rule.modelMappings rule'.modelMappings
  customHeaders : rule.quota.customHeaders.SameAs rule'.quota.customHeaders
  modelCosts : rule.modelCosts.SameAs rule'.modelCosts

/-- The same group, with the same providers. -/
structure Group.SameAs (group group' : Group) : Prop where
  rest : { group with providers := none } = { group' with providers := none }
  providers : Option.Rel (List.Forall₂ Rule.SameAs) group.providers group'.providers

/-- The same configuration: the same settings, providers and groups. -/
structure ProxyConfig.SameAs (config config' : ProxyConfig) : Prop where
  settings : { config with providers := [], groups := [] } =
    { config' with providers := [], groups := [] }
  providers : List.Forall₂ Rule.SameAs config.providers config'.providers
  groups : List.Forall₂ Group.SameAs config.groups config'.groups

theorem rel_symm {α : Type} {R : α → α → Prop} (hR : ∀ x y, R x y → R y x) {a b : Option α}
    (h : Option.Rel R a b) : Option.Rel R b a := by
  cases h with
  | none => exact .none
  | some h => exact .some (hR _ _ h)

theorem rel_trans {α : Type} {R : α → α → Prop} (hR : ∀ x y z, R x y → R y z → R x z)
    {a b c : Option α} (h : Option.Rel R a b) (h' : Option.Rel R b c) : Option.Rel R a c := by
  cases h with
  | none => exact h'
  | some h =>
    cases h' with
    | some h' => exact .some (hR _ _ _ h h')

theorem forall₂_symm {α : Type} {R : α → α → Prop} (hR : ∀ x y, R x y → R y x) {xs ys : List α}
    (h : List.Forall₂ R xs ys) : List.Forall₂ R ys xs := h.flip.imp fun _ _ => hR _ _

theorem forall₂_trans {α : Type} {R : α → α → Prop} (hR : ∀ x y z, R x y → R y z → R x z)
    {xs ys zs : List α} (h : List.Forall₂ R xs ys) (h' : List.Forall₂ R ys zs) :
    List.Forall₂ R xs zs := by
  induction h generalizing zs with
  | nil => exact h'
  | cons hxy _ ih =>
    cases h' with
    | cons hyz h' => exact .cons (hR _ _ _ hxy hyz) (ih h')

theorem HashMap.SameAs.refl {α : Type} (m : HashMap α) : m.SameAs m := List.Perm.refl _

theorem Rule.SameAs.refl (rule : Rule) : rule.SameAs rule := by
  refine ⟨rfl, ?_, .refl _, .refl _⟩
  cases rule.modelMappings with
  | none => exact .none
  | some mappings => exact .some (.refl mappings)

theorem Rule.SameAs.symm {rule rule' : Rule} (h : rule.SameAs rule') : rule'.SameAs rule :=
  ⟨h.rest.symm, rel_symm (fun _ _ => .symm) h.modelMappings, h.customHeaders.symm,
    h.modelCosts.symm⟩

theorem Rule.SameAs.trans {rule rule' rule'' : Rule} (h : rule.SameAs rule')
    (h' : rule'.SameAs rule'') : rule.SameAs rule'' :=
  ⟨h.rest.trans h'.rest, rel_trans (fun _ _ _ => .trans) h.modelMappings h'.modelMappings,
    h.customHeaders.trans h'.customHeaders, h.modelCosts.trans h'.modelCosts⟩

theorem Rule.SameAs.id_eq {rule rule' : Rule} (h : rule.SameAs rule') : rule.id = rule'.id := by
  have hid := congrArg Rule.id h.rest
  exact hid

theorem Rule.SameAs.defaultModel_eq {rule rule' : Rule} (h : rule.SameAs rule') :
    rule.defaultModel = rule'.defaultModel := by
  have hmodel := congrArg Rule.defaultModel h.rest
  exact hmodel

theorem Rule.SameAs.models_eq {rule rule' : Rule} (h : rule.SameAs rule') :
    rule.models = rule'.models := by
  have hmodels := congrArg Rule.models h.rest
  exact hmodels

theorem Group.SameAs.refl (group : Group) : group.SameAs group := by
  refine ⟨rfl, ?_⟩
  cases group.providers with
  | none => exact .none
  | some rules => exact .some (List.forall₂_same.2 fun rule _ => .refl rule)

theorem Group.SameAs.symm {group group' : Group} (h : group.SameAs group') :
    group'.SameAs group :=
  ⟨h.rest.symm, rel_symm (fun _ _ => forall₂_symm fun _ _ => .symm) h.providers⟩

theorem Group.SameAs.trans {group group' group'' : Group} (h : group.SameAs group')
    (h' : group'.SameAs group'') : group.SameAs group'' :=
  ⟨h.rest.trans h'.rest,
    rel_trans (fun _ _ _ => forall₂_trans fun _ _ _ => .trans) h.providers h'.providers⟩

theorem ProxyConfig.SameAs.refl (config : ProxyConfig) : config.SameAs config :=
  ⟨rfl, List.forall₂_same.2 fun provider _ => .refl provider,
    List.forall₂_same.2 fun group _ => .refl group⟩

theorem map_id_of_sameAs {rules rules' : List Rule} (h : List.Forall₂ Rule.SameAs rules rules') :
    rules.map Rule.id = rules'.map Rule.id := by
  induction h with
  | nil => rfl
  | cons hsame _ ih => rw [List.map_cons, List.map_cons, hsame.id_eq, ih]

theorem exists_left_of_mem {α β : Type} {R : α → β → Prop} {xs : List α} {ys : List β}
    (h : List.Forall₂ R xs ys) {y : β} (hmem : y ∈ ys) : ∃ x ∈ xs, R x y :=
  exists_mem_of_forall₂ h.flip hmem

theorem Group.SameAs.providers_getD {group group' : Group} (h : group.SameAs group') :
    List.Forall₂ Rule.SameAs (group.providers.getD []) (group'.providers.getD []) := by
  have hrel := h.providers
  generalize group.providers = providers at hrel ⊢
  generalize group'.providers = providers' at hrel ⊢
  cases hrel with
  | none => exact .nil
  | some hsame => exact hsame

theorem Group.SameAs.providerIds_eq {group group' : Group} (h : group.SameAs group') :
    group.providerIds = group'.providerIds := by
  have hids := congrArg Group.providerIds h.rest
  exact hids

/-! ### The floats of a provider -/

section Floats

variable (f : String → String)

/-- A float changed. -/
def F64.map (x : F64) : F64 := ⟨f x.text⟩

def RuleQuotaConfig.mapFloats (quota : RuleQuotaConfig) : RuleQuotaConfig :=
  { quota with
    lowThresholdPercent := quota.lowThresholdPercent.map f
    response := { remaining := quota.response.remaining.mapFloats f
                  unit := quota.response.unit.mapFloats f
                  total := quota.response.total.mapFloats f
                  resetAt := quota.response.resetAt.mapFloats f } }

def RuleCostConfig.mapFloats (cost : RuleCostConfig) : RuleCostConfig :=
  { cost with
    inputPricePerM := cost.inputPricePerM.map f
    outputPricePerM := cost.outputPricePerM.map f
    cacheInputPricePerM := cost.cacheInputPricePerM.map f
    cacheOutputPricePerM := cost.cacheOutputPricePerM.map f }

def Rule.mapFloats (rule : Rule) : Rule :=
  { rule with
    quota := rule.quota.mapFloats f
    cost := rule.cost.mapFloats f
    modelCosts := rule.modelCosts.mapValues (RuleCostConfig.mapFloats f) }

theorem mapFloatsItems_str (texts : List String) :
    Json.mapFloatsItems f (texts.map .str) = texts.map .str := by
  rw [Json.mapFloatsItems_eq, List.map_map]
  rfl

theorem mapFloats_stringMap (m : HashMap String) : (m.toJson .str).mapFloats f = m.toJson .str := by
  rw [HashMap.toJson, Json.mapFloats, Json.mapFloatsFields_eq, List.map_map]
  rfl

theorem RuleQuotaConfig.toJson_mapFloats (quota : RuleQuotaConfig) :
    (quota.mapFloats f).toJson = quota.toJson.mapFloats f := by
  have hheaders := mapFloats_stringMap f quota.customHeaders
  have hunit : quota.unitType.toJson.mapFloats f = quota.unitType.toJson := by
    cases quota.unitType <;> rfl
  rw [RuleQuotaConfig.toJson, RuleQuotaConfig.toJson]
  simp only [Json.mapFloats, Json.mapFloatsFields, hheaders, hunit]
  rfl

theorem RuleCostConfig.toJson_mapFloats (cost : RuleCostConfig) :
    (cost.mapFloats f).toJson = cost.toJson.mapFloats f := by
  obtain ⟨enabled, input, output, cacheInput, cacheOutput, currency, template⟩ := cost
  cases template <;> rfl

theorem modelCosts_toJson_mapFloats (costs : HashMap RuleCostConfig) :
    (costs.mapValues (RuleCostConfig.mapFloats f)).toJson RuleCostConfig.toJson =
      (costs.toJson RuleCostConfig.toJson).mapFloats f := by
  rw [HashMap.toJson, HashMap.toJson, Json.mapFloats, Json.mapFloatsFields_eq, List.map_map,
    HashMap.mapValues, List.map_map]
  refine congrArg Json.obj (List.map_congr_left fun entry _ => ?_)
  exact congrArg (Prod.mk entry.1) (RuleCostConfig.toJson_mapFloats f entry.2)

theorem Rule.toJson_mapFloats (rule : Rule) :
    (rule.mapFloats f).toJson = rule.toJson.mapFloats f := by
  have hprotocol : rule.protocol.toJson.mapFloats f = rule.protocol.toJson := by
    cases rule.protocol <;> rfl
  have hdefault : (optionalField "defaultModel" (rule.defaultModel.map .str)).map
      (fun field => (field.1, field.2.mapFloats f)) =
        optionalField "defaultModel" (rule.defaultModel.map .str) := by
    cases rule.defaultModel <;> rfl
  have hmappings :
      (optionalField "modelMappings" (rule.modelMappings.map fun m => m.toJson .str)).map
      (fun field => (field.1, field.2.mapFloats f)) =
        optionalField "modelMappings" (rule.modelMappings.map fun m => m.toJson .str) := by
    cases rule.modelMappings with
    | none => rfl
    | some m => exact congrArg (fun value => [("modelMappings", value)]) (mapFloats_stringMap f m)
  have hempty : (rule.modelCosts.mapValues (RuleCostConfig.mapFloats f)).isEmpty =
      rule.modelCosts.isEmpty := by
    rw [HashMap.isEmpty, HashMap.isEmpty, HashMap.mapValues, List.isEmpty_map]
  have hcosts : (if rule.modelCosts.isEmpty then []
      else [("modelCosts", rule.modelCosts.toJson RuleCostConfig.toJson)]).map
        (fun field => (field.1, field.2.mapFloats f)) =
      if rule.modelCosts.isEmpty then []
      else [("modelCosts", (rule.modelCosts.mapValues (RuleCostConfig.mapFloats f)).toJson
        RuleCostConfig.toJson)] := by
    rw [modelCosts_toJson_mapFloats]
    split_ifs <;> rfl
  rw [Rule.toJson, Rule.toJson, Json.mapFloats, Json.mapFloatsFields_eq]
  simp only [List.map_append, hdefault, hmappings, hcosts, List.map_cons, List.map_nil,
    Json.mapFloats, mapFloatsItems_str, hprotocol, ← RuleQuotaConfig.toJson_mapFloats,
    ← RuleCostConfig.toJson_mapFloats]
  simp only [Rule.mapFloats, hempty]

/-- **A provider whose floats are changed, and that stays the same, prints the same.** -/
theorem Rule.toJson_of_mapFloats_sameAs {rule : Rule} (h : (rule.mapFloats f).SameAs rule) :
    rule.toJson.mapFloats f = rule.toJson := by
  have hcosts : (rule.modelCosts.mapValues (RuleCostConfig.mapFloats f)) = rule.modelCosts := by
    refine HashMap.eq_of_entries_eq ?_
    rw [HashMap.mapValues]
    refine (List.map_congr_left fun entry hmem => ?_).trans (List.map_id _)
    rw [HashMap.eq_of_mapValues_sameAs h.modelCosts hmem]
    rfl
  have hsame : rule.mapFloats f = rule := by
    have hquota := congrArg Rule.quota h.rest
    have hcost : rule.cost.mapFloats f = rule.cost := congrArg Rule.cost h.rest
    have hlow : rule.quota.lowThresholdPercent.map f = rule.quota.lowThresholdPercent :=
      congrArg RuleQuotaConfig.lowThresholdPercent hquota
    have hresponse : (rule.quota.mapFloats f).response = rule.quota.response := by
      have hparts := congrArg RuleQuotaConfig.response hquota
      exact hparts
    have hmapped : rule.quota.mapFloats f = rule.quota := by
      have heq : rule.quota.mapFloats f = { rule.quota with
        lowThresholdPercent := rule.quota.lowThresholdPercent.map f
        response := (rule.quota.mapFloats f).response } := rfl
      rw [heq, hlow, hresponse]
    rw [Rule.mapFloats, hcosts, hcost, hmapped]
  rw [← Rule.toJson_mapFloats, hsame]

end Floats

/-! ### Printed values in the order of a reader -/

def Rule.readAt (env : ReadEnv) (place : List ℕ) (rule : Rule) : Rule :=
  { rule with
    modelMappings := rule.modelMappings.map (env.order (0 :: place))
    quota := { rule.quota with customHeaders := env.order (1 :: place) rule.quota.customHeaders }
    modelCosts := if rule.modelCosts.isEmpty then HashMap.empty
      else env.order (2 :: place) rule.modelCosts }

def Group.readAt (env : ReadEnv) (place : List ℕ) (group : Group) : Group :=
  { group with
    providers := group.providers.map fun rules =>
      rules.mapIdx fun i rule => rule.readAt env (i :: place) }

theorem Rule.readAt_sameAs (env : ReadEnv) (place : List ℕ) (rule : Rule) :
    (rule.readAt env place).SameAs rule := by
  have hmappings : Option.Rel HashMap.SameAs (rule.modelMappings.map (env.order (0 :: place)))
      rule.modelMappings := by
    cases rule.modelMappings with
    | none => exact .none
    | some m => exact .some (env.order_sameAs _ m)
  have hcosts : (if rule.modelCosts.isEmpty then HashMap.empty
      else env.order (2 :: place) rule.modelCosts).SameAs rule.modelCosts := by
    by_cases hempty : rule.modelCosts.isEmpty = true
    · rw [if_pos hempty, HashMap.SameAs, List.isEmpty_iff.1 hempty]
      exact List.Perm.refl _
    · rw [if_neg hempty]
      exact env.order_sameAs _ rule.modelCosts
  exact ⟨rfl, hmappings, env.order_sameAs _ _, hcosts⟩

theorem forall₂_mapIdx {α β : Type} {R : β → α → Prop} {f : ℕ → α → β} (h : ∀ i x, R (f i x) x)
    (xs : List α) : List.Forall₂ R (xs.mapIdx f) xs := by
  induction xs generalizing f with
  | nil => exact .nil
  | cons x xs ih =>
    rw [List.mapIdx_cons]
    exact .cons (h 0 x) (ih fun i y => h (i + 1) y)

theorem Group.readAt_sameAs (env : ReadEnv) (place : List ℕ) (group : Group) :
    (group.readAt env place).SameAs group := by
  refine ⟨rfl, ?_⟩
  show Option.Rel _ (group.providers.map _) group.providers
  cases group.providers with
  | none => exact .none
  | some rules => exact .some (forall₂_mapIdx (fun i rule => rule.readAt_sameAs env _) rules)

/-! ### Readers -/

namespace Decode

section Readers

variable (env : ReadEnv)

/-- An `f64` field. -/
def f64 : Option Json → Option F64
  | some (.num (.float text)) => some ⟨text⟩
  | some (.num (.int n)) => some ⟨env.floatOfInt n⟩
  | _ => none

/-- `RuleProtocol`. -/
def ruleProtocol (value : Option Json) : Option RuleProtocol :=
  (unitVariant value).bind fun name =>
    if name = "openai" then some .openai
    else if name = "openai_completion" ∨ name = "openaiCompletion" ∨ name = "openai-completion" then
      some .openaiCompletion
    else if name = "anthropic" then some .anthropic
    else none

/-- `QuotaUnitType`. -/
def quotaUnitType (value : Option Json) : Option QuotaUnitType :=
  (unitVariant value).bind fun name =>
    if name = "percentage" then some .percentage
    else if name = "amount" then some .amount
    else if name = "tokens" then some .tokens
    else none

/-- `RuleQuotaResponseMapping`. -/
def ruleQuotaResponseMapping : Option Json → Option RuleQuotaResponseMapping
  | some json =>
    match structFields [("remaining", true), ("unit", true), ("total", true), ("resetAt", true)]
        json with
    | some [remaining, unit, total, resetAt] => do
      return { remaining := ← withDefault .null id remaining, unit := ← withDefault .null id unit
               total := ← withDefault .null id total, resetAt := ← withDefault .null id resetAt }
    | _ => none
  | none => none

/-- `RuleQuotaConfig`. -/
def ruleQuotaConfig (place : List ℕ) : Option Json → Option RuleQuotaConfig
  | some json =>
    match structFields [("enabled", false), ("provider", false), ("endpoint", false),
        ("method", true), ("useRuleToken", true), ("customToken", true), ("authHeader", true),
        ("authScheme", true), ("customHeaders", true), ("unitType", true),
        ("lowThresholdPercent", true), ("response", true)] json with
    | some [enabled, provider, endpoint, method, useRuleToken, customToken, authHeader, authScheme,
        customHeaders, unitType, lowThresholdPercent, response] => do
      return { enabled := ← bool enabled, provider := ← string provider
               endpoint := ← string endpoint, method := ← withDefault "GET" string method
               useRuleToken := ← withDefault true bool useRuleToken
               customToken := ← withDefault "" string customToken
               authHeader := ← withDefault "Authorization" string authHeader
               authScheme := ← withDefault "Bearer" string authScheme
               customHeaders := ← withDefault HashMap.empty (hashMap (env.order place) string)
                 customHeaders
               unitType := ← withDefault .percentage quotaUnitType unitType
               lowThresholdPercent := ← withDefault ⟨"10.0"⟩ (f64 env) lowThresholdPercent
               response := ← withDefault {} ruleQuotaResponseMapping response }
    | _ => none
  | none => none

/-- `BillingTemplateAttribution`. -/
def billingTemplateAttribution : Option Json → Option BillingTemplateAttribution
  | some json =>
    match structFields [("vendorId", false), ("vendorLabel", false), ("modelId", false),
        ("modelLabel", false), ("sourceUrl", false), ("verifiedAt", false), ("appliedAt", false),
        ("modifiedAfterApply", true)] json with
    | some [vendorId, vendorLabel, modelId, modelLabel, sourceUrl, verifiedAt, appliedAt,
        modifiedAfterApply] => do
      return { vendorId := ← string vendorId, vendorLabel := ← string vendorLabel
               modelId := ← string modelId, modelLabel := ← string modelLabel
               sourceUrl := ← string sourceUrl, verifiedAt := ← string verifiedAt
               appliedAt := ← string appliedAt
               modifiedAfterApply := ← withDefault false bool modifiedAfterApply }
    | _ => none
  | none => none

/-- `RuleCostConfig`. -/
def ruleCostConfig : Option Json → Option RuleCostConfig
  | some json =>
    match structFields [("enabled", true), ("inputPricePerM", true), ("outputPricePerM", true),
        ("cacheInputPricePerM", true), ("cacheOutputPricePerM", true), ("currency", true),
        ("template", true)] json with
    | some [enabled, input, output, cacheInput, cacheOutput, currency, template] => do
      return { enabled := ← withDefault false bool enabled
               inputPricePerM := ← withDefault ⟨"0.0"⟩ (f64 env) input
               outputPricePerM := ← withDefault ⟨"0.0"⟩ (f64 env) output
               cacheInputPricePerM := ← withDefault ⟨"0.0"⟩ (f64 env) cacheInput
               cacheOutputPricePerM := ← withDefault ⟨"0.0"⟩ (f64 env) cacheOutput
               currency := ← withDefault "USD" string currency
               template := ← optional billingTemplateAttribution template }
    | _ => none
  | none => none

/-- `Rule`. -/
def rule (place : List ℕ) : Option Json → Option Rule
  | some json =>
    match structFields [("id", false), ("name", false), ("protocol", false), ("token", false),
        ("apiAddress", false), ("website", true), ("models", true), ("defaultModel", false),
        ("modelMappings", true), ("headerPassthroughAllow", true),
        ("headerPassthroughDeny", true), ("quota", true), ("cost", true), ("modelCosts", true)]
        json with
    | some [id, name, protocol, token, apiAddress, website, models, defaultModel, modelMappings,
        headerPassthroughAllow, headerPassthroughDeny, quota, cost, modelCosts] => do
      return { id := ← string id, name := ← string name, protocol := ← ruleProtocol protocol
               token := ← string token, apiAddress := ← string apiAddress
               website := ← withDefault "" string website
               models := ← withDefault [] (list string) models
               defaultModel := ← optional string defaultModel
               modelMappings := ← optional (hashMap (env.order (0 :: place)) string) modelMappings
               headerPassthroughAllow := ← withDefault [] (list string) headerPassthroughAllow
               headerPassthroughDeny := ← withDefault [] (list string) headerPassthroughDeny
               quota := ← withDefault defaultRuleQuotaConfig (ruleQuotaConfig env (1 :: place))
                 quota
               cost := ← withDefault defaultRuleCostConfig (ruleCostConfig env) cost
               modelCosts := ← withDefault HashMap.empty
                 (hashMap (env.order (2 :: place)) (ruleCostConfig env)) modelCosts }
    | _ => none
  | none => none

/-- `RouteEntry`. -/
def routeEntry : Option Json → Option RouteEntry
  | some json =>
    match structFields [("requestModel", false), ("providerId", false), ("targetModel", false)]
        json with
    | some [requestModel, providerId, targetModel] => do
      return { requestModel := ← string requestModel, providerId := ← string providerId
               targetModel := ← string targetModel }
    | _ => none
  | none => none

/-- `GroupFailoverConfig`. -/
def groupFailoverConfig : Option Json → Option GroupFailoverConfig
  | some json =>
    match structFields [("enabled", true), ("failureThreshold", true), ("cooldownSeconds", true)]
        json with
    | some [enabled, failureThreshold, cooldownSeconds] => do
      return { enabled := ← withDefault false bool enabled
               failureThreshold := ← withDefault 3 u32 failureThreshold
               cooldownSeconds := ← withDefault 300 u32 cooldownSeconds }
    | _ => none
  | none => none

def renameField (other name : String) : Json → Option Json
  | .obj entries =>
    if (entries.lookup other).isSome ∧ (entries.lookup name).isSome then none
    else some (.obj (entries.map fun entry => if entry.1 = other then (name, entry.2) else entry))
  | json => some json

/-- `Group`. -/
def group (place : List ℕ) : Option Json → Option Group
  | some json =>
    match (renameField "activeRuleId" "activeProviderId" json).bind
        (structFields [("id", false), ("name", false), ("routingTable", true), ("models", false),
          ("providerIds", false), ("activeProviderId", false), ("providers", true),
          ("failover", false)]) with
    | some [id, name, routingTable, models, providerIds, activeProviderId, providers,
      failover] => do
      return { id := ← string id, name := ← string name
               routingTable := ← withDefault [] (list routeEntry) routingTable
               models := ← optional (list string) models
               providerIds := ← optional (list string) providerIds
               activeProviderId := ← optional string activeProviderId
               providers := ← optional (listAt fun i => rule env (i :: place)) providers
               failover := ← optional groupFailoverConfig failover }
    | _ => none
  | none => none

end Readers

/-! ### What is printed is read back -/

theorem mapM_map_eq_some {α β : Type} {decode : β → Option α} {toJson : α → β} {xs : List α}
    (h : ∀ x ∈ xs, decode (toJson x) = some x) : (xs.map toJson).mapM decode = some xs := by
  induction xs with
  | nil => rfl
  | cons x xs ih =>
    rw [List.map_cons, List.mapM_cons, h x List.mem_cons_self,
      ih fun y hy => h y (List.mem_cons_of_mem _ hy)]
    rfl

theorem list_string (texts : List String) : list string (some (strings texts)) = some texts :=
  mapM_map_eq_some fun _ _ => rfl

theorem optional_of_ne_null {α : Type} (decode : Option Json → Option α) {value : Json}
    (h : value ≠ .null) : optional decode (some value) = (decode (some value)).map some := by
  cases value with
  | null => exact absurd rfl h
  | _ => rfl

theorem optional_map {α : Type} {decode : Option Json → Option α} {toJson : α → Json}
    {value : Option α} (hnull : ∀ x, toJson x ≠ .null)
    (h : ∀ x ∈ value, decode (some (toJson x)) = some x) :
    optional decode (value.map toJson) = some value := by
  cases value with
  | none => rfl
  | some x =>
    rw [Option.map_some, optional_of_ne_null decode (hnull x), h x rfl]
    rfl

theorem hashMap_toJson {α : Type} {order : HashMap α → HashMap α}
    {decode : Option Json → Option α} {toJson : α → Json} {m : HashMap α}
    (h : ∀ x, decode (some (toJson x)) = some x) :
    hashMap order decode (some (m.toJson toJson)) = some (order m) := by
  have hentries : (m.entries.map fun entry => (entry.1, toJson entry.2)).mapM
      (fun field => (decode (some field.2)).map (Prod.mk field.1)) = some m.entries :=
    mapM_map_eq_some fun entry _ => by rw [h]; rfl
  rw [HashMap.toJson, hashMap, hentries, Option.map_some, m.ofEntries_entries]

theorem u32_toNat (n : UInt32) : u32 (some (.int n.toNat)) = some n := by
  have hlt : n.toNat < 4294967296 := n.toNat_lt
  have hle : (0 : ℤ) ≤ n.toNat ∧ (n.toNat : ℤ) ≤ 4294967295 := by omega
  rw [u32, Json.int, integer, if_pos hle, Option.map_some, Int.toNat_natCast, UInt32.ofNat_toNat]

theorem u16_toNat (n : UInt16) : u16 (some (.int n.toNat)) = some n := by
  have hlt : n.toNat < 65536 := n.toNat_lt
  have hle : (0 : ℤ) ≤ n.toNat ∧ (n.toNat : ℤ) ≤ 65535 := by omega
  rw [u16, Json.int, integer, if_pos hle, Option.map_some, Int.toNat_natCast, UInt16.ofNat_toNat]

theorem ruleProtocol_toJson (protocol : RuleProtocol) :
    ruleProtocol (some protocol.toJson) = some protocol := by cases protocol <;> rfl

theorem quotaUnitType_toJson (unitType : QuotaUnitType) :
    quotaUnitType (some unitType.toJson) = some unitType := by cases unitType <;> rfl

section

variable (env : ReadEnv)

theorem ruleCostConfig_toJson (cost : RuleCostConfig) :
    ruleCostConfig env (some cost.toJson) = some cost := by
  obtain ⟨enabled, input, output, cacheInput, cacheOutput, currency, template⟩ := cost
  cases template with
  | none => rfl
  | some template => rfl

theorem ruleQuotaConfig_toJson (place : List ℕ) (quota : RuleQuotaConfig) :
    ruleQuotaConfig env place (some quota.toJson) =
      some { quota with customHeaders := env.order place quota.customHeaders } := by
  have hheaders : hashMap (env.order place) string (some (quota.customHeaders.toJson .str)) =
      some (env.order place quota.customHeaders) := hashMap_toJson fun _ => rfl
  have hunit := quotaUnitType_toJson quota.unitType
  show (do
    let customHeaders ← hashMap (env.order place) string (some (quota.customHeaders.toJson .str))
    let unitType ← quotaUnitType (some quota.unitType.toJson)
    return { quota with customHeaders := customHeaders, unitType := unitType }) = _
  rw [hheaders, hunit]
  rfl

theorem modelMappings_toJson (place : List ℕ) (mappings : Option (HashMap String)) :
    optional (hashMap (env.order place) string) (mappings.map fun m => m.toJson .str) =
      some (mappings.map (env.order place)) := by
  cases mappings with
  | none => rfl
  | some m =>
    have hread : hashMap (env.order place) string (some (m.toJson .str)) =
        some (env.order place m) := hashMap_toJson fun _ => rfl
    have hnull : m.toJson .str ≠ .null := fun h => by rw [HashMap.toJson] at h; cases h
    rw [Option.map_some, optional_of_ne_null _ hnull, hread]
    rfl

theorem modelCosts_toJson (place : List ℕ) (costs : HashMap RuleCostConfig) :
    withDefault HashMap.empty (hashMap (env.order place) (ruleCostConfig env))
        (if costs.isEmpty then none else some (costs.toJson RuleCostConfig.toJson)) =
      some (if costs.isEmpty then HashMap.empty else env.order place costs) := by
  by_cases hempty : costs.isEmpty = true
  · rw [if_pos hempty, if_pos hempty]
    rfl
  · rw [if_neg hempty, if_neg hempty]
    exact hashMap_toJson (ruleCostConfig_toJson env)

theorem rule_toJson_eq (place : List ℕ) (value : Rule) :
    rule env place (some value.toJson) = (do
      let protocol ← ruleProtocol (some value.protocol.toJson)
      let models ← list string (some (strings value.models))
      let defaultModel ← optional string (value.defaultModel.map .str)
      let modelMappings ← optional (hashMap (env.order (0 :: place)) string)
        (value.modelMappings.map fun m => m.toJson .str)
      let allow ← list string (some (strings value.headerPassthroughAllow))
      let deny ← list string (some (strings value.headerPassthroughDeny))
      let quota ← ruleQuotaConfig env (1 :: place) (some value.quota.toJson)
      let cost ← ruleCostConfig env (some value.cost.toJson)
      let modelCosts ← withDefault HashMap.empty
        (hashMap (env.order (2 :: place)) (ruleCostConfig env))
        (if value.modelCosts.isEmpty then none
          else some (value.modelCosts.toJson RuleCostConfig.toJson))
      return { value with
        protocol := protocol, models := models, defaultModel := defaultModel
        modelMappings := modelMappings, headerPassthroughAllow := allow
        headerPassthroughDeny := deny, quota := quota, cost := cost
        modelCosts := modelCosts }) := by
  unfold Rule.toJson
  by_cases hempty : value.modelCosts.isEmpty = true
  · rw [if_pos hempty, if_pos hempty]
    cases value.defaultModel <;> cases value.modelMappings <;> rfl
  · rw [if_neg hempty, if_neg hempty]
    cases value.defaultModel <;> cases value.modelMappings <;> rfl

/-- A printed provider is read back, with its hash maps in the order of the reader. -/
theorem rule_toJson_read (place : List ℕ) (value : Rule) :
    rule env place (some value.toJson) = some (value.readAt env place) := by
  have hdefault : optional string (value.defaultModel.map .str) = some value.defaultModel :=
    optional_map (fun _ h => nomatch h) fun _ _ => rfl
  rw [rule_toJson_eq, ruleProtocol_toJson, list_string, hdefault, modelMappings_toJson,
    list_string, list_string, ruleQuotaConfig_toJson, ruleCostConfig_toJson, modelCosts_toJson]
  rfl

/-- **A printed provider is read back, its hash maps in any order.** -/
theorem rule_toJson (place : List ℕ) (value : Rule) :
    ∃ value', rule env place (some value.toJson) = some value' ∧ value'.SameAs value :=
  ⟨_, rule_toJson_read env place value, value.readAt_sameAs env place⟩

theorem listAt_mapIdx {α : Type} {decode : ℕ → Option Json → Option α} {toJson : α → Json}
    {f : ℕ → α → α} (h : ∀ i x, decode i (some (toJson x)) = some (f i x)) (xs : List α) :
    listAt decode (some (.arr (xs.map toJson))) = some (xs.mapIdx f) := by
  have hfrom : ∀ k, ((xs.map toJson).zipIdx k).mapM (fun item => decode item.2 (some item.1)) =
      some (xs.mapIdx fun i => f (k + i)) := by
    induction xs with
    | nil => exact fun _ => rfl
    | cons x xs ih =>
      intro k
      rw [List.map_cons, List.zipIdx_cons, List.mapM_cons, h, ih (k + 1), List.mapIdx_cons]
      simp only [Nat.add_assoc, Nat.add_comm 1]
      rfl
  have hall := hfrom 0
  simp only [Nat.zero_add] at hall
  exact hall

theorem groupFailoverConfig_toJson (failover : GroupFailoverConfig) :
    groupFailoverConfig (some failover.toJson) = some failover := by
  have hthreshold := u32_toNat failover.failureThreshold
  have hcooldown := u32_toNat failover.cooldownSeconds
  show (do
    let threshold ← u32 (some (.int failover.failureThreshold.toNat))
    let cooldown ← u32 (some (.int failover.cooldownSeconds.toNat))
    return ({ failover with failureThreshold := threshold, cooldownSeconds := cooldown } :
      GroupFailoverConfig)) = _
  rw [hthreshold, hcooldown]
  rfl

theorem routingTable_toJson (entries : List RouteEntry) :
    list routeEntry (some (.arr (entries.map RouteEntry.toJson))) = some entries :=
  mapM_map_eq_some fun _ _ => rfl

theorem lookup_optionalField (key key' : String) (value : Option Json) :
    (optionalField key value).lookup key' = if key' = key then value else none := by
  cases value with
  | none => exact (ite_self none).symm
  | some value =>
    show List.lookup key' [(key, value)] = _
    rw [List.lookup_cons]
    by_cases h : key' = key
    · rw [if_pos h, beq_iff_eq.2 h]
    · rw [if_neg h, beq_false_of_ne h]
      rfl

theorem renameField_of_forall {other name : String} {entries : List (String × Json)}
    (h : ∀ entry ∈ entries, entry.1 ≠ other) :
    renameField other name (.obj entries) = some (.obj entries) := by
  have hnone : entries.lookup other = none :=
    List.lookup_eq_none_iff.2 fun entry hmem => bne_iff_ne.2 (h entry hmem).symm
  have hsame : entries.map (fun entry => if entry.1 = other then (name, entry.2) else entry) =
      entries := by
    refine (List.map_congr_left fun entry hmem => ?_).trans (List.map_id _)
    rw [if_neg (h entry hmem)]
    rfl
  rw [renameField, hnone, hsame]
  rfl

theorem structFields_group (value : Group) :
    (renameField "activeRuleId" "activeProviderId" value.toJson).bind
        (structFields [("id", false), ("name", false), ("routingTable", true), ("models", false),
          ("providerIds", false), ("activeProviderId", false), ("providers", true),
          ("failover", false)]) =
      some [some (.str value.id), some (.str value.name),
        some (.arr (value.routingTable.map RouteEntry.toJson)), value.models.map strings,
        value.providerIds.map strings, value.activeProviderId.map .str,
        value.providers.map (fun rules => .arr (rules.map Rule.toJson)),
        value.failover.map GroupFailoverConfig.toJson] := by
  rw [Group.toJson, renameField_of_forall]
  · simp only [Option.bind_some, structFields, List.map_cons, List.map_nil, List.lookup_append,
      lookup_optionalField, List.lookup_cons]
    simp
  · intro entry hmem
    simp only [List.mem_append, optionalField, List.mem_map, List.mem_cons] at hmem
    grind

theorem group_toJson_eq (place : List ℕ) (value : Group) :
    group env place (some value.toJson) = (do
      let routingTable ← list routeEntry (some (.arr (value.routingTable.map RouteEntry.toJson)))
      let models ← optional (list string) (value.models.map strings)
      let providerIds ← optional (list string) (value.providerIds.map strings)
      let activeProviderId ← optional string (value.activeProviderId.map .str)
      let providers ← optional (listAt fun i => rule env (i :: place))
        (value.providers.map fun rules => .arr (rules.map Rule.toJson))
      let failover ← optional groupFailoverConfig
        (value.failover.map GroupFailoverConfig.toJson)
      return { value with
        routingTable := routingTable, models := models, providerIds := providerIds
        activeProviderId := activeProviderId, providers := providers, failover := failover }) := by
  rw [group, structFields_group]
  rfl

theorem group_toJson_read (place : List ℕ) (value : Group) :
    group env place (some value.toJson) = some (value.readAt env place) := by
  have hmodels : optional (list string) (value.models.map strings) = some value.models :=
    optional_map (fun _ h => nomatch h) fun texts _ => list_string texts
  have hids : optional (list string) (value.providerIds.map strings) = some value.providerIds :=
    optional_map (fun _ h => nomatch h) fun texts _ => list_string texts
  have hactive : optional string (value.activeProviderId.map .str) =
      some value.activeProviderId := optional_map (fun _ h => nomatch h) fun _ _ => rfl
  have hfailover : optional groupFailoverConfig
      (value.failover.map GroupFailoverConfig.toJson) = some value.failover :=
    optional_map (fun _ h => nomatch h) fun failover _ => groupFailoverConfig_toJson failover
  have hproviders : optional (listAt fun i => rule env (i :: place))
      (value.providers.map fun rules => .arr (rules.map Rule.toJson)) =
        some (value.providers.map fun rules =>
          rules.mapIdx fun i rule => rule.readAt env (i :: place)) := by
    cases value.providers with
    | none => rfl
    | some rules =>
      have hread := @listAt_mapIdx Rule (fun i => rule env (i :: place)) Rule.toJson
        (fun i rule => rule.readAt env (i :: place)) (fun i rule => rule_toJson_read env _ rule)
        rules
      exact congrArg (Option.map some) hread
  rw [group_toJson_eq, routingTable_toJson, hmodels, hids, hactive, hproviders, hfailover]
  rfl

/-- **A printed group is read back, the hash maps of its providers in any order.** -/
theorem group_toJson (place : List ℕ) (value : Group) :
    ∃ value', group env place (some value.toJson) = some value' ∧ value'.SameAs value :=
  ⟨_, group_toJson_read env place value, value.readAt_sameAs env place⟩

end

end Decode

/-- **A provider is determined by its printed form.** -/
theorem Rule.toJson_injective : Function.Injective Rule.toJson := by
  have hread : ∀ value : Rule,
      Decode.rule ReadEnv.plain [] (some value.toJson) = some value := by
    intro value
    have hmappings : value.modelMappings.map (ReadEnv.plain.order [0]) = value.modelMappings :=
      Option.map_id_apply
    have hcosts : (if value.modelCosts.isEmpty then HashMap.empty
        else ReadEnv.plain.order [2] value.modelCosts) = value.modelCosts := by
      by_cases hempty : value.modelCosts.isEmpty = true
      · rw [if_pos hempty]
        exact HashMap.eq_of_entries_eq (List.isEmpty_iff.1 hempty).symm
      · rw [if_neg hempty]
        rfl
    rw [Decode.rule_toJson_read, Rule.readAt, hmappings, hcosts]
    rfl
  intro value value' h
  have hsame := hread value
  rw [h, hread value', Option.some_inj] at hsame
  exact hsame.symm

end AiOpenRouter
