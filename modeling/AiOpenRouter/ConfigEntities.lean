/-
The configuration entities: providers (`Rule`), groups and the settings.

A finite `f64` is kept as the text that `serde_json` prints of it, since the
configuration only stores prices and thresholds.
-/
import AiOpenRouter.HashMaps
import AiOpenRouter.Json

namespace AiOpenRouter

/-! ### Floats -/

/-- A finite `f64`, as `serde_json` prints it. -/
structure F64 where
  text : String
  deriving DecidableEq

/-- `x == 0.0`. -/
def F64.isZero (x : F64) : Bool := x.text = "0.0" || x.text = "-0.0"

/-! ### Providers -/

/-- `RuleProtocol`. -/
inductive RuleProtocol where
  | openai
  | openaiCompletion
  | anthropic
  deriving DecidableEq

/-- `QuotaUnitType`. -/
inductive QuotaUnitType where
  | percentage
  | amount
  | tokens
  deriving DecidableEq

/-- `RuleQuotaResponseMapping`. -/
structure RuleQuotaResponseMapping where
  remaining : Json := .null
  unit : Json := .null
  total : Json := .null
  resetAt : Json := .null

/-- `RuleQuotaConfig`. -/
structure RuleQuotaConfig where
  enabled : Bool
  provider : String
  endpoint : String
  method : String
  useRuleToken : Bool
  customToken : String
  authHeader : String
  authScheme : String
  customHeaders : HashMap String
  unitType : QuotaUnitType
  lowThresholdPercent : F64
  response : RuleQuotaResponseMapping

/-- `default_rule_quota_config`. -/
def defaultRuleQuotaConfig : RuleQuotaConfig where
  enabled := false
  provider := "custom"
  endpoint := ""
  method := "GET"
  useRuleToken := true
  customToken := ""
  authHeader := "Authorization"
  authScheme := "Bearer"
  customHeaders := HashMap.empty
  unitType := .percentage
  lowThresholdPercent := ⟨"10.0"⟩
  response := {}

/-- `BillingTemplateAttribution`. -/
structure BillingTemplateAttribution where
  vendorId : String
  vendorLabel : String
  modelId : String
  modelLabel : String
  sourceUrl : String
  verifiedAt : String
  appliedAt : String
  modifiedAfterApply : Bool

/-- `RuleCostConfig`. -/
structure RuleCostConfig where
  enabled : Bool
  inputPricePerM : F64
  outputPricePerM : F64
  cacheInputPricePerM : F64
  cacheOutputPricePerM : F64
  currency : String
  template : Option BillingTemplateAttribution

/-- `default_rule_cost_config`. -/
def defaultRuleCostConfig : RuleCostConfig where
  enabled := false
  inputPricePerM := ⟨"0.0"⟩
  outputPricePerM := ⟨"0.0"⟩
  cacheInputPricePerM := ⟨"0.0"⟩
  cacheOutputPricePerM := ⟨"0.0"⟩
  currency := "USD"
  template := none

/-- `Rule`: a provider. -/
structure Rule where
  id : String
  name : String
  protocol : RuleProtocol
  token : String
  apiAddress : String
  website : String
  models : List String
  defaultModel : Option String
  modelMappings : Option (HashMap String)
  headerPassthroughAllow : List String
  headerPassthroughDeny : List String
  quota : RuleQuotaConfig
  cost : RuleCostConfig
  modelCosts : HashMap RuleCostConfig

/-! ### Groups -/

/-- `RouteEntry`. -/
structure RouteEntry where
  requestModel : String
  providerId : String
  targetModel : String
  deriving DecidableEq

/-- `GroupFailoverConfig`. -/
structure GroupFailoverConfig where
  enabled : Bool
  failureThreshold : UInt32
  cooldownSeconds : UInt32

/-- `Group`. -/
structure Group where
  id : String
  name : String
  routingTable : List RouteEntry
  models : Option (List String)
  providerIds : Option (List String)
  activeProviderId : Option String
  providers : Option (List Rule)
  failover : Option GroupFailoverConfig

/-! ### The whole configuration -/

/-- `ServerConfig`. -/
structure ServerConfig where
  host : String
  port : UInt16
  authEnabled : Bool
  localBearerToken : String

/-- `CompatConfig`. -/
structure CompatConfig where
  strictMode : Bool
  textToolCallFallbackEnabled : Bool
  headerPassthroughEnabled : Bool

/-- `LoggingConfig`. -/
structure LoggingConfig where
  captureBody : Bool

/-- `UiConfig`. -/
structure UiConfig where
  theme : String
  locale : String
  localeMode : String
  launchOnStartup : Bool
  autoStartServer : Bool
  closeToTray : Bool
  quotaAutoRefreshMinutes : UInt32
  autoUpdateEnabled : Bool

/-- `RemoteGitConfig`. -/
structure RemoteGitConfig where
  enabled : Bool
  repoUrl : String
  token : String
  branch : String

/-- `ProxyConfig`. -/
structure ProxyConfig where
  configVersion : UInt32
  server : ServerConfig
  compat : CompatConfig
  logging : LoggingConfig
  ui : UiConfig
  remoteGit : RemoteGitConfig
  providers : List Rule
  groups : List Group

/-- `CURRENT_CONFIG_VERSION`. -/
def currentConfigVersion : UInt32 := 5

/-- `default_config`. -/
def defaultConfig : ProxyConfig where
  configVersion := currentConfigVersion
  server := { host := "0.0.0.0", port := 8899, authEnabled := false, localBearerToken := "" }
  compat := { strictMode := false, textToolCallFallbackEnabled := true,
              headerPassthroughEnabled := true }
  logging := { captureBody := false }
  ui := { theme := "light", locale := "en-US", localeMode := "auto", launchOnStartup := false,
          autoStartServer := true, closeToTray := true, quotaAutoRefreshMinutes := 5,
          autoUpdateEnabled := true }
  remoteGit := { enabled := false, repoUrl := "", token := "", branch := "main" }
  providers := []
  groups := []

/-! ### The printed form of a provider -/

def optionalField (key : String) (value : Option Json) : List (String × Json) :=
  value.toList.map (Prod.mk key)

/-- The printed form of a string map. -/
def HashMap.toJson {α : Type} (toJson : α → Json) (m : HashMap α) : Json :=
  .obj (m.entries.map fun entry => (entry.1, toJson entry.2))

def RuleProtocol.toJson : RuleProtocol → Json
  | openai => .str "openai"
  | openaiCompletion => .str "openai_completion"
  | anthropic => .str "anthropic"

def QuotaUnitType.toJson : QuotaUnitType → Json
  | percentage => .str "percentage"
  | amount => .str "amount"
  | tokens => .str "tokens"

/-- The printed form of an `f64`. -/
def F64.toJson (x : F64) : Json := .num (.float x.text)

/-- The printed form of a quota configuration. -/
def RuleQuotaConfig.toJson (quota : RuleQuotaConfig) : Json :=
  .obj [("enabled", .bool quota.enabled), ("provider", .str quota.provider),
    ("endpoint", .str quota.endpoint), ("method", .str quota.method),
    ("useRuleToken", .bool quota.useRuleToken), ("customToken", .str quota.customToken),
    ("authHeader", .str quota.authHeader), ("authScheme", .str quota.authScheme),
    ("customHeaders", quota.customHeaders.toJson .str), ("unitType", quota.unitType.toJson),
    ("lowThresholdPercent", quota.lowThresholdPercent.toJson),
    ("response", .obj [("remaining", quota.response.remaining), ("unit", quota.response.unit),
      ("total", quota.response.total), ("resetAt", quota.response.resetAt)])]

/-- The printed form of a billing template. -/
def BillingTemplateAttribution.toJson (template : BillingTemplateAttribution) : Json :=
  .obj [("vendorId", .str template.vendorId), ("vendorLabel", .str template.vendorLabel),
    ("modelId", .str template.modelId), ("modelLabel", .str template.modelLabel),
    ("sourceUrl", .str template.sourceUrl), ("verifiedAt", .str template.verifiedAt),
    ("appliedAt", .str template.appliedAt),
    ("modifiedAfterApply", .bool template.modifiedAfterApply)]

/-- The printed form of a cost configuration. -/
def RuleCostConfig.toJson (cost : RuleCostConfig) : Json :=
  .obj [("enabled", .bool cost.enabled), ("inputPricePerM", cost.inputPricePerM.toJson),
    ("outputPricePerM", cost.outputPricePerM.toJson),
    ("cacheInputPricePerM", cost.cacheInputPricePerM.toJson),
    ("cacheOutputPricePerM", cost.cacheOutputPricePerM.toJson), ("currency", .str cost.currency),
    ("template", (cost.template.map BillingTemplateAttribution.toJson).getD .null)]

/-- The printed form of a provider. -/
def Rule.toJson (rule : Rule) : Json :=
  .obj ([("id", .str rule.id), ("name", .str rule.name), ("protocol", rule.protocol.toJson),
      ("token", .str rule.token), ("apiAddress", .str rule.apiAddress),
      ("website", .str rule.website), ("models", .arr (rule.models.map .str))] ++
    optionalField "defaultModel" (rule.defaultModel.map .str) ++
    optionalField "modelMappings" (rule.modelMappings.map fun m => m.toJson .str) ++
    [("headerPassthroughAllow", .arr (rule.headerPassthroughAllow.map .str)),
      ("headerPassthroughDeny", .arr (rule.headerPassthroughDeny.map .str)),
      ("quota", rule.quota.toJson), ("cost", rule.cost.toJson)] ++
    if rule.modelCosts.isEmpty then []
    else [("modelCosts", rule.modelCosts.toJson RuleCostConfig.toJson)])

end AiOpenRouter
