/-
Reading a configuration (`normalize_config`).

Whatever is missing has its default, and a setting that cannot be used is replaced
by its default.

* `normalizeConfig` reads every part as an optional one;
* `normalizeConfig_toJson`: the settings that pass the checks are read back as they
  were written.
-/
import AiOpenRouter.ConfigMigration
import AiOpenRouter.ConfigReading
import AiOpenRouter.ConfigValidation

namespace AiOpenRouter

/-! ### Partial settings -/

/-- `PartialServerConfig`. -/
structure PartialServerConfig where
  host : Option String
  port : Option UInt16
  authEnabled : Option Bool
  localBearerToken : Option String

/-- `PartialCompatConfig`. -/
structure PartialCompatConfig where
  strictMode : Option Bool
  textToolCallFallbackEnabled : Option Bool
  headerPassthroughEnabled : Option Bool

/-- `PartialLoggingConfig`. -/
structure PartialLoggingConfig where
  captureBody : Option Bool

/-- `PartialUiConfig`. -/
structure PartialUiConfig where
  theme : Option String
  locale : Option String
  localeMode : Option String
  launchOnStartup : Option Bool
  autoStartServer : Option Bool
  closeToTray : Option Bool
  quotaAutoRefreshMinutes : Option UInt32
  autoUpdateEnabled : Option Bool

/-- `PartialRemoteGitConfig`. -/
structure PartialRemoteGitConfig where
  enabled : Option Bool
  repoUrl : Option String
  token : Option String
  branch : Option String

/-- `PartialProxyConfig`. -/
structure PartialProxyConfig where
  configVersion : Option UInt32
  server : Option PartialServerConfig
  compat : Option PartialCompatConfig
  logging : Option PartialLoggingConfig
  ui : Option PartialUiConfig
  remoteGit : Option PartialRemoteGitConfig
  providers : Option Json
  groups : Option Json

namespace Decode

/-- `PartialServerConfig`. -/
def partialServerConfig : Option Json → Option PartialServerConfig
  | some json =>
    match fields ["host", "port", "authEnabled", "localBearerToken"] json with
    | some [host, port, authEnabled, localBearerToken] => do
      return { host := ← optional string host, port := ← optional u16 port
               authEnabled := ← optional bool authEnabled
               localBearerToken := ← optional string localBearerToken }
    | _ => none
  | none => none

/-- `PartialCompatConfig`. -/
def partialCompatConfig : Option Json → Option PartialCompatConfig
  | some json =>
    match fields ["strictMode", "textToolCallFallbackEnabled", "headerPassthroughEnabled"] json with
    | some [strictMode, textToolCallFallbackEnabled, headerPassthroughEnabled] => do
      return { strictMode := ← optional bool strictMode
               textToolCallFallbackEnabled := ← optional bool textToolCallFallbackEnabled
               headerPassthroughEnabled := ← optional bool headerPassthroughEnabled }
    | _ => none
  | none => none

/-- `PartialLoggingConfig`. -/
def partialLoggingConfig : Option Json → Option PartialLoggingConfig
  | some json =>
    match fields ["captureBody"] json with
    | some [captureBody] => do return { captureBody := ← optional bool captureBody }
    | _ => none
  | none => none

/-- `PartialUiConfig`. -/
def partialUiConfig : Option Json → Option PartialUiConfig
  | some json =>
    match fields ["theme", "locale", "localeMode", "launchOnStartup", "autoStartServer",
        "closeToTray", "quotaAutoRefreshMinutes", "autoUpdateEnabled"] json with
    | some [theme, locale, localeMode, launchOnStartup, autoStartServer, closeToTray,
        quotaAutoRefreshMinutes, autoUpdateEnabled] => do
      return { theme := ← optional string theme, locale := ← optional string locale
               localeMode := ← optional string localeMode
               launchOnStartup := ← optional bool launchOnStartup
               autoStartServer := ← optional bool autoStartServer
               closeToTray := ← optional bool closeToTray
               quotaAutoRefreshMinutes := ← optional u32 quotaAutoRefreshMinutes
               autoUpdateEnabled := ← optional bool autoUpdateEnabled }
    | _ => none
  | none => none

/-- `PartialRemoteGitConfig`. -/
def partialRemoteGitConfig : Option Json → Option PartialRemoteGitConfig
  | some json =>
    match fields ["enabled", "repoUrl", "token", "branch"] json with
    | some [enabled, repoUrl, token, branch] => do
      return { enabled := ← optional bool enabled, repoUrl := ← optional string repoUrl
               token := ← optional string token, branch := ← optional string branch }
    | _ => none
  | none => none

/-- `PartialProxyConfig`. -/
def partialProxyConfig (json : Json) : Option PartialProxyConfig :=
  match fields ["configVersion", "server", "compat", "logging", "ui", "remoteGit", "providers",
      "groups"] json with
  | some [configVersion, server, compat, logging, ui, remoteGit, providers, groups] => do
    return { configVersion := ← optional u32 configVersion
             server := ← optional partialServerConfig server
             compat := ← optional partialCompatConfig compat
             logging := ← optional partialLoggingConfig logging
             ui := ← optional partialUiConfig ui
             remoteGit := ← optional partialRemoteGitConfig remoteGit
             providers := ← optional id providers, groups := ← optional id groups }
  | _ => none

end Decode

/-! ### The settings -/

/-- `partial.part.field`, or its default. -/
def settingOr {α β : Type} (part : Option α) (field : α → Option β) (default : β) : β :=
  (part.bind field).getD default

def serverSettings (server : Option PartialServerConfig) : ServerConfig where
  host := ((server.bind (·.host)).filter (trimmed · ≠ "")).getD defaultConfig.server.host
  port := settingOr server (·.port) defaultConfig.server.port
  authEnabled := settingOr server (·.authEnabled) defaultConfig.server.authEnabled
  localBearerToken := settingOr server (·.localBearerToken) defaultConfig.server.localBearerToken

def compatSettings (compat : Option PartialCompatConfig) : CompatConfig where
  strictMode := settingOr compat (·.strictMode) defaultConfig.compat.strictMode
  textToolCallFallbackEnabled :=
    settingOr compat (·.textToolCallFallbackEnabled)
      defaultConfig.compat.textToolCallFallbackEnabled
  headerPassthroughEnabled :=
    settingOr compat (·.headerPassthroughEnabled) defaultConfig.compat.headerPassthroughEnabled

def uiSettings (ui : Option PartialUiConfig) : UiConfig :=
  let locale := settingOr ui (·.locale) defaultConfig.ui.locale
  let localeMode := settingOr ui (·.localeMode)
    (if locale = "zh-CN" then "manual" else defaultConfig.ui.localeMode)
  { theme := ((ui.bind (·.theme)).filter fun v => v = "light" ∨ v = "dark").getD
      defaultConfig.ui.theme
    locale := if locale = "zh-CN" then "zh-CN" else "en-US"
    localeMode := if localeMode = "manual" then "manual" else "auto"
    launchOnStartup := settingOr ui (·.launchOnStartup) defaultConfig.ui.launchOnStartup
    autoStartServer := settingOr ui (·.autoStartServer) defaultConfig.ui.autoStartServer
    closeToTray := settingOr ui (·.closeToTray) defaultConfig.ui.closeToTray
    quotaAutoRefreshMinutes :=
      settingOr ui (·.quotaAutoRefreshMinutes) defaultConfig.ui.quotaAutoRefreshMinutes
    autoUpdateEnabled := settingOr ui (·.autoUpdateEnabled) defaultConfig.ui.autoUpdateEnabled }

def remoteGitSettings (remote : Option PartialRemoteGitConfig) : RemoteGitConfig :=
  let repoUrl := settingOr remote (·.repoUrl) defaultConfig.remoteGit.repoUrl
  let token := settingOr remote (·.token) defaultConfig.remoteGit.token
  { enabled := settingOr remote (·.enabled) (trimmed repoUrl ≠ "" || trimmed token ≠ "")
    repoUrl := repoUrl
    token := token
    branch := ((remote.bind (·.branch)).filter (trimmed · ≠ "")).getD
      defaultConfig.remoteGit.branch }

/-! ### The whole configuration -/

/-- `normalize_provider_model_costs`. -/
def normalizeProviderModelCosts (env : ReadEnv) (place : List ℕ) (provider : Rule) : Rule :=
  normalizeProviderForStorage (env.order (3 :: place)) provider

def configGroups (env : ReadEnv) (groups : Option Json) : Except String (List Group) :=
  match groups with
  | none => .ok []
  | some json =>
    match Decode.listAt (fun i => Decode.group env [i, 0]) (some json) with
    | none => .error ("invalid groups structure: " ++ env.errorText json)
    | some groups =>
      .ok (groups.zipIdx.map fun group =>
        { group.1 with
          providers := group.1.providers.map fun providers => providers.zipIdx.map fun provider =>
            normalizeProviderModelCosts env [provider.2, group.2, 0] provider.1 })

def configProviders (env : ReadEnv) (providers : Option Json) : Except String (List Rule) :=
  match providers with
  | none => .ok []
  | some json =>
    match Decode.listAt (fun i => Decode.rule env [i, 1]) (some json) with
    | none => .error ("invalid providers structure: " ++ env.errorText json)
    | some providers =>
      .ok (providers.zipIdx.map fun provider =>
        normalizeProviderModelCosts env [provider.2, 1] provider.1)

/-- `normalize_config`. -/
def normalizeConfig (env : ReadEnv) (input : Json) : Except String ProxyConfig :=
  match Decode.partialProxyConfig input with
  | none => .error ("invalid config structure: " ++ env.errorText input)
  | some part => do
    let groups ← configGroups env part.groups
    let providers ← configProviders env part.providers
    return {
      configVersion := part.configVersion.getD currentConfigVersion
      server := serverSettings part.server
      compat := compatSettings part.compat
      logging :=
        { captureBody := settingOr part.logging (·.captureBody) defaultConfig.logging.captureBody }
      ui := uiSettings part.ui
      remoteGit := remoteGitSettings part.remoteGit
      providers := providers
      groups := groups }

/-! ### Settings are read back -/

def ServerConfig.toPartial (server : ServerConfig) : PartialServerConfig where
  host := some server.host
  port := some server.port
  authEnabled := some server.authEnabled
  localBearerToken := some server.localBearerToken

def CompatConfig.toPartial (compat : CompatConfig) : PartialCompatConfig where
  strictMode := some compat.strictMode
  textToolCallFallbackEnabled := some compat.textToolCallFallbackEnabled
  headerPassthroughEnabled := some compat.headerPassthroughEnabled

def UiConfig.toPartial (ui : UiConfig) : PartialUiConfig where
  theme := some ui.theme
  locale := some ui.locale
  localeMode := some ui.localeMode
  launchOnStartup := some ui.launchOnStartup
  autoStartServer := some ui.autoStartServer
  closeToTray := some ui.closeToTray
  quotaAutoRefreshMinutes := some ui.quotaAutoRefreshMinutes
  autoUpdateEnabled := some ui.autoUpdateEnabled

def RemoteGitConfig.toPartial (remote : RemoteGitConfig) : PartialRemoteGitConfig where
  enabled := some remote.enabled
  repoUrl := some remote.repoUrl
  token := some remote.token
  branch := some remote.branch

theorem partialServerConfig_toJson (server : ServerConfig) :
    Decode.partialServerConfig (some server.toJson) = some server.toPartial := by
  have hport : Decode.optional Decode.u16 (some (.int server.port.toNat)) =
      some (some server.port) := congrArg (Option.map some) (Decode.u16_toNat server.port)
  show (do
    let port ← Decode.optional Decode.u16 (some (.int server.port.toNat))
    return { server.toPartial with port := port }) = _
  rw [hport]
  rfl

theorem partialUiConfig_toJson (ui : UiConfig) :
    Decode.partialUiConfig (some ui.toJson) = some ui.toPartial := by
  have hminutes : Decode.optional Decode.u32 (some (.int ui.quotaAutoRefreshMinutes.toNat)) =
      some (some ui.quotaAutoRefreshMinutes) :=
    congrArg (Option.map some) (Decode.u32_toNat ui.quotaAutoRefreshMinutes)
  show (do
    let minutes ← Decode.optional Decode.u32 (some (.int ui.quotaAutoRefreshMinutes.toNat))
    return { ui.toPartial with quotaAutoRefreshMinutes := minutes }) = _
  rw [hminutes]
  rfl

theorem partialProxyConfig_toJson (config : ProxyConfig) :
    Decode.partialProxyConfig config.toJson = some {
      configVersion := some config.configVersion
      server := some config.server.toPartial
      compat := some config.compat.toPartial
      logging := some { captureBody := some config.logging.captureBody }
      ui := some config.ui.toPartial
      remoteGit := some config.remoteGit.toPartial
      providers := some (.arr (config.providers.map Rule.toJson))
      groups := some (.arr (config.groups.map Group.toJson)) } := by
  have hversion := Decode.u32_toNat config.configVersion
  show (do
    let configVersion ← (Decode.u32 (some (.int config.configVersion.toNat))).map some
    let server ← (Decode.partialServerConfig (some config.server.toJson)).map some
    let ui ← (Decode.partialUiConfig (some config.ui.toJson)).map some
    return ({
      configVersion := configVersion
      server := server
      compat := some config.compat.toPartial
      logging := some { captureBody := some config.logging.captureBody }
      ui := ui
      remoteGit := some config.remoteGit.toPartial
      providers := some (.arr (config.providers.map Rule.toJson))
      groups := some (.arr (config.groups.map Group.toJson)) } : PartialProxyConfig)) = _
  rw [hversion, partialServerConfig_toJson, partialUiConfig_toJson]
  rfl

theorem serverSettings_toPartial {server : ServerConfig} (h : trimmed server.host ≠ "") :
    serverSettings (some server.toPartial) = server := by
  have hhost : (some server.host).filter (trimmed · ≠ "") = some server.host :=
    Option.filter_some_pos (decide_eq_true h)
  have hpart : (some server.toPartial).bind (·.host) = some server.host := rfl
  rw [serverSettings, hpart, hhost]
  rfl

theorem uiSettings_toPartial {ui : UiConfig} (htheme : ui.theme = "light" ∨ ui.theme = "dark")
    (hlocale : ui.locale = "en-US" ∨ ui.locale = "zh-CN")
    (hmode : ui.localeMode = "auto" ∨ ui.localeMode = "manual") :
    uiSettings (some ui.toPartial) = ui := by
  have hfilter : (some ui.theme).filter (fun v => v = "light" ∨ v = "dark") = some ui.theme :=
    Option.filter_some_pos (decide_eq_true htheme)
  have hpart : (some ui.toPartial).bind (·.theme) = some ui.theme := rfl
  have hkept : (if ui.locale = "zh-CN" then "zh-CN" else "en-US") = ui.locale := by
    rcases hlocale with h | h <;> rw [h] <;> rfl
  have hmodeKept : (if ui.localeMode = "manual" then "manual" else "auto") = ui.localeMode := by
    rcases hmode with h | h <;> rw [h] <;> rfl
  rw [uiSettings, hpart, hfilter]
  show ({ ui with
    locale := if ui.locale = "zh-CN" then "zh-CN" else "en-US"
    localeMode := if ui.localeMode = "manual" then "manual" else "auto" } : UiConfig) = ui
  rw [hkept, hmodeKept]

theorem remoteGitSettings_toPartial {remote : RemoteGitConfig} (h : trimmed remote.branch ≠ "") :
    remoteGitSettings (some remote.toPartial) = remote := by
  have hbranch : (some remote.branch).filter (trimmed · ≠ "") = some remote.branch :=
    Option.filter_some_pos (decide_eq_true h)
  have hpart : (some remote.toPartial).bind (·.branch) = some remote.branch := rfl
  rw [remoteGitSettings, hpart, hbranch]
  rfl

/-- **Settings that pass the checks are read back as they were written.** -/
theorem normalizeConfig_toJson (env : ReadEnv) {config : ProxyConfig} (h : UsableSettings config)
    (hproviders : config.providers = []) (hgroups : config.groups = []) :
    normalizeConfig env config.toJson = .ok config := by
  rw [normalizeConfig, partialProxyConfig_toJson, hproviders, hgroups]
  show Except.ok ({
      configVersion := config.configVersion
      server := serverSettings (some config.server.toPartial)
      compat := config.compat
      logging := config.logging
      ui := uiSettings (some config.ui.toPartial)
      remoteGit := remoteGitSettings (some config.remoteGit.toPartial)
      providers := []
      groups := [] } : ProxyConfig) = _
  rw [serverSettings_toPartial h.host, uiSettings_toPartial h.theme h.locale h.localeMode,
    remoteGitSettings_toPartial h.branch]
  obtain ⟨_, _, _, _, _, _, _, _⟩ := config
  cases hproviders
  cases hgroups
  rfl

/-- **The settings of the current version survive being written and read.** -/
theorem readConfig_toJson (env : ReadEnv) {config : ProxyConfig} (h : UsableSettings config)
    (hproviders : config.providers = []) (hgroups : config.groups = []) :
    (migrateConfig config.toJson).bind (normalizeConfig env) = .ok config := by
  have hversion : config.jsonFields.lookup "configVersion" =
      some (.int currentConfigVersion.toNat) := by
    rw [← h.version]
    rfl
  have hnodup : (config.jsonFields.map Prod.fst).Nodup := by
    show ["configVersion", "server", "compat", "logging", "ui", "remoteGit", "providers",
      "groups"].Nodup
    decide
  rw [ProxyConfig.toJson, migrateConfig_of_current hnodup hversion]
  exact normalizeConfig_toJson env h hproviders hgroups

end AiOpenRouter
