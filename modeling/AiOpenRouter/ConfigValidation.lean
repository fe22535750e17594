/-
The checks of a configuration (`validate_config`), and the configurations that a
save accepts.

* `validateConfig` makes the checks in the order of the source, with its texts;
* `validateConfig_ok_iff`: exactly the `Valid` configurations pass;
* `acceptConfig` is what `ConfigStore::save_config` does before it writes.
-/
import AiOpenRouter.ConfigNormalization

namespace AiOpenRouter

/-! ### The checks -/

def reject (wrong : Bool) (message : String) : Except String Unit :=
  if wrong then .error message else .ok ()

def validateSettings (config : ProxyConfig) : Except String Unit := do
  reject (config.configVersion ≠ currentConfigVersion)
    ("configVersion must be " ++ toString currentConfigVersion)
  reject (trimmed config.server.host = "") "server.host must be non-empty"
  reject (config.server.port = 0) "server.port must be between 1 and 65535"
  reject (config.server.authEnabled ∧ trimmed config.server.localBearerToken = "")
    "server.localBearerToken must be set when authEnabled=true"
  reject (config.ui.theme ≠ "light" ∧ config.ui.theme ≠ "dark") "ui.theme must be light|dark"
  reject (config.ui.locale ≠ "en-US" ∧ config.ui.locale ≠ "zh-CN") "ui.locale must be en-US|zh-CN"
  reject (config.ui.localeMode ≠ "auto" ∧ config.ui.localeMode ≠ "manual")
    "ui.localeMode must be auto|manual"
  reject (config.ui.quotaAutoRefreshMinutes < 1 ∨ 1440 < config.ui.quotaAutoRefreshMinutes)
    "ui.quotaAutoRefreshMinutes must be between 1 and 1440"
  reject (trimmed config.remoteGit.branch = "") "remoteGit.branch must be non-empty"

def validateProvider (providerIds : List String) (provider : Rule) : Except String Unit := do
  reject (trimmed provider.id = "") "provider.id is required"
  reject (provider.defaultModel.all fun model => trimmed model = "")
    ("provider.defaultModel required for " ++ provider.id)
  reject (provider.id ∈ providerIds) ("duplicate provider.id: " ++ provider.id)

def validateProviders : List String → List Rule → Except String Unit
  | _, [] => .ok ()
  | providerIds, provider :: providers => do
    validateProvider providerIds provider
    validateProviders (provider.id :: providerIds) providers

def effectiveProviderIds (group : Group) : List String :=
  match group.providerIds with
  | some (id :: ids) => id :: ids
  | _ => (group.providers.getD []).map Rule.id

def hasProvider (providers : List Rule) (id : String) : Bool := providers.any (·.id = id)

def validateProviderId (config : ProxyConfig) (group : Group) (providerId : String) :
    Except String Unit := do
  reject (trimmed providerId = "") ("group.providerIds contains empty id in " ++ group.id)
  reject (!hasProvider config.providers providerId &&
      !hasProvider (group.providers.getD []) providerId)
    ("group.providerIds not found in providers for " ++ group.id ++ ": " ++ providerId)

def validateGroup (config : ProxyConfig) (group : Group) : Except String Unit := do
  reject (trimmed group.id = "") "group.id is required"
  reject (!group.id.toList.all fun c => c.isAlphanum || c = '_' || c = '-')
    ("group.id invalid: " ++ group.id)
  reject (trimmed group.name = "") ("group.name is required for " ++ group.id)
  (effectiveProviderIds group).forM (validateProviderId config group)
  reject (group.activeProviderId.any (· ∉ effectiveProviderIds group))
    ("group.activeProviderId not found in providers for " ++ group.id)

/-- `validate_config`. -/
def validateConfig (config : ProxyConfig) : Except String Unit := do
  validateSettings config
  validateProviders [] config.providers
  config.groups.forM (validateGroup config)

/-- What `ConfigStore::save_config` does before it writes. -/
def acceptConfig (env : NormalizeEnv) (config : ProxyConfig) : Except String ProxyConfig := do
  let normalized := normalizeConfigForStorage env config
  validateConfig normalized
  return normalized

/-! ### What the checks pass -/

theorem bind_eq_ok_iff {α β ε : Type} {x : Except ε α} {f : α → Except ε β} {b : β} :
    x >>= f = .ok b ↔ ∃ a, x = .ok a ∧ f a = .ok b := by
  cases x with
  | error e => exact ⟨fun h => (nomatch h), fun ⟨_, h, _⟩ => (nomatch h)⟩
  | ok a => exact ⟨fun h => ⟨a, rfl, h⟩, fun ⟨_, h, hf⟩ => by cases h; exact hf⟩

theorem reject_eq_ok_iff {wrong : Bool} {message : String} :
    reject wrong message = .ok () ↔ wrong = false := by
  cases wrong with
  | true => exact ⟨fun h => (nomatch h), fun h => (nomatch h)⟩
  | false => exact ⟨fun _ => rfl, fun _ => rfl⟩

theorem bind_unit_ok_iff {x : Except String Unit} {y : Except String Unit} :
    (x >>= fun _ => y) = .ok () ↔ x = .ok () ∧ y = .ok () := by
  rw [bind_eq_ok_iff]
  exact ⟨fun ⟨_, hx, hy⟩ => ⟨hx, hy⟩, fun ⟨hx, hy⟩ => ⟨(), hx, hy⟩⟩

theorem forM_eq_ok_iff {α : Type} {f : α → Except String Unit} {xs : List α} :
    xs.forM f = .ok () ↔ ∀ x ∈ xs, f x = .ok () := by
  induction xs with
  | nil => simp [pure, Except.pure]
  | cons x xs ih =>
    rw [List.forM_eq_forM, List.forM_cons, bind_unit_ok_iff, ← List.forM_eq_forM, ih,
      List.forall_mem_cons]

structure UsableSettings (config : ProxyConfig) : Prop where
  version : config.configVersion = currentConfigVersion
  host : trimmed config.server.host ≠ ""
  port : config.server.port ≠ 0
  token : config.server.authEnabled = true → trimmed config.server.localBearerToken ≠ ""
  theme : config.ui.theme = "light" ∨ config.ui.theme = "dark"
  locale : config.ui.locale = "en-US" ∨ config.ui.locale = "zh-CN"
  localeMode : config.ui.localeMode = "auto" ∨ config.ui.localeMode = "manual"
  minutes : 1 ≤ config.ui.quotaAutoRefreshMinutes ∧ config.ui.quotaAutoRefreshMinutes ≤ 1440
  branch : trimmed config.remoteGit.branch ≠ ""

variable {config : ProxyConfig}

theorem validateSettings_ok_iff : validateSettings config = .ok () ↔ UsableSettings config := by
  unfold validateSettings
  simp only [bind_unit_ok_iff, reject_eq_ok_iff, decide_eq_false_iff_not, not_not, not_and,
    not_or, UInt32.not_lt, ne_eq]
  constructor
  · rintro ⟨hversion, hhost, hport, htoken, htheme, hlocale, hmode, hminutes, hbranch⟩
    exact ⟨hversion, hhost, hport, htoken, Classical.or_iff_not_imp_left.2 htheme,
      Classical.or_iff_not_imp_left.2 hlocale, Classical.or_iff_not_imp_left.2 hmode, hminutes,
      hbranch⟩
  · intro h
    exact ⟨h.version, h.host, h.port, h.token, h.theme.resolve_left, h.locale.resolve_left,
      h.localeMode.resolve_left, h.minutes, h.branch⟩

structure UsableProviders (providerIds : List String) (providers : List Rule) : Prop where
  id : ∀ provider ∈ providers, trimmed provider.id ≠ ""
  defaultModel : ∀ provider ∈ providers,
    (provider.defaultModel.all fun model => trimmed model = "") = false
  new : ∀ provider ∈ providers, provider.id ∉ providerIds
  nodup : (providers.map Rule.id).Nodup

theorem validateProvider_ok_iff {providerIds : List String} {provider : Rule} :
    validateProvider providerIds provider = .ok () ↔
      trimmed provider.id ≠ "" ∧
        (provider.defaultModel.all fun model => trimmed model = "") = false ∧
          provider.id ∉ providerIds := by
  unfold validateProvider
  simp only [bind_unit_ok_iff, reject_eq_ok_iff, decide_eq_false_iff_not, ne_eq]

theorem validateProviders_ok_iff {providerIds : List String} {providers : List Rule} :
    validateProviders providerIds providers = .ok () ↔ UsableProviders providerIds providers := by
  induction providers generalizing providerIds with
  | nil =>
    exact ⟨fun _ => ⟨by simp, by simp, by simp, List.nodup_nil⟩, fun _ => rfl⟩
  | cons provider providers ih =>
    rw [validateProviders, bind_unit_ok_iff, validateProvider_ok_iff, ih]
    constructor
    · rintro ⟨⟨hid, hmodel, hnew⟩, hrest⟩
      refine ⟨?_, ?_, ?_, ?_⟩
      · exact List.forall_mem_cons.2 ⟨hid, hrest.id⟩
      · exact List.forall_mem_cons.2 ⟨hmodel, hrest.defaultModel⟩
      · refine List.forall_mem_cons.2 ⟨hnew, fun other hmem h => ?_⟩
        exact hrest.new other hmem (List.mem_cons_of_mem _ h)
      · refine List.nodup_cons.2 ⟨fun hmem => ?_, hrest.nodup⟩
        obtain ⟨other, hother, heq⟩ := List.mem_map.1 hmem
        exact hrest.new other hother (heq ▸ List.mem_cons_self)
    · intro h
      obtain ⟨hnot, hnodup⟩ := List.nodup_cons.1 h.nodup
      refine ⟨⟨h.id _ List.mem_cons_self, h.defaultModel _ List.mem_cons_self,
        h.new _ List.mem_cons_self⟩, ?_, ?_, ?_, hnodup⟩
      · exact fun other hmem => h.id other (List.mem_cons_of_mem _ hmem)
      · exact fun other hmem => h.defaultModel other (List.mem_cons_of_mem _ hmem)
      · intro other hmem hin
        rcases List.mem_cons.1 hin with heq | hin
        · exact hnot (heq ▸ List.mem_map_of_mem hmem)
        · exact h.new other (List.mem_cons_of_mem _ hmem) hin

theorem hasProvider_iff {providers : List Rule} {id : String} :
    hasProvider providers id = true ↔ ∃ provider ∈ providers, provider.id = id := by
  simp [hasProvider]

structure UsableGroup (config : ProxyConfig) (group : Group) : Prop where
  id : trimmed group.id ≠ ""
  chars : (group.id.toList.all fun c => c.isAlphanum || c = '_' || c = '-') = true
  name : trimmed group.name ≠ ""
  providerId : ∀ id ∈ effectiveProviderIds group, trimmed id ≠ ""
  provider : ∀ id ∈ effectiveProviderIds group, ∃ provider : Rule,
    (provider ∈ config.providers ∨ provider ∈ group.providers.getD []) ∧ provider.id = id
  active : ∀ id ∈ group.activeProviderId, id ∈ effectiveProviderIds group

theorem validateProviderId_ok_iff {group : Group} {providerId : String} :
    validateProviderId config group providerId = .ok () ↔
      trimmed providerId ≠ "" ∧ ∃ provider : Rule,
        (provider ∈ config.providers ∨ provider ∈ group.providers.getD []) ∧
          provider.id = providerId := by
  unfold validateProviderId
  rw [bind_unit_ok_iff, reject_eq_ok_iff, reject_eq_ok_iff, decide_eq_false_iff_not,
    Bool.and_eq_false_iff, Bool.not_eq_false', Bool.not_eq_false', hasProvider_iff, hasProvider_iff]
  refine and_congr_right fun _ => ⟨?_, ?_⟩
  · rintro (⟨provider, hmem, heq⟩ | ⟨provider, hmem, heq⟩)
    · exact ⟨provider, .inl hmem, heq⟩
    · exact ⟨provider, .inr hmem, heq⟩
  · rintro ⟨provider, hmem | hmem, heq⟩
    · exact .inl ⟨provider, hmem, heq⟩
    · exact .inr ⟨provider, hmem, heq⟩

theorem validateGroup_ok_iff {group : Group} :
    validateGroup config group = .ok () ↔ UsableGroup config group := by
  unfold validateGroup
  simp only [bind_unit_ok_iff, reject_eq_ok_iff, forM_eq_ok_iff, validateProviderId_ok_iff,
    decide_eq_false_iff_not, Bool.not_eq_false', ne_eq]
  have hactive : (group.activeProviderId.any (· ∉ effectiveProviderIds group)) = false ↔
      ∀ id ∈ group.activeProviderId, id ∈ effectiveProviderIds group := by
    cases group.activeProviderId <;> simp
  rw [hactive]
  constructor
  · rintro ⟨hid, hchars, hname, hids, hactive⟩
    exact ⟨hid, hchars, hname, fun id hmem => (hids id hmem).1, fun id hmem => (hids id hmem).2,
      hactive⟩
  · intro h
    exact ⟨h.id, h.chars, h.name, fun id hmem => ⟨h.providerId id hmem, h.provider id hmem⟩,
      h.active⟩

/-- A configuration that passes. -/
structure Valid (config : ProxyConfig) : Prop where
  settings : UsableSettings config
  providers : UsableProviders [] config.providers
  groups : ∀ group ∈ config.groups, UsableGroup config group

/-- **The checks pass exactly the valid configurations.** -/
theorem validateConfig_ok_iff : validateConfig config = .ok () ↔ Valid config := by
  unfold validateConfig
  simp only [bind_unit_ok_iff, validateSettings_ok_iff, validateProviders_ok_iff, forM_eq_ok_iff,
    validateGroup_ok_iff]
  exact ⟨fun ⟨hsettings, hproviders, hgroups⟩ => ⟨hsettings, hproviders, hgroups⟩,
    fun h => ⟨h.settings, h.providers, h.groups⟩⟩

theorem acceptConfig_eq_ok_iff {env : NormalizeEnv} {normalized : ProxyConfig} :
    acceptConfig env config = .ok normalized ↔
      normalizeConfigForStorage env config = normalized ∧ validateConfig normalized = .ok () := by
  unfold acceptConfig
  rw [bind_eq_ok_iff]
  constructor
  · rintro ⟨_, hvalid, heq⟩
    cases heq
    exact ⟨rfl, hvalid⟩
  · rintro ⟨rfl, hvalid⟩
    exact ⟨(), hvalid, rfl⟩

end AiOpenRouter
