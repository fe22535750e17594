/-
The provider of a route, as the features find it.

The router looks in the stored providers, the quota query in the copies that the
group embeds, and the model test in the copies first and then, for a provider of
the routing table, in the stored ones.

* `sameRecord_iff`: all of them find one record exactly when the group lists the
  id of the provider.
-/
import AiOpenRouter.ConfigSaves
import Mathlib

namespace AiOpenRouter

/-! ### The lookups -/

/-- `AppError`, of the kinds that a lookup answers with. -/
inductive LookupError where
  | validation (message : String)
  | notFound (message : String)

/-- The provider that `fetch_rule_quota` queries. -/
def fetchRuleQuotaRule (config : ProxyConfig) (groupId ruleId : String) : Except String Rule :=
  match config.groups.find? (·.id = groupId) with
  | none => .error ("group not found: " ++ groupId)
  | some group =>
    match group.providers with
    | none => .error ("group has no providers: " ++ groupId)
    | some providers =>
      match providers.find? (·.id = ruleId) with
      | none => .error ("rule not found: " ++ ruleId)
      | some rule => .ok rule

/-- The lookup of `resolve_provider_for_test` in a group: its copies come first. -/
def resolveProviderInGroup (config : ProxyConfig) (group : Group) (groupId providerId : String) :
    Except LookupError Rule :=
  match (group.providers.getD []).find? (·.id = trimmed providerId) with
  | some provider => .ok provider
  | none =>
    let isRouted := group.routingTable.any fun route =>
      trimmed route.providerId = trimmed providerId
    let found := if isRouted then config.providers.find? (·.id = trimmed providerId) else none
    match found with
    | some provider => .ok provider
    | none => .error (.notFound ("provider not found in group " ++ groupId ++ ": " ++ providerId))

/-- `resolve_provider_for_test` -/
def resolveProviderForTest (config : ProxyConfig) (groupId : Option String) (providerId : String) :
    Except LookupError Rule :=
  if trimmed providerId = "" then .error (.validation "provider id is required")
  else
    match (groupId.map trimmed).filter (· ≠ "") with
    | some groupId =>
      match config.groups.find? (·.id = groupId) with
      | none => .error (.notFound ("group not found: " ++ groupId))
      | some group => resolveProviderInGroup config group groupId providerId
    | none =>
      match config.providers.find? (·.id = trimmed providerId) with
      | some provider => .ok provider
      | none => .error (.notFound ("provider not found: " ++ providerId))

/-- The router, the test and the quota query find one record for an entry of a group. -/
def SameRecord (config : ProxyConfig) (group : Group) (entry : RouteEntry) : Prop :=
  ∃ provider,
    (∀ route requestModel, selectEntry route.routingTable requestModel = some entry →
      ∃ resolved, resolveRuntimeActiveRoute config route requestModel = .ok resolved ∧
        resolved.rule = provider) ∧
    resolveProviderForTest config (some group.id) entry.providerId = .ok provider ∧
    fetchRuleQuotaRule config group.id entry.providerId = .ok provider

/-! ### Saved configurations -/

variable {env : SaveEnv}

theorem accepted_of_accept {call : SaveCall} {normalized : ProxyConfig}
    (h : call.accept env = .ok normalized) :
    ∃ config, acceptConfig env.normalize config = .ok normalized := by
  cases call with
  | saveConfig nextConfig => exact ⟨nextConfig, h⟩
  | save nextConfig =>
    obtain ⟨migrated, -, h⟩ := bind_eq_ok_iff.1 h
    obtain ⟨config, -, h⟩ := bind_eq_ok_iff.1 h
    exact ⟨config, h⟩

theorem eq_of_saveNormalized {now : ℤ} {faults : SaveFaults} {normalized saved : ProxyConfig}
    {s : StoreState} (h : (saveNormalized env now faults normalized s).1 = .ok saved) :
    normalized = saved ∧ DistinctKeys normalized := by
  unfold saveNormalized at h
  rcases hfault : faults.database with _ | message
  · rw [hfault] at h
    by_cases hdistinct : DistinctKeys normalized
    · rw [saveConfigToDb_of_distinct hdistinct] at h
      dsimp only at h
      rcases writeFile_cases env faults normalized s.file with
        ⟨-, message, hwrite⟩ | ⟨-, hwrite⟩
      · rw [hwrite] at h
        cases h
      · rw [hwrite] at h
        exact ⟨Except.ok.inj h, hdistinct⟩
    · obtain ⟨message, hmessage⟩ := saveConfigToDb_of_not_distinct hdistinct now
      rw [hmessage] at h
      cases h
  · rw [hfault] at h
    cases h

/-- **A configuration that a save returns is normalised and valid, and its keys are distinct.** -/
theorem saved_of_perform {now : ℤ} {faults : SaveFaults} {call : SaveCall} {s : StoreState}
    {saved : ProxyConfig} (h : (call.perform env now faults s).1 = .ok saved) :
    (∃ stored, ComesFrom stored saved) ∧ Valid saved ∧ DistinctKeys saved := by
  unfold SaveCall.perform at h
  cases hcall : call.accept env with
  | error message =>
    rw [hcall] at h
    cases h
  | ok normalized =>
    rw [hcall] at h
    obtain ⟨rfl, hdistinct⟩ := eq_of_saveNormalized h
    obtain ⟨config, hconfig⟩ := accepted_of_accept hcall
    obtain ⟨rfl, hvalid⟩ := acceptConfig_eq_ok_iff.1 hconfig
    exact ⟨exists_comesFrom env.normalize config, validateConfig_ok_iff.1 hvalid, hdistinct⟩

theorem find_eq_some_of_unique {α : Type} {xs : List α} {key : α → String} {x : α} {k : String}
    (hmem : x ∈ xs) (hkey : key x = k) (honly : ∀ y ∈ xs, key y = k → y = x) :
    xs.find? (fun y => key y = k) = some x := by
  cases hfind : xs.find? (fun y => key y = k) with
  | none => exact absurd (decide_eq_true hkey) (List.find?_eq_none.1 hfind x hmem)
  | some found =>
    have hfound := List.find?_some hfind
    rw [honly found (List.mem_of_find?_eq_some hfind) (of_decide_eq_true hfound)]

section Saved

variable {stored : HashMap Rule} {config : ProxyConfig} {group : Group}

theorem mem_providers_iff (hvalid : Valid config) (hfrom : ComesFrom stored config)
    (hgroup : group ∈ config.groups) {provider : Rule} :
    provider ∈ group.providers.getD [] ↔
      provider.id ∈ group.providerIds.getD [] ∧ stored.get provider.id = some provider := by
  obtain ⟨ids, hids, -, hproviders⟩ := hfrom.groups group hgroup
  rw [hids, hproviders, Option.getD_some, Option.getD_some, List.mem_filterMap]
  constructor
  · rintro ⟨id, hmem, hget⟩
    have hid := hvalid.id_of_get hfrom hgroup hids hproviders hmem hget
    rw [hid]
    exact ⟨hmem, hget⟩
  · intro h
    exact ⟨provider.id, h.1, h.2⟩

theorem get_of_listed (hfrom : ComesFrom stored config) (hgroup : group ∈ config.groups)
    {provider : Rule} (hmem : provider ∈ config.providers)
    (hlisted : provider.id ∈ group.providerIds.getD []) :
    trimmed provider.id = provider.id ∧ stored.get provider.id = some provider := by
  obtain ⟨ids, hids, hkeys, -⟩ := hfrom.groups group hgroup
  rw [hids, Option.getD_some] at hlisted
  have htrimmed := hfrom.isStore.trimmed_key (hkeys provider.id hlisted)
  obtain ⟨key, hget⟩ := hfrom.exists_get hmem
  have hkey := hfrom.isStore.id hget
  rw [htrimmed] at hkey
  exact ⟨htrimmed, hkey ▸ hget⟩

theorem isWhitespace_of_isAlphanum {c : Char} (h : c.isAlphanum = true) :
    Text.isWhitespace c = false := by
  have hrange : 48 ≤ c.toNat ∧ c.toNat ≤ 122 := by
    simp only [Char.isAlphanum, Char.isAlpha, Char.isUpper, Char.isLower, Char.isDigit,
      Bool.or_eq_true, Bool.and_eq_true, decide_eq_true_eq] at h
    rcases h with (⟨hlow, hhigh⟩ | ⟨hlow, hhigh⟩) | ⟨hlow, hhigh⟩
    · have hl : 65 ≤ c.toNat := hlow
      have hh : c.toNat ≤ 90 := hhigh
      omega
    · have hl : 97 ≤ c.toNat := hlow
      have hh : c.toNat ≤ 122 := hhigh
      omega
    · have hl : 48 ≤ c.toNat := hlow
      have hh : c.toNat ≤ 57 := hhigh
      omega
  simp only [Text.isWhitespace, Bool.or_eq_false_iff, Bool.and_eq_false_iff,
    decide_eq_false_iff_not]
  omega

theorem trimmed_groupId (hvalid : Valid config) (hgroup : group ∈ config.groups) :
    trimmed group.id = group.id := by
  refine trimmed_of_forall fun c hc => ?_
  have hchar := List.all_eq_true.1 (hvalid.groups group hgroup).chars c hc
  rw [Bool.or_eq_true, Bool.or_eq_true, decide_eq_true_eq, decide_eq_true_eq] at hchar
  rcases hchar with (halnum | rfl) | rfl
  · exact isWhitespace_of_isAlphanum halnum
  · decide
  · decide

theorem find_group (hdistinct : DistinctKeys config) (hgroup : group ∈ config.groups) :
    config.groups.find? (·.id = group.id) = some group :=
  find_eq_some_of_unique hgroup rfl fun _ hother hid =>
    List.inj_on_of_nodup_map hdistinct.1 hother hgroup hid

end Saved

/-! ### One record for all features -/

section SameRecord

variable {stored : HashMap Rule} {config : ProxyConfig} {group : Group} {entry : RouteEntry}
  {provider : Rule}

theorem mem_of_fetchRuleQuotaRule (hdistinct : DistinctKeys config)
    (hgroup : group ∈ config.groups)
    (h : fetchRuleQuotaRule config group.id entry.providerId = .ok provider) :
    provider ∈ group.providers.getD [] ∧ provider.id = entry.providerId := by
  unfold fetchRuleQuotaRule at h
  rw [find_group hdistinct hgroup] at h
  dsimp only at h
  cases hproviders : group.providers with
  | none =>
    rw [hproviders] at h
    cases h
  | some providers =>
    rw [hproviders] at h
    dsimp only at h
    cases hfind : providers.find? (·.id = entry.providerId) with
    | none =>
      rw [hfind] at h
      cases h
    | some found =>
      rw [hfind] at h
      obtain rfl : found = provider := Except.ok.inj h
      have hid := List.find?_some hfind
      exact ⟨List.mem_of_find?_eq_some hfind, of_decide_eq_true hid⟩

theorem sameRecord_of_find (hvalid : Valid config) (hdistinct : DistinctKeys config)
    (hgroup : group ∈ config.groups) (htrimmed : trimmed entry.providerId = entry.providerId)
    (hne : entry.providerId ≠ "")
    (hglobal : config.providers.find? (·.id = entry.providerId) = some provider)
    (hcopy : (group.providers.getD []).find? (·.id = entry.providerId) = some provider) :
    SameRecord config group entry := by
  refine ⟨provider, ?_, ?_, ?_⟩
  · intro route requestModel hselect
    refine ⟨{ route with routingTable := [entry], rule := provider }, ?_, rfl⟩
    rw [resolveRuntimeActiveRoute, hselect]
    dsimp only
    rw [hglobal]
  · have hgroupId : (some (trimmed group.id)).filter (· ≠ "") = some group.id := by
      rw [trimmed_groupId hvalid hgroup]
      have hid := (hvalid.groups group hgroup).id
      rw [trimmed_groupId hvalid hgroup] at hid
      simp [hid]
    rw [resolveProviderForTest, htrimmed, if_neg hne, Option.map_some, hgroupId]
    dsimp only
    rw [find_group hdistinct hgroup]
    dsimp only
    rw [resolveProviderInGroup, htrimmed, hcopy]
  · rw [fetchRuleQuotaRule, find_group hdistinct hgroup]
    cases hproviders : group.providers with
    | none =>
      rw [hproviders] at hcopy
      cases hcopy
    | some providers =>
      rw [hproviders, Option.getD_some] at hcopy
      dsimp only
      rw [hproviders]
      dsimp only
      rw [hcopy]

end SameRecord

/-- **The router, the model test and the quota query find one record for an entry of a saved
group exactly when the group lists the id of the provider.**  The entry is of the group's table,
or any other one that names a stored provider. -/
theorem sameRecord_iff {env : SaveEnv} {now : ℤ} {faults : SaveFaults} {call : SaveCall}
    {s : StoreState} {saved : ProxyConfig} (h : (call.perform env now faults s).1 = .ok saved)
    {group : Group} (hgroup : group ∈ saved.groups) {entry : RouteEntry} {provider : Rule}
    (hprovider : provider ∈ saved.providers) (hid : provider.id = entry.providerId) :
    SameRecord saved group entry ↔ entry.providerId ∈ group.providerIds.getD [] := by
  obtain ⟨⟨stored, hfrom⟩, hvalid, hdistinct⟩ := saved_of_perform h
  constructor
  · rintro ⟨found, -, -, hquota⟩
    obtain ⟨hmem, hfound⟩ := mem_of_fetchRuleQuotaRule hdistinct hgroup hquota
    rw [← hfound]
    exact ((mem_providers_iff hvalid hfrom hgroup).1 hmem).1
  · intro hlisted
    rw [← hid] at hlisted
    obtain ⟨htrimmed, hget⟩ := get_of_listed hfrom hgroup hprovider hlisted
    have hne := hvalid.providers.id provider hprovider
    rw [htrimmed] at hne
    have hcopy := (mem_providers_iff hvalid hfrom hgroup).2 ⟨hlisted, hget⟩
    refine sameRecord_of_find hvalid hdistinct hgroup (hid ▸ htrimmed) (hid ▸ hne)
      (@find_eq_some_of_unique _ _ Rule.id provider _ hprovider hid ?_)
      (@find_eq_some_of_unique _ _ Rule.id provider _ hcopy hid ?_)
    · intro other hother hsame
      exact List.inj_on_of_nodup_map hvalid.providers.nodup hother hprovider (hsame.trans hid.symm)
    · intro other hother hsame
      -- an embedded provider is the stored one with its id
      have hstored := ((mem_providers_iff hvalid hfrom hgroup).1 hother).2
      rw [hsame, ← hid, hget, Option.some_inj] at hstored
      exact hstored.symm

/-- The table of the group routes to a provider that the group does not list. -/
def unlistedRouteConfig : ProxyConfig :=
  { oneRouteConfig "p1" with
    groups := (oneRouteConfig "p1").groups.map fun group => { group with providerIds := none } }

/-- The router and the model test find the provider, and the quota query does not. -/
theorem not_sameRecord_unlisted :
    ∃ saved group entry provider,
      ((SaveCall.saveConfig unlistedRouteConfig).perform SaveEnv.plain 1 {}
        StoreState.empty).1 = .ok saved ∧
      saved.groups = [group] ∧ group.routingTable = [entry] ∧ saved.providers = [provider] ∧
      provider.id = entry.providerId ∧
      resolveProviderForTest saved (some group.id) entry.providerId = .ok provider ∧
      fetchRuleQuotaRule saved group.id entry.providerId = .error "rule not found: p1" ∧
      ¬ SameRecord saved group entry := by
  refine ⟨_, _, _, _, rfl, rfl, rfl, rfl, rfl, rfl, rfl, ?_⟩
  rintro ⟨_, -, -, hquota⟩
  cases hquota

theorem sameRecord_oneRoute :
    ∃ saved group entry,
      ((SaveCall.saveConfig (oneRouteConfig "p1")).perform SaveEnv.plain 1 {}
        StoreState.empty).1 = .ok saved ∧
      saved.groups = [group] ∧ group.routingTable = [entry] ∧ SameRecord saved group entry := by
  refine ⟨_, _, _, rfl, rfl, rfl, ?_⟩
  have hsame := @sameRecord_iff SaveEnv.plain 1 {} (.saveConfig (oneRouteConfig "p1"))
    StoreState.empty _ rfl _ List.mem_cons_self ⟨"default", "p1", "gpt"⟩ _ List.mem_cons_self rfl
  exact hsame.2 List.mem_cons_self

end AiOpenRouter
