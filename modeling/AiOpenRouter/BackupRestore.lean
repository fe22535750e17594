/-
A backup of the groups and the providers that is imported again.

The payload holds a provider with its groups and among the providers, so that
normalisation compares what it reads of the one with what it reads of the other.

* `BackupRestored`: in every order of the hash maps, the import gives the groups and
  the providers back;
* `ProxyConfig.MeetsInOneOrder`: what is compared has one order;
* `backupRestored_iff`: the backup is restored exactly when it has.
-/
import AiOpenRouter.ConfigSaves
import AiOpenRouter.GroupsBackup
import AiOpenRouter.NormalForms

namespace AiOpenRouter

/-- A configuration that `ConfigStore::save_config` has returned. -/
def Saved (config : ProxyConfig) : Prop :=
  ∃ (env : NormalizeEnv) (next : ProxyConfig) (store store' : ConfigStore),
    store.saveConfig env next = (.ok config, store')

/-- **The backup is restored**: whatever the order of the hash maps, its import succeeds, and gives
the groups and the providers back, beside the settings of the store. -/
def BackupRestored (toStr : Json → String) (now : String) (backup : ProxyConfig)
    (store : ConfigStore) : Prop :=
  ∀ env : RestartEnv, env.normalize.toStr = toStr →
    ∃ restored store', importGroupsPayload env
        (createGroupsBackupPayload now backup.groups backup.providers).toJson store =
          (.ok restored, store') ∧
      restored.SameAs
        { store.config with groups := backup.groups, providers := backup.providers }

def ProxyConfig.Meets (config : ProxyConfig) (n : ℕ) (rule : Rule) : Prop :=
  rule ∈ config.providers ∨ ∃ group ∈ config.groups.take n, rule ∈ group.providers.getD []

/-- What is met again has at most one entry in each of its maps. -/
def ProxyConfig.MeetsInOneOrder (config : ProxyConfig) : Prop :=
  ∀ n group, config.groups[n]? = some group → ∀ rule ∈ group.providers.getD [],
    config.Meets n rule → rule.HasSingleMaps

/-! ### Saves that succeed -/

theorem exists_persist_iff {groups : List Group} {providers : List Rule} {disk : Disk} :
    (∃ disk', persistGroupsAndProviders groups providers disk = .ok disk') ↔
      (groups.map Group.id).Nodup ∧ (providers.map Rule.id).Nodup := by
  unfold persistGroupsAndProviders
  constructor
  · rintro ⟨disk', h⟩
    rw [bind_eq_ok_iff] at h
    obtain ⟨groupRecords, hgroups, h⟩ := h
    rw [bind_eq_ok_iff] at h
    obtain ⟨providerRecords, hproviders, -⟩ := h
    constructor
    · by_contra hnot
      obtain ⟨message, herror⟩ := @foldlM_insertRecord_eq_error Group "group"
        "group_records.group_id" (fun group => (group.id, group.toJson)) groups [] List.nodup_nil
        hnot
      rw [hgroups] at herror
      cases herror
    · by_contra hnot
      obtain ⟨message, herror⟩ := @foldlM_insertRecord_eq_error Rule "provider"
        "provider_records.provider_id" (fun provider => (provider.id, provider.toJson)) providers []
        List.nodup_nil hnot
      rw [hproviders] at herror
      cases herror
  · rintro ⟨hgroups, hproviders⟩
    rw [@foldlM_insertRecord_eq_ok Group "group" "group_records.group_id"
      (fun group => (group.id, group.toJson)) groups [] hgroups,
      @foldlM_insertRecord_eq_ok Rule "provider" "provider_records.provider_id"
      (fun provider => (provider.id, provider.toJson)) providers [] hproviders]
    exact ⟨_, rfl⟩

variable {rule : Rule} {backup config : ProxyConfig} {store : ConfigStore} {env : NormalizeEnv}
  {toStr : Json → String}

/-- **A save succeeds** when the normal form is valid, and its ids are distinct. -/
theorem exists_saveConfig_iff {next saved : ProxyConfig} :
    (∃ store', store.saveConfig env next = (.ok saved, store')) ↔
      normalizeConfigForStorage env next = saved ∧ Valid saved ∧ DistinctKeys saved := by
  have hpersist : ∀ config : ProxyConfig, (∃ disk, store.disk.store config = .ok disk) ↔
      DistinctKeys config := by
    intro config
    refine Iff.trans ?_ (@exists_persist_iff _ _ store.disk)
    unfold Disk.store
    cases persistGroupsAndProviders config.groups config.providers store.disk with
    | error message => exact ⟨fun ⟨_, h⟩ => (nomatch h), fun ⟨_, h⟩ => (nomatch h)⟩
    | ok disk => exact ⟨fun _ => ⟨_, rfl⟩, fun _ => ⟨_, rfl⟩⟩
  rw [← validateConfig_ok_iff, ← hpersist saved, ← and_assoc, ← acceptConfig_eq_ok_iff]
  constructor
  · rintro ⟨store', h⟩
    obtain ⟨haccept, disk, hdisk, -⟩ := saveConfig_eq_ok_iff.1 h
    exact ⟨haccept, disk, hdisk⟩
  · rintro ⟨haccept, disk, hdisk⟩
    exact ⟨_, saveConfig_eq_ok_iff.2 ⟨haccept, disk, hdisk, rfl⟩⟩

/-! ### What the backup is read as -/

def restoring (env : ReadEnv) (backup prev : ProxyConfig) : ProxyConfig :=
  importConfig prev (backup.groups.mapIdx fun n group => group.readAt env [n, 0])
    (backup.providers.mapIdx fun i rule => rule.readAt env [i, 1])

theorem importedGroups_toJson (env : ReadEnv) (what : String) (groups : List Group) :
    importedGroups env what (.arr (groups.map Group.toJson)) =
      .ok (groups.mapIdx fun n group => group.readAt env [n, 0]) := by
  rw [importedGroups, @Decode.listAt_mapIdx Group (fun i => Decode.group env [i, 0]) Group.toJson
    (fun n group => group.readAt env [n, 0]) fun n group => Decode.group_toJson_read env _ group]

theorem importedProviders_toJson (env : ReadEnv) (what : String) (providers : List Rule) :
    importedProviders env what (.arr (providers.map Rule.toJson)) =
      .ok (providers.mapIdx fun i rule => rule.readAt env [i, 1]) := by
  rw [importedProviders, @Decode.listAt_mapIdx Rule (fun i => Decode.rule env [i, 1]) Rule.toJson
    (fun i rule => rule.readAt env [i, 1]) fun i rule => Decode.rule_toJson_read env _ rule]

theorem extract_createGroupsBackupPayload (env : ReadEnv) (now : String) (groups : List Group)
    (providers : List Rule) :
    extractGroupsAndProvidersFromImportPayload env
        (createGroupsBackupPayload now groups providers).toJson =
      .ok (groups.mapIdx fun n group => group.readAt env [n, 0],
        providers.mapIdx fun i rule => rule.readAt env [i, 1]) := by
  have hproviders : payloadProviders env (createGroupsBackupPayload now groups providers).toJson =
      .ok (providers.mapIdx fun i rule => rule.readAt env [i, 1]) := by
    cases providers with
    | nil => rfl
    | cons rule providers =>
      have hget : (createGroupsBackupPayload now groups (rule :: providers)).toJson.get
          "providers" =
          some (.arr ((rule :: providers).map Rule.toJson)) := rfl
      rw [payloadProviders, hget]
      exact importedProviders_toJson env _ _
  have hgroups : payloadGroups env (createGroupsBackupPayload now groups providers).toJson =
      .ok (groups.mapIdx fun n group => group.readAt env [n, 0]) := by
    have hget : (createGroupsBackupPayload now groups providers).toJson.get "groups" =
        some (.arr (groups.map Group.toJson)) := rfl
    have harray : (createGroupsBackupPayload now groups providers).toJson.asArray = none := rfl
    rw [payloadGroups, harray, hget]
    exact importedGroups_toJson env _ _
  rw [extractGroupsAndProvidersFromImportPayload, hproviders, hgroups]
  rfl

theorem importGroupsPayload_backup (env : RestartEnv) (now : String) (backup : ProxyConfig)
    (store : ConfigStore) :
    importGroupsPayload env (createGroupsBackupPayload now backup.groups backup.providers).toJson
        store =
      store.saveConfig env.normalize (restoring env.read backup store.config) := by
  rw [importGroupsPayload, extract_createGroupsBackupPayload]
  rfl

/-! ### What is saved is accepted again -/

theorem saved_of_saveConfig {next saved : ProxyConfig} {store' : ConfigStore}
    (h : store.saveConfig env next = (.ok saved, store')) : Saved saved ∧ Saved store'.config := by
  obtain ⟨-, disk, -, heq⟩ := saveConfig_eq_ok_iff.1 h
  have hconfig : store'.config = saved := heq ▸ rfl
  rw [hconfig]
  exact ⟨⟨env, next, store, store', h⟩, env, next, store, store', h⟩

theorem Saved.valid (h : Saved config) : Valid config := by
  obtain ⟨env, next, store, store', hsave⟩ := h
  exact (exists_saveConfig_iff.1 ⟨store', hsave⟩).2.1

theorem Saved.distinctKeys (h : Saved config) : DistinctKeys config := by
  obtain ⟨env, next, store, store', hsave⟩ := h
  exact (exists_saveConfig_iff.1 ⟨store', hsave⟩).2.2

theorem Saved.exists_settled (h : Saved config) : ∃ final, Settled final config := by
  obtain ⟨env, next, store, store', hsave⟩ := h
  obtain ⟨rfl, -⟩ := exists_saveConfig_iff.1 ⟨store', hsave⟩
  exact AiOpenRouter.exists_settled env next

/-- The checks of the settings and those of the groups and providers are apart. -/
theorem Valid.replace {prev : ProxyConfig} (hprev : Valid prev) (hbackup : Valid backup) :
    Valid { prev with groups := backup.groups, providers := backup.providers } := by
  refine ⟨⟨hprev.settings.version, hprev.settings.host, hprev.settings.port, hprev.settings.token,
    hprev.settings.theme, hprev.settings.locale, hprev.settings.localeMode, hprev.settings.minutes,
    hprev.settings.branch⟩, hbackup.providers, fun group hmem => ?_⟩
  have hgroup := hbackup.groups group hmem
  exact ⟨hgroup.id, hgroup.chars, hgroup.name, hgroup.providerId, hgroup.provider, hgroup.active⟩

theorem map_groupId_of_sameAs {groups groups' : List Group}
    (h : List.Forall₂ Group.SameAs groups groups') :
    groups.map Group.id = groups'.map Group.id := by
  induction h with
  | nil => rfl
  | cons hsame _ ih =>
    have hid := congrArg Group.id hsame.rest
    rw [List.map_cons, List.map_cons, ih]
    exact congrArg (· :: _) hid

theorem backupRestored_iff_normal {now : String} (hbackup : Saved backup)
    (hstore : Saved store.config) :
    BackupRestored toStr now backup store ↔
      ∀ env : RestartEnv, env.normalize.toStr = toStr →
        List.Forall₂ Group.SameAs (normalizeConfigForStorage env.normalize
            (restoring env.read backup store.config)).groups backup.groups ∧
          List.Forall₂ Rule.SameAs (normalizeConfigForStorage env.normalize
            (restoring env.read backup store.config)).providers backup.providers := by
  have htarget : Valid { store.config with
      groups := backup.groups, providers := backup.providers } :=
    hstore.valid.replace hbackup.valid
  refine forall_congr' fun env => imp_congr_right fun _ => ?_
  rw [importGroupsPayload_backup]
  constructor
  · rintro ⟨restored, store', hsave, hsame⟩
    obtain ⟨rfl, -⟩ := exists_saveConfig_iff.1 ⟨store', hsave⟩
    exact ⟨hsame.groups, hsame.providers⟩
  · rintro ⟨hgroups, hproviders⟩
    have hsame : (normalizeConfigForStorage env.normalize
        (restoring env.read backup store.config)).SameAs
          { store.config with groups := backup.groups, providers := backup.providers } :=
      ⟨rfl, hproviders, hgroups⟩
    have hdistinct : DistinctKeys (normalizeConfigForStorage env.normalize
        (restoring env.read backup store.config)) := by
      obtain ⟨hgroupIds, hproviderIds⟩ := hbackup.distinctKeys
      exact ⟨map_groupId_of_sameAs hgroups ▸ hgroupIds, map_id_of_sameAs hproviders ▸ hproviderIds⟩
    obtain ⟨store', hsave⟩ := exists_saveConfig_iff.2 ⟨rfl, htarget.sameAs hsame, hdistinct⟩
    exact ⟨_, store', hsave, hsame⟩

/-! ### The providers that the groups embed -/

def firstProviders (rules : List Rule) : List Rule :=
  rules.foldl (fun all rule => if all.any (·.id = rule.id) then all else all ++ [rule]) []

theorem allProviders_eq (groups : List Group) :
    allProviders groups = firstProviders (groups.flatMap fun group =>
      group.providers.getD []) := rfl

theorem firstProviders_append_singleton (rules : List Rule) (rule : Rule) :
    firstProviders (rules ++ [rule]) =
      if rule.id ∈ (firstProviders rules).map Rule.id then firstProviders rules
      else firstProviders rules ++ [rule] := by
  have hany : (firstProviders rules).any (fun other => other.id = rule.id) = true ↔
      rule.id ∈ (firstProviders rules).map Rule.id := by simp
  conv_lhs => rw [firstProviders, List.foldl_append, List.foldl_cons, List.foldl_nil]
  exact if_congr hany rfl rfl

theorem map_id_firstProviders (rules : List Rule) :
    ((firstProviders rules).map Rule.id).Nodup ∧
      ∀ id, id ∈ (firstProviders rules).map Rule.id ↔ id ∈ rules.map Rule.id := by
  induction rules using List.reverseRecOn with
  | nil => exact ⟨List.nodup_nil, fun _ => Iff.rfl⟩
  | append_singleton rules rule ih =>
    obtain ⟨hnodup, hids⟩ := ih
    rw [firstProviders_append_singleton, List.map_append, List.map_singleton]
    by_cases hmem : rule.id ∈ (firstProviders rules).map Rule.id
    · rw [if_pos hmem]
      refine ⟨hnodup, fun id => ?_⟩
      rw [hids, List.mem_append, List.mem_singleton]
      constructor
      · exact .inl
      · rintro (h | rfl)
        · exact h
        · exact (hids _).1 hmem
    · rw [if_neg hmem, List.map_append, List.map_singleton]
      refine ⟨List.nodup_append_comm.1 (List.nodup_cons.2 ⟨hmem, hnodup⟩), fun id => ?_⟩
      rw [List.mem_append, List.mem_append, hids]

theorem mem_of_mem_firstProviders {rules : List Rule} (h : rule ∈ firstProviders rules) :
    rule ∈ rules := by
  induction rules using List.reverseRecOn with
  | nil => exact h
  | append_singleton rules other ih =>
    rw [firstProviders_append_singleton] at h
    split_ifs at h
    · exact List.mem_append_left _ (ih h)
    · rcases List.mem_append.1 h with h | h
      · exact List.mem_append_left _ (ih h)
      · exact List.mem_append_right _ h

theorem prefix_firstProviders (before after : List Rule) :
    firstProviders before <+: firstProviders (before ++ after) := by
  induction after using List.reverseRecOn with
  | nil => rw [List.append_nil]
  | append_singleton after rule ih =>
    rw [← List.append_assoc, firstProviders_append_singleton]
    split_ifs
    · exact ih
    · exact ih.trans (List.prefix_append _ _)

theorem mem_firstProviders {before after : List Rule} (h : rule.id ∉ before.map Rule.id) :
    rule ∈ firstProviders (before ++ rule :: after) := by
  rw [List.append_cons]
  refine (prefix_firstProviders (before ++ [rule]) after).subset ?_
  rw [firstProviders_append_singleton, if_neg fun hmem =>
    h ((map_id_firstProviders _).2 _ |>.mp hmem)]
  exact List.mem_append_right _ List.mem_cons_self

theorem firstProviders_replace {before after : List Rule} {rule' : Rule} (hid : rule'.id = rule.id)
    (h : rule.id ∈ before.map Rule.id) :
    firstProviders (before ++ rule' :: after) = firstProviders (before ++ rule :: after) := by
  have hskip : ∀ other : Rule, other.id = rule.id →
      firstProviders (before ++ [other]) = firstProviders before := by
    intro other hother
    rw [firstProviders_append_singleton,
      if_pos (((map_id_firstProviders before).2 _).2 (hother ▸ h))]
  have hrest : ∀ other : Rule, other.id = rule.id →
      firstProviders (before ++ other :: after) = after.foldl
        (fun all rule => if all.any (·.id = rule.id) then all else all ++ [rule])
          (firstProviders before) := by
    intro other hother
    rw [← hskip other hother, List.append_cons, firstProviders, List.foldl_append]
    rfl
  rw [hrest rule' hid, hrest rule rfl]

/-! ### Restoring what has one order -/

theorem Rule.IsNormal.normalize_eq_self (h : rule.IsNormal) (hmodels : rule.models = [])
    {order : HashMap RuleCostConfig → HashMap RuleCostConfig}
    (horder : ∀ costs, (order costs).SameAs costs) :
    normalizeProviderForStorage order rule = rule := by
  have hempty : rule.modelCosts.entries = [] := by
    refine List.eq_nil_iff_forall_not_mem.2 fun entry hentry => ?_
    have hvalid := (h.keys entry hentry).2
    rw [hmodels] at hvalid
    cases hvalid
  have hcosts := (h.normalize_sameAs horder).symm.modelCosts.eq_of_length_le_one
    (by rw [hempty]; exact Nat.zero_le 1)
  rw [normalize_eq] at hcosts ⊢
  exact congrArg (fun costs => { rule with modelCosts := costs }) hcosts.symm

theorem mem_keys_globalProviders (env : NormalizeEnv) (providers : List Rule) (key : String) :
    key ∈ (globalProviders env providers).keys ↔
      key ≠ "" ∧ key ∈ providers.map fun provider => trimmed provider.id := by
  rw [globalProviders_eq, mem_keys_globalBefore, List.take_length]

section Restoring

variable {env : NormalizeEnv} {final stored start : HashMap Rule} {backup : ProxyConfig}
  {groups : List Group} {group group' : Group} {n : ℕ}

variable {provider source : Rule}

theorem Settled.embedded (h : Settled final backup) (hvalid : Valid backup)
    (hmem : group ∈ backup.groups) (hsame : group'.SameAs group)
    (hprovider : provider ∈ group'.providers.getD []) :
    ∃ source ∈ group.providers.getD [], provider.SameAs source ∧
      final.get provider.id = some source ∧ trimmed provider.id = provider.id ∧
        provider.id ≠ "" := by
  obtain ⟨ids, hids, hexact⟩ := h.exact hvalid hmem
  obtain ⟨i, hi⟩ := List.mem_iff_getElem?.mp hprovider
  obtain ⟨hid, source, hsource, hrel, hget⟩ :=
    hids.turn hexact hsame (List.mk_mem_zipIdx_iff_getElem?.mpr hi)
  exact ⟨source, hsource, hrel, hget, h.isStore.trimmed_key (hids.stored _ hid),
    hids.nonBlank _ hid⟩

theorem turnsFit_of_meets (h : Settled final backup) (hvalid : Valid backup)
    (hone : backup.MeetsInOneOrder) (hgroup : backup.groups[n]? = some group)
    (hsame : group'.SameAs group) (hreflects : Reflects final stored) {place : ℕ}
    (hmeets : ∀ provider ∈ (group'.providers.getD []).zipIdx, ∀ existing source,
      stored.get provider.1.id = some existing → final.get provider.1.id = some source →
        backup.Meets n source ∨ existing = embeddedRule env place provider) :
    TurnsFit env place stored (group'.providers.getD []).zipIdx := by
  intro provider hprovider existing hget
  have hin : provider.1 ∈ group'.providers.getD [] := by
    obtain ⟨-, -, heq⟩ := List.mem_zipIdx hprovider
    exact heq ▸ List.getElem_mem _
  obtain ⟨source, hsource, hrel, hfinal, htrimmed, -⟩ :=
    h.embedded hvalid (List.mem_of_getElem? hgroup) hsame hin
  rw [htrimmed] at hget
  rcases hmeets provider hprovider existing source hget hfinal with hmet | heq
  · have hsingle := hone n group hgroup source hsource hmet
    obtain ⟨source', hfinal', hexisting⟩ := hreflects _ _ hget
    rw [hfinal, Option.some_inj] at hfinal'
    subst hfinal'
    have hrule : (embeddedRule env place provider).SameAs source :=
      embeddedRule_sameAs_source h.normal hfinal hrel
    rw [← hexisting.symm.eq_of_hasSingleMaps hsingle, ← hrule.symm.eq_of_hasSingleMaps hsingle]
  · exact heq

variable {before after : List Group}

theorem Settled.meets_of_before (h : Settled final backup) (hvalid : Valid backup)
    (hgroups : List.Forall₂ Group.SameAs (before ++ group' :: after) backup.groups) {other : Group}
    (hother : other ∈ before) (hprovider : provider ∈ other.providers.getD [])
    (hget : final.get provider.id = some source) : backup.Meets before.length source := by
  have htake := List.forall₂_take before.length hgroups
  rw [List.take_left] at htake
  obtain ⟨earlier, hearlier, hsame⟩ := exists_mem_of_forall₂ htake hother
  obtain ⟨source', hsource', -, hget', -⟩ :=
    h.embedded hvalid (List.mem_of_mem_take hearlier) hsame hprovider
  rw [hget, Option.some_inj] at hget'
  exact .inr ⟨earlier, hearlier, hget' ▸ hsource'⟩

theorem Settled.meets_of_reached (h : Settled final backup) (hvalid : Valid backup)
    (hgroups : List.Forall₂ Group.SameAs (before ++ group' :: after) backup.groups)
    (hreached : Reached final start stored before) {key : String} {existing : Rule}
    (hget : stored.get key = some existing) (hnew : key ∉ start.keys)
    (hfinal : final.get key = some source) : backup.Meets before.length source := by
  obtain ⟨other, hother, provider, hprovider, rfl⟩ :=
    hreached.embedded (HashMap.mem_keys_of_get hget) hnew
  obtain ⟨earlier, hearlier, hsame⟩ :=
    exists_mem_of_forall₂ hgroups (List.mem_append_left _ hother)
  obtain ⟨-, -, -, -, htrimmed, -⟩ := h.embedded hvalid hearlier hsame hprovider
  rw [htrimmed] at hfinal
  exact h.meets_of_before hvalid hgroups hother hprovider hfinal

theorem exists_right_of_rel {α β : Type} {R : α → β → Prop} {x : α} {y : Option β}
    (h : Option.Rel R (some x) y) : ∃ b, y = some b ∧ R x b := by
  cases h with
  | some hR => exact ⟨_, rfl, hR⟩

theorem getElem?_of_forall₂_append {α β : Type} {R : α → β → Prop} {xs zs : List α} {x : α}
    {ys : List β} (h : List.Forall₂ R (xs ++ x :: zs) ys) :
    ∃ y, ys[xs.length]? = some y ∧ R x y := by
  have hrel := rel_getElem? h xs.length
  rw [List.getElem?_append_right le_rfl, Nat.sub_self, List.getElem?_cons_zero] at hrel
  exact exists_right_of_rel hrel

theorem normalize_backup_of_providers (h : Settled final backup) (hvalid : Valid backup)
    (hone : backup.MeetsInOneOrder) {config : ProxyConfig}
    (hgroups : List.Forall₂ Group.SameAs config.groups backup.groups)
    (hproviders : List.Forall₂ Rule.SameAs config.providers backup.providers) :
    List.Forall₂ Group.SameAs (normalizeConfigForStorage env config).groups backup.groups ∧
      List.Forall₂ Rule.SameAs (normalizeConfigForStorage env config).providers
        backup.providers := by
  obtain ⟨hstart, hkept, hkeys⟩ := @globalProviders_settled env final backup h hvalid _ hproviders
  refine normalizeConfig_settled h hvalid hgroups hstart hkept hkeys
    fun before group' after stored hsplit hreached hreflects => ?_
  rw [hsplit] at hgroups
  obtain ⟨group, hgroup, hsame⟩ := getElem?_of_forall₂_append hgroups
  refine turnsFit_of_meets h hvalid hone hgroup hsame hreflects
    fun provider _ existing source hget hfinal => .inl ?_
  by_cases hkey : provider.1.id ∈ (globalProviders env config.providers).keys
  · obtain ⟨-, hmem⟩ := (mem_keys_globalProviders env config.providers _).1 hkey
    obtain ⟨global, hglobal, hid⟩ := List.mem_map.1 hmem
    obtain ⟨settled, hsettled, hrel⟩ := exists_mem_of_forall₂ hproviders hglobal
    have hstored := (h.get_of_mem hsettled).1
    rw [← hrel.id_eq, hid, hfinal, Option.some_inj] at hstored
    exact .inl (hstored ▸ hsettled)
  · exact h.meets_of_reached hvalid hgroups hreached hget hkey hfinal

theorem Settled.models_eq_nil (h : Settled final backup) (hnone : backup.providers = [])
    {key : String} (hget : final.get key = some source) : source.hasModels = false := by
  by_contra hmodels
  rw [Bool.not_eq_false] at hmodels
  have hmem : source ∈ backup.providers := by
    rw [h.providers]
    exact List.mem_filter.2 ⟨mem_values_of_get hget, hmodels⟩
  rw [hnone] at hmem
  cases hmem

theorem mem_allProviders (hmem : provider ∈ allProviders groups) :
    ∃ group ∈ groups, provider ∈ group.providers.getD [] :=
  List.mem_flatMap.1 (mem_of_mem_firstProviders hmem)

theorem entries_allProviders (h : Settled final backup) (hvalid : Valid backup)
    (hgroups : List.Forall₂ Group.SameAs groups backup.groups) :
    (globalProviders env (allProviders groups)).entries =
      (allProviders groups).zipIdx.map (storedEntry env 0) := by
  have hembedded : ∀ provider ∈ allProviders groups,
      trimmed provider.id = provider.id ∧ provider.id ≠ "" := by
    intro provider hmem
    obtain ⟨group', hgroup', hprovider⟩ := mem_allProviders hmem
    obtain ⟨group, hgroup, hsame⟩ := exists_mem_of_forall₂ hgroups hgroup'
    obtain ⟨-, -, -, -, hid⟩ := h.embedded hvalid hgroup hsame hprovider
    exact hid
  have hids : ((allProviders groups).map fun provider => trimmed provider.id) =
      (allProviders groups).map Rule.id :=
    List.map_congr_left fun provider hmem => (hembedded provider hmem).1
  refine entries_globalProviders env (fun provider hmem => ?_) ?_
  · rw [(hembedded provider hmem).1]
    exact (hembedded provider hmem).2
  · rw [hids]
    exact (map_id_firstProviders _).1

theorem reflects_allProviders (h : Settled final backup) (hvalid : Valid backup)
    (hgroups : List.Forall₂ Group.SameAs groups backup.groups) :
    Reflects final (globalProviders env (allProviders groups)) := by
  intro key rule hget
  have hmem := HashMap.get_eq_some_iff.1 hget
  rw [entries_allProviders h hvalid hgroups] at hmem
  obtain ⟨provider, hprovider, heq⟩ := List.mem_map.1 hmem
  obtain ⟨rfl, rfl⟩ := Prod.mk.inj heq
  have hin : provider.1 ∈ allProviders groups := by
    obtain ⟨-, -, hget⟩ := List.mem_zipIdx hprovider
    exact hget ▸ List.getElem_mem _
  obtain ⟨group', hgroup', hembedded⟩ := mem_allProviders hin
  obtain ⟨group, hgroup, hsame⟩ := exists_mem_of_forall₂ hgroups hgroup'
  obtain ⟨source, -, hrel, hfinal, htrimmed, -⟩ := h.embedded hvalid hgroup hsame hembedded
  exact ⟨source, htrimmed.symm ▸ hfinal, embeddedRule_sameAs_source h.normal hfinal hrel⟩

theorem get_allProviders_of_first (h : Settled final backup) (hvalid : Valid backup)
    (hnone : backup.providers = [])
    (hgroups : List.Forall₂ Group.SameAs (before ++ group' :: after) backup.groups)
    {provider : Rule × ℕ} (hprovider : provider ∈ (group'.providers.getD []).zipIdx)
    (hfirst : ∀ other ∈ before, provider.1.id ∉ (other.providers.getD []).map Rule.id)
    (place : ℕ) :
    (globalProviders env (allProviders (before ++ group' :: after))).get provider.1.id =
      some (embeddedRule env place provider) := by
  have hin : provider.1 ∈ group'.providers.getD [] := by
    obtain ⟨-, -, heq⟩ := List.mem_zipIdx hprovider
    exact heq ▸ List.getElem_mem _
  obtain ⟨group, hgroup, hsame⟩ := getElem?_of_forall₂_append hgroups
  have hmem := List.mem_of_getElem? hgroup
  obtain ⟨source, hsource, hrel, hfinal, htrimmed, -⟩ := h.embedded hvalid hmem hsame hin
  -- in its group, too, the provider is the first with its id
  obtain ⟨ids, hids, hexact⟩ := h.exact hvalid hmem
  have hnodup : ((group'.providers.getD []).map Rule.id).Nodup := by
    rw [map_id_of_sameAs hsame.providers_getD, hids.map_id hexact]
    exact hids.nodup
  obtain ⟨earlier, later, hsplit⟩ := List.append_of_mem hin
  have hfound : provider.1 ∈ allProviders (before ++ group' :: after) := by
    have hflat : (before ++ group' :: after).flatMap (fun group => group.providers.getD []) =
        (before.flatMap (fun group => group.providers.getD []) ++ earlier) ++ provider.1 ::
          (later ++ after.flatMap fun group => group.providers.getD []) := by
      rw [List.flatMap_append, List.flatMap_cons, hsplit]
      simp only [List.append_assoc, List.cons_append]
    rw [allProviders_eq, hflat]
    refine mem_firstProviders fun hbefore => ?_
    rw [List.map_append, List.mem_append] at hbefore
    rcases hbefore with hbefore | hbefore
    · rw [List.map_flatMap, List.mem_flatMap] at hbefore
      obtain ⟨other, hother, hid⟩ := hbefore
      exact hfirst other hother hid
    · rw [hsplit, List.map_append, List.map_cons] at hnodup
      exact List.disjoint_of_nodup_append hnodup hbefore List.mem_cons_self
  obtain ⟨j, hj⟩ := List.mem_iff_getElem?.mp hfound
  have hrule : ∀ place' i', embeddedRule env place' (provider.1, i') = provider.1 := by
    intro place' i'
    have hnormal : source.IsNormal := h.normal _ (HashMap.get_eq_some_iff.1 hfinal)
    have hmodels := h.models_eq_nil hnone hfinal
    rw [← hrel.hasModels_eq, Rule.hasModels, Bool.or_eq_false_iff, Bool.or_eq_false_iff,
      decide_eq_false_iff_not, not_not] at hmodels
    exact (hnormal.sameAs hrel.symm).normalize_eq_self hmodels.1.1 (env.order_sameAs _ _)
  have hentry : (provider.1.id, embeddedRule env 0 (provider.1, j)) ∈
      (globalProviders env (allProviders (before ++ group' :: after))).entries := by
    rw [entries_allProviders h hvalid hgroups]
    refine List.mem_map.2 ⟨(provider.1, j), List.mk_mem_zipIdx_iff_getElem?.mpr hj, ?_⟩
    rw [storedEntry, htrimmed]
  rw [HashMap.get_eq_some_iff.2 hentry, hrule]
  exact congrArg some (hrule place provider.2).symm

/-- **A backup without providers is restored.** -/
theorem normalize_backup_of_none (h : Settled final backup) (hvalid : Valid backup)
    (hone : backup.MeetsInOneOrder) (hnone : backup.providers = []) {config : ProxyConfig}
    (hgroups : List.Forall₂ Group.SameAs config.groups backup.groups)
    (hproviders : config.providers = allProviders config.groups) :
    List.Forall₂ Group.SameAs (normalizeConfigForStorage env config).groups backup.groups ∧
      List.Forall₂ Rule.SameAs (normalizeConfigForStorage env config).providers
        backup.providers := by
  have hstart : Reflects final (globalProviders env config.providers) :=
    hproviders ▸ reflects_allProviders h hvalid hgroups
  have hkept : ((globalProviders env config.providers).entries.map Prod.snd).filter
      Rule.hasModels = [] := by
    rw [List.filter_eq_nil_iff]
    intro rule hrule
    obtain ⟨entry, hentry, rfl⟩ := List.mem_map.1 hrule
    obtain ⟨source, hfinal, hrel⟩ := hstart _ _ (HashMap.get_eq_some_iff.2 hentry)
    rw [hrel.hasModels_eq, h.models_eq_nil hnone hfinal]
    exact Bool.false_ne_true
  refine normalizeConfig_settled h hvalid hgroups hstart (by rw [hkept, hnone]; exact .nil)
    (fun provider hmem => ?_) fun before group' after stored hsplit hreached hreflects => ?_
  · rw [hnone] at hmem
    cases hmem
  · rw [hsplit] at hgroups
    obtain ⟨group, hgroup, hsame⟩ := getElem?_of_forall₂_append hgroups
    refine turnsFit_of_meets h hvalid hone hgroup hsame hreflects
      fun provider hprovider existing source hget hfinal => ?_
    by_cases hbefore : ∃ other ∈ before, provider.1.id ∈ (other.providers.getD []).map Rule.id
    · obtain ⟨other, hother, hid⟩ := hbefore
      obtain ⟨rule, hrule, hruleId⟩ := List.mem_map.1 hid
      rw [← hruleId] at hfinal
      exact .inl (h.meets_of_before hvalid hgroups hother hrule hfinal)
    · have hfirst : ∀ other ∈ before, provider.1.id ∉ (other.providers.getD []).map Rule.id :=
        fun other hother hid => hbefore ⟨other, hother, hid⟩
      have hstored := @get_allProviders_of_first env final backup group' before after h hvalid hnone
        hgroups provider hprovider hfirst (1 + before.length)
      rw [← hsplit, ← hproviders] at hstored
      have hstays := hreached.step.stays _ _ hstored
      rw [hget, Option.some_inj] at hstays
      exact .inr hstays

end Restoring

theorem backupRestored_of_meetsInOneOrder (hbackup : Saved backup) (hstore : Saved store.config)
    (hone : backup.MeetsInOneOrder) (now : String) : BackupRestored toStr now backup store := by
  refine (backupRestored_iff_normal hbackup hstore).2 fun env _ => ?_
  obtain ⟨final, hsettled⟩ := hbackup.exists_settled
  have hgroups : List.Forall₂ Group.SameAs (restoring env.read backup store.config).groups
      backup.groups := forall₂_mapIdx (fun n group => group.readAt_sameAs env.read _) _
  by_cases hnone : backup.providers = []
  · refine normalize_backup_of_none hsettled hbackup.valid hone hnone hgroups ?_
    unfold restoring importConfig
    rw [hnone]
    rfl
  · refine normalize_backup_of_providers hsettled hbackup.valid hone hgroups ?_
    have hread : (backup.providers.mapIdx fun i rule => rule.readAt env.read [i, 1]).isEmpty =
        false := by
      rw [List.isEmpty_eq_false_iff]
      exact fun h => hnone (List.mapIdx_eq_nil_iff.1 h)
    unfold restoring importConfig
    rw [hread]
    exact forall₂_mapIdx (fun i rule => rule.readAt_sameAs env.read _) _

/-! ### What a restored backup shows of a turn -/

def EmbeddedState.rename (st : EmbeddedState) (id : String) : String :=
  (st.remap.lookup (trimmed id)).getD (trimmed id)

theorem length_linkedIds_le (st : EmbeddedState) (ids : List String) :
    (linkedIds st ids).length ≤ ids.length ∧
      ((linkedIds st ids).length = ids.length → linkedIds st ids = ids.map st.rename) := by
  unfold linkedIds
  induction ids using List.reverseRecOn with
  | nil => exact ⟨le_rfl, fun _ => rfl⟩
  | append_singleton ids id ih =>
    obtain ⟨hle, hmap⟩ := ih
    rw [List.foldl_append, List.foldl_cons, List.foldl_nil, List.length_append,
      List.length_singleton]
    dsimp only
    split_ifs
    · exact ⟨Nat.le_succ_of_le hle, fun heq => absurd (heq ▸ hle) (Nat.not_succ_le_self _)⟩
    · rw [List.length_append, List.length_singleton, List.map_append, List.map_singleton]
      exact ⟨Nat.succ_le_succ hle, fun heq => by rw [hmap (Nat.succ_injective heq)]; rfl⟩
    · exact ⟨Nat.le_succ_of_le hle, fun heq => absurd (heq ▸ hle) (Nat.not_succ_le_self _)⟩

theorem rename_eq_self {st : EmbeddedState} {ids : List String} (h : linkedIds st ids = ids)
    {id : String} (hmem : id ∈ ids) : st.rename id = id := by
  have hmap := (length_linkedIds_le st ids).2 (congrArg List.length h)
  rw [h] at hmap
  have hfixed : ids.map st.rename = ids.map (fun id => id) := by rw [← hmap, List.map_id']
  exact List.map_inj_left.1 hfixed id hmem

theorem lookup_remap_foldl {place : ℕ} {scope : List String} {turns : List (Rule × ℕ)}
    {key : String} (h : ∀ turn ∈ turns, trimmed turn.1.id ≠ key) (st : EmbeddedState) :
    (turns.foldl (addEmbedded env place scope) st).remap.lookup key = st.remap.lookup key := by
  induction turns generalizing st with
  | nil => rfl
  | cons turn turns ih =>
    rw [List.foldl_cons, ih fun other hmem => h other (List.mem_cons_of_mem _ hmem)]
    by_cases hscope : trimmed turn.1.id ≠ "" ∧ trimmed turn.1.id ∈ scope
    · cases hget : st.stored.get (trimmed turn.1.id) with
      | none => rw [addEmbedded_of_none turn hscope.1 hscope.2 hget]
      | some existing =>
        rw [addEmbedded_of_some turn hscope.1 hscope.2 hget]
        split_ifs
        · have hne : (key == trimmed turn.1.id) = false :=
            beq_false_of_ne (h turn List.mem_cons_self).symm
          rw [List.lookup_cons, hne]
        · rfl
    · have hskip : trimmed turn.1.id = "" ∨ trimmed turn.1.id ∉ scope := by
        rwa [not_and_or, not_ne_iff] at hscope
      have hstays : addEmbedded env place scope st turn = st := if_pos hskip
      rw [hstays]

section Shown

variable {env : NormalizeEnv} {final : HashMap Rule} {backup config : ProxyConfig}

theorem normalizeGroups_of_restored
    (hgroups : List.Forall₂ Group.SameAs config.groups backup.groups)
    (hrestored : List.Forall₂ Group.SameAs (normalizeConfigForStorage env config).groups
      backup.groups) :
    List.Forall₂ Group.SameAs (normalizeGroups env (hasGlobalProviders env config.providers) 1
      (globalProviders env config.providers) config.groups).2 backup.groups := by
  have hfilter : (normalizeConfigForStorage env config).groups =
      (normalizeGroups env (hasGlobalProviders env config.providers) 1
        (globalProviders env config.providers) config.groups).2.filter Group.isConfigured := rfl
  have hlength := hrestored.length_eq
  rw [hfilter] at hrestored hlength
  have hkept := List.filter_sublist.eq_of_length (hlength.trans
    (hgroups.length_eq.symm.trans (length_normalizeGroups env _ _ _ _).symm))
  rwa [hkept] at hrestored

theorem groupsBefore_of_restored
    (hgroups : List.Forall₂ Group.SameAs config.groups backup.groups)
    (hrestored : List.Forall₂ Group.SameAs (normalizeConfigForStorage env config).groups
      backup.groups) (n : ℕ) :
    List.Forall₂ Group.SameAs (groupsBefore env config.groups config.providers n).2
      (backup.groups.take n) := by
  have hall := List.forall₂_take n (normalizeGroups_of_restored hgroups hrestored)
  have hsplit : (normalizeGroups env (hasGlobalProviders env config.providers) 1
      (globalProviders env config.providers) config.groups).2 =
        (groupsBefore env config.groups config.providers n).2 ++
          (normalizeGroups env (hasGlobalProviders env config.providers)
            (1 + (config.groups.take n).length)
            (groupsBefore env config.groups config.providers n).1 (config.groups.drop n)).2 := by
    conv_lhs => rw [← List.take_append_drop n config.groups]
    rw [normalizeGroups_append]
    rfl
  have hlength : (groupsBefore env config.groups config.providers n).2.length =
      (config.groups.take n).length := length_normalizeGroups env _ _ _ _
  rw [hsplit] at hall
  rcases Nat.le_total n config.groups.length with hle | hle
  · rw [List.length_take_of_le hle] at hlength
    rwa [List.take_left' hlength] at hall
  · rw [List.drop_eq_nil_of_le hle, normalizeGroups, List.append_nil,
      List.take_of_length_le (by rw [hlength]; exact List.length_take_le _ _)] at hall
    exact hall

theorem linkedIds_of_restored (h : Settled final backup) (hvalid : Valid backup)
    (hgroups : List.Forall₂ Group.SameAs config.groups backup.groups)
    (hrestored : List.Forall₂ Group.SameAs (normalizeConfigForStorage env config).groups
      backup.groups) {n : ℕ} {group : Group} (hgroup : config.groups[n]? = some group) :
    linkedIds (addEmbeddedProviders env (hasGlobalProviders env config.providers) (n + 1)
        (groupsBefore env config.groups config.providers n).1 group)
        (groupIds (hasGlobalProviders env config.providers) group) =
      groupIds (hasGlobalProviders env config.providers) group := by
  have hnext := groupsBefore_of_restored hgroups hrestored (n + 1)
  have hrel := rel_getElem? hgroups n
  rw [hgroup] at hrel
  obtain ⟨settled, hsettled, hsame⟩ := exists_right_of_rel hrel
  obtain ⟨ids, hids, hexact⟩ := h.exact hvalid (List.mem_of_getElem? hsettled)
  rw [groupsBefore_succ env config.groups config.providers hgroup, List.take_add_one, hsettled,
    Option.toList_some] at hnext
  have hlength : (groupsBefore env config.groups config.providers n).2.length =
      (backup.groups.take n).length :=
    (groupsBefore_of_restored hgroups hrestored n).length_eq
  have hlast := List.forall₂_drop (groupsBefore env config.groups config.providers n).2.length hnext
  rw [List.drop_left, hlength, List.drop_left] at hlast
  obtain ⟨hnormal, -⟩ := List.forall₂_cons.1 hlast
  rw [hids.groupIds_eq hexact hsame]
  have hkept := hnormal.providerIds_eq.trans hids.providerIds
  rw [normalizeGroup] at hkept
  dsimp only at hkept
  rw [hids.groupIds_eq hexact hsame] at hkept
  exact Option.some_inj.1 hkept

/-- **What a restored backup shows**: an embedded provider equals what is stored under its id. -/
theorem eq_of_restored (h : Settled final backup) (hvalid : Valid backup)
    (hprint : Function.Injective env.toStr)
    (hgroups : List.Forall₂ Group.SameAs config.groups backup.groups)
    (hrestored : List.Forall₂ Group.SameAs (normalizeConfigForStorage env config).groups
      backup.groups) {n i : ℕ} {group : Group} {provider existing : Rule}
    (hgroup : config.groups[n]? = some group)
    (hprovider : (group.providers.getD [])[i]? = some provider)
    (hget : (stateBefore env config.groups config.providers n group i).stored.get provider.id =
      some existing) :
    existing = embeddedRule env (n + 1) (provider, i) := by
  have hrel := rel_getElem? hgroups n
  rw [hgroup] at hrel
  obtain ⟨settled, hsettled, hsame⟩ := exists_right_of_rel hrel
  obtain ⟨ids, hids, hexact⟩ := h.exact hvalid (List.mem_of_getElem? hsettled)
  have hlisted := linkedIds_of_restored h hvalid hgroups hrestored hgroup
  rw [hids.groupIds_eq hexact hsame] at hlisted
  have htrimmedIds : ∀ id ∈ ids, trimmed id = id := fun id hmem =>
    h.isStore.trimmed_key (hids.stored id hmem)
  have hturns := hids.turnIds hexact hsame htrimmedIds
  have hid : provider.id ∈ ids :=
    (hids.turn hexact hsame (List.mk_mem_zipIdx_iff_getElem?.mpr hprovider)).1
  have htrimmed := htrimmedIds _ hid
  have hembeds : Embeds (hasGlobalProviders env config.providers) config.groups n group i
      provider := by
    refine ⟨hgroup, hprovider, ?_⟩
    rw [groupScope, hids.groupIds_eq hexact hsame]
    refine List.mem_filter.2 ⟨List.mem_map_of_mem hid, ?_⟩
    rw [htrimmed]
    exact decide_eq_true (hids.nonBlank _ hid)
  by_contra hne
  rw [← htrimmed] at hget
  -- the copy gets a new id, which stays the new name until the end of the group
  have hturn : (stateBefore env config.groups config.providers n group (i + 1)).remap.lookup
      (trimmed provider.id) = some (allocUniqueProviderId env (trimmed provider.id)
        (stateBefore env config.groups config.providers n group i).stored) := by
    rw [stateBefore_succ env config.groups config.providers hprovider,
      addEmbedded_of_some (provider, i) (mem_groupScope hembeds.inScope) hembeds.inScope hget,
      if_pos fun heq => hne ((text_eq_iff hprint).1 heq)]
    exact List.lookup_cons_self
  have hrename : (addEmbeddedProviders env (hasGlobalProviders env config.providers) (n + 1)
      (groupsBefore env config.groups config.providers n).1 group).rename provider.id =
        allocUniqueProviderId env (trimmed provider.id)
          (stateBefore env config.groups config.providers n group i).stored := by
    have hsplit : (group.providers.getD []).zipIdx =
        (group.providers.getD []).zipIdx.take (i + 1) ++
          (group.providers.getD []).zipIdx.drop (i + 1) := (List.take_append_drop _ _).symm
    have hlater : ∀ turn ∈ (group.providers.getD []).zipIdx.drop (i + 1),
        trimmed turn.1.id ≠ trimmed provider.id := by
      intro turn hmem heq
      have hnodup := hids.nodup
      rw [← hturns, hsplit, List.map_append] at hnodup
      refine List.disjoint_of_nodup_append hnodup ?_ (List.mem_map.2 ⟨turn, hmem, heq⟩)
      refine List.mem_map.2 ⟨(provider, i), ?_, rfl⟩
      rw [List.take_add_one, zipIdx_getElem? hprovider]
      exact List.mem_append_right _ List.mem_cons_self
    have hall : addEmbeddedProviders env (hasGlobalProviders env config.providers) (n + 1)
        (groupsBefore env config.groups config.providers n).1 group =
          ((group.providers.getD []).zipIdx.drop (i + 1)).foldl
            (addEmbedded env (n + 1) (groupScope (hasGlobalProviders env config.providers) group))
            (stateBefore env config.groups config.providers n group (i + 1)) := by
      rw [stateBefore, ← List.foldl_append, ← hsplit]
      rfl
    rw [EmbeddedState.rename, hall, lookup_remap_foldl hlater, hturn, Option.getD_some]
  have hfresh := allocUniqueProviderId_notMem env (trimmed provider.id)
    (stateBefore env config.groups config.providers n group i).stored
  rw [← hrename, rename_eq_self hlisted hid, ← htrimmed] at hfresh
  exact hfresh (HashMap.mem_keys_of_get hget)

end Shown

/-! ### One provider in the other order -/

def Rule.reverseMaps (rule : Rule) : Rule :=
  { rule with
    modelMappings := rule.modelMappings.map HashMap.reverse
    quota := { rule.quota with customHeaders := rule.quota.customHeaders.reverse } }

def ReadEnv.reverseAt (place : List ℕ) : ReadEnv :=
  { ReadEnv.plain with
    order := fun place' m => if place' = 0 :: place ∨ place' = 1 :: place then m.reverse else m
    order_sameAs := fun place' m => by
      split_ifs
      · exact m.reverse_sameAs
      · exact .refl m }

theorem hasSingleMaps_of_reversed
    (h : normalizeProviderForStorage id rule =
      normalizeProviderForStorage HashMap.reverse rule.reverseMaps) :
    (normalizeProviderForStorage id rule).HasSingleMaps := by
  refine ⟨fun mappings hmem => ?_, ?_, ?_⟩
  · have hmappings : rule.modelMappings = rule.modelMappings.map HashMap.reverse :=
      congrArg Rule.modelMappings h
    have hgiven : rule.modelMappings = some mappings := hmem
    rw [hgiven, Option.map_some] at hmappings
    exact HashMap.length_le_one_of_reverse (Option.some_inj.1 hmappings).symm
  · have hquota : rule.quota.customHeaders = rule.quota.customHeaders.reverse :=
      congrArg (fun rule => rule.quota.customHeaders) h
    exact HashMap.length_le_one_of_reverse hquota.symm
  · have hcosts : normalCosts rule = (normalCosts rule).reverse := congrArg Rule.modelCosts h
    exact HashMap.length_le_one_of_reverse hcosts.symm

theorem mapIdx_eq_self {α : Type} {f : ℕ → α → α} (h : ∀ i x, f i x = x) (xs : List α) :
    xs.mapIdx f = xs := by
  have hsame := @forall₂_mapIdx α α Eq f h xs
  rwa [List.forall₂_eq_eq_eq] at hsame

theorem mapIdx_eq_set {α : Type} {f : ℕ → α → α} {xs : List α} {i : ℕ} {x : α}
    (hx : xs[i]? = some x) (h : ∀ j y, j ≠ i → f j y = y) : xs.mapIdx f = xs.set i (f i x) := by
  refine List.ext_getElem? fun j => ?_
  rw [List.getElem?_mapIdx]
  by_cases hj : j = i
  · subst hj
    obtain ⟨hlt, -⟩ := List.getElem?_eq_some_iff.1 hx
    rw [hx, List.getElem?_set_self hlt]
    rfl
  · rw [List.getElem?_set_ne (Ne.symm hj)]
    cases xs[j]? with
    | none => rfl
    | some y => exact congrArg some (h j y hj)

theorem Rule.readAt_eq_self {env : ReadEnv} {place : List ℕ}
    (h : ∀ (k : ℕ) {α : Type} (m : HashMap α), env.order (k :: place) m = m) (rule : Rule) :
    rule.readAt env place = rule := by
  have hmappings : rule.modelMappings.map (env.order (0 :: place)) = rule.modelMappings := by
    cases rule.modelMappings with
    | none => rfl
    | some m => exact congrArg some (h 0 m)
  have hcosts : (if rule.modelCosts.isEmpty then HashMap.empty
      else env.order (2 :: place) rule.modelCosts) = rule.modelCosts := by
    by_cases hempty : rule.modelCosts.isEmpty = true
    · rw [if_pos hempty]
      exact HashMap.eq_of_entries_eq (List.isEmpty_iff.1 hempty).symm
    · rw [if_neg hempty, h]
  rw [Rule.readAt, hmappings, hcosts, h]

theorem Group.readAt_eq_self {env : ReadEnv} {place : List ℕ}
    (h : ∀ (k i : ℕ) {α : Type} (m : HashMap α), env.order (k :: i :: place) m = m)
    (group : Group) : group.readAt env place = group := by
  have hrules : ∀ rules : List Rule,
      rules.mapIdx (fun i rule => rule.readAt env (i :: place)) = rules :=
    mapIdx_eq_self fun i rule => rule.readAt_eq_self fun k _ m => h k i m
  rw [Group.readAt]
  simp only [hrules, Option.map_id']

section ReverseAt

variable {place place' : List ℕ}

theorem reverseAt_order_of_ne (hne : place' ≠ place) (k : ℕ) {α : Type} (m : HashMap α) :
    (ReadEnv.reverseAt place).order (k :: place') m = m := by
  refine if_neg ?_
  rintro (h | h)
  · exact hne (List.cons.inj h).2
  · exact hne (List.cons.inj h).2

theorem Rule.readAt_reverseAt (rule : Rule) :
    rule.readAt (.reverseAt place) place = rule.reverseMaps := by
  have hmappings : @ReadEnv.order (.reverseAt place) String (0 :: place) = HashMap.reverse :=
    funext fun _ => if_pos (.inl rfl)
  have hheaders : @ReadEnv.order (.reverseAt place) String (1 :: place) = HashMap.reverse :=
    funext fun _ => if_pos (.inr rfl)
  have hcosts : (if rule.modelCosts.isEmpty then HashMap.empty
      else (ReadEnv.reverseAt place).order (2 :: place) rule.modelCosts) = rule.modelCosts := by
    have hother : ¬(2 :: place = 0 :: place ∨ 2 :: place = 1 :: place) := by
      rintro (h | h)
      · cases (List.cons.inj h).1
      · cases (List.cons.inj h).1
    have hkeep : (ReadEnv.reverseAt place).order (2 :: place) rule.modelCosts = rule.modelCosts :=
      @if_neg _ _ hother _ rule.modelCosts.reverse rule.modelCosts
    rw [hkeep]
    by_cases hempty : rule.modelCosts.isEmpty = true
    · rw [if_pos hempty]
      exact HashMap.eq_of_entries_eq (List.isEmpty_iff.1 hempty).symm
    · rw [if_neg hempty]
  rw [Rule.readAt, hmappings, hheaders, hcosts]
  rfl

end ReverseAt

theorem restoring_plain (backup prev : ProxyConfig) :
    restoring ReadEnv.plain backup prev = importConfig prev backup.groups backup.providers := by
  rw [restoring, mapIdx_eq_self fun n group => group.readAt_eq_self fun _ _ _ _ => rfl,
    mapIdx_eq_self fun i rule => rule.readAt_eq_self fun _ _ _ => rfl]

section Reversed

variable {backup prev : ProxyConfig} {n i : ℕ} {group : Group} {rules : List Rule} {rule : Rule}

theorem allProviders_set {groups : List Group} (hgroup : groups[n]? = some group)
    (hrules : group.providers = some rules) (hrule : rules[i]? = some rule)
    (hearlier : ∃ other ∈ groups.take n, rule ∈ other.providers.getD []) :
    allProviders (groups.set n { group with providers := some (rules.set i rule.reverseMaps) }) =
      allProviders groups := by
  obtain ⟨hltGroup, heqGroup⟩ := List.getElem?_eq_some_iff.1 hgroup
  obtain ⟨hlt, heq⟩ := List.getElem?_eq_some_iff.1 hrule
  have hgroups : groups = groups.take n ++ group :: groups.drop (n + 1) := by
    rw [← heqGroup, ← List.drop_eq_getElem_cons hltGroup, List.take_append_drop]
  have hsplit : rules = rules.take i ++ rule :: rules.drop (i + 1) := by
    rw [← heq, ← List.drop_eq_getElem_cons hlt, List.take_append_drop]
  have hflat : ∀ other : Rule, (groups.take n ++ { group with
      providers := some (rules.take i ++ other :: rules.drop (i + 1)) } ::
        groups.drop (n + 1)).flatMap (fun group => group.providers.getD []) =
      ((groups.take n).flatMap (fun group => group.providers.getD []) ++ rules.take i) ++
        other :: (rules.drop (i + 1) ++
          (groups.drop (n + 1)).flatMap fun group => group.providers.getD []) := by
    intro other
    rw [List.flatMap_append, List.flatMap_cons, Option.getD_some]
    simp only [List.append_assoc, List.cons_append]
  have hknown : rule.id ∈ ((groups.take n).flatMap (fun group => group.providers.getD []) ++
      rules.take i).map Rule.id := by
    obtain ⟨other, hother, hmem⟩ := hearlier
    exact List.mem_map_of_mem (List.mem_append_left _ (List.mem_flatMap.2 ⟨other, hother, hmem⟩))
  have hself : { group with providers := some (rules.take i ++ rule :: rules.drop (i + 1)) } =
      group := by
    rw [← hsplit, ← hrules]
  have hsame := hflat rule
  rw [hself, ← hgroups] at hsame
  rw [allProviders_eq, allProviders_eq, hsame, List.set_eq_take_append_cons_drop, if_pos hltGroup,
    List.set_eq_take_append_cons_drop, if_pos hlt, hflat]
  exact firstProviders_replace rfl hknown

theorem Group.readAt_reverseAt (hrules : group.providers = some rules)
    (hrule : rules[i]? = some rule) :
    group.readAt (.reverseAt [i, n, 0]) [n, 0] =
      { group with providers := some (rules.set i rule.reverseMaps) } := by
  have hread := mapIdx_eq_set (f := fun i' rule => rule.readAt (.reverseAt [i, n, 0]) [i', n, 0])
    hrule fun j other hne => other.readAt_eq_self fun k _ m =>
      reverseAt_order_of_ne (fun h => hne (List.cons.inj h).1) k m
  rw [Group.readAt, hrules, Option.map_some, hread, Rule.readAt_reverseAt]

theorem restoring_reverseAt (hgroup : backup.groups[n]? = some group)
    (hrules : group.providers = some rules) (hrule : rules[i]? = some rule)
    (hmeets : backup.Meets n rule) :
    restoring (.reverseAt [i, n, 0]) backup prev =
      { importConfig prev backup.groups backup.providers with
        groups := backup.groups.set n
          { group with providers := some (rules.set i rule.reverseMaps) } } := by
  have hgroups := mapIdx_eq_set (f := fun m group => group.readAt (.reverseAt [i, n, 0]) [m, 0])
    hgroup fun j other hne => other.readAt_eq_self fun k i' _ m =>
      reverseAt_order_of_ne (fun h => hne (List.cons.inj (List.cons.inj h).2).1) k m
  have hproviders : backup.providers.mapIdx
      (fun j rule => rule.readAt (.reverseAt [i, n, 0]) [j, 1]) = backup.providers :=
    mapIdx_eq_self (fun j rule => rule.readAt_eq_self fun k _ m =>
      reverseAt_order_of_ne (fun h => by cases (List.cons.inj h).2) k m) _
  rw [restoring, hgroups, Group.readAt_reverseAt hrules hrule, hproviders, importConfig,
    importConfig]
  by_cases hnone : backup.providers.isEmpty = true
  · have hearlier : ∃ other ∈ backup.groups.take n, rule ∈ other.providers.getD [] := by
      refine hmeets.resolve_left fun hmem => ?_
      rw [List.isEmpty_iff.1 hnone] at hmem
      cases hmem
    rw [if_pos hnone, if_pos hnone, allProviders_set hgroup hrules hrule hearlier]
  · rw [if_neg hnone, if_neg hnone]

end Reversed

theorem exists_stored_of_meets {final : HashMap Rule} (h : Settled final backup)
    (hvalid : Valid backup) (hgroups : List.Forall₂ Group.SameAs config.groups backup.groups)
    (hproviders : ∀ rule ∈ backup.providers, rule ∈ config.providers)
    (hrestored : List.Forall₂ Group.SameAs (normalizeConfigForStorage env config).groups
      backup.groups)
    {n : ℕ} {group : Group} (hgroup : backup.groups[n]? = some group)
    (hrule : rule ∈ group.providers.getD []) (hmeets : backup.Meets n rule) (group' : Group)
    (i : ℕ) :
    ∃ existing, (stateBefore env config.groups config.providers n group' i).stored.get rule.id =
      some existing := by
  obtain ⟨-, -, -, -, htrimmed, hne⟩ :=
    h.embedded hvalid (List.mem_of_getElem? hgroup) (.refl group) hrule
  have hspec := normalizeGroups_spec env (hasGlobalProviders env config.providers) 1
    (globalProviders env config.providers) (config.groups.take n)
  have hturns : StoreStep (groupsBefore env config.groups config.providers n).1
      (stateBefore env config.groups config.providers n group' i).stored :=
    StoreStep.foldl EmbeddedState.stored (storeStep_addEmbedded env (n + 1) _) _
      { stored := (groupsBefore env config.groups config.providers n).1 }
  have hbefore : ∃ existing, (groupsBefore env config.groups config.providers n).1.get rule.id =
      some existing := by
    rcases hmeets with hmem | ⟨other, hother, hmem⟩
    · have hkey : rule.id ∈ (globalProviders env config.providers).keys :=
        (mem_keys_globalProviders env _ _).2
          ⟨hne, List.mem_map.2 ⟨rule, hproviders rule hmem, htrimmed⟩⟩
      obtain ⟨existing, hget⟩ := Option.isSome_iff_exists.1 (HashMap.get_isSome_iff.2 hkey)
      exact ⟨existing, hspec.1.stays _ _ hget⟩
    · obtain ⟨normal, hnormal, hsame⟩ :=
        exists_left_of_mem (groupsBefore_of_restored hgroups hrestored n) hother
      obtain ⟨linked, hlinked, hkeys, -⟩ := hspec.2 normal hnormal
      obtain ⟨ids, hids, hexact⟩ := h.exact hvalid (List.mem_of_mem_take hother)
      have hsameIds := hsame.providerIds_eq
      rw [hlinked, hids.providerIds, Option.some_inj] at hsameIds
      obtain ⟨j, hj⟩ := List.mem_iff_getElem?.mp hmem
      have hid : rule.id ∈ ids :=
        (hids.turn hexact (.refl other) (List.mk_mem_zipIdx_iff_getElem?.mpr hj)).1
      exact Option.isSome_iff_exists.1 (HashMap.get_isSome_iff.2 (hkeys _ (hsameIds ▸ hid)))
  obtain ⟨existing, hget⟩ := hbefore
  exact ⟨existing, hturns.stays _ _ hget⟩

theorem meetsInOneOrder_of_backupRestored (hprint : Function.Injective toStr) {now : String}
    (hbackup : Saved backup) (hstore : Saved store.config)
    (h : BackupRestored toStr now backup store) : backup.MeetsInOneOrder := by
  intro n group hgroup rule hrule hmeets
  obtain ⟨final, hsettled⟩ := hbackup.exists_settled
  have hvalid := hbackup.valid
  have hrestored := (backupRestored_iff_normal hbackup hstore).1 h
  obtain ⟨rules, hrules⟩ : ∃ rules, group.providers = some rules := by
    cases hproviders : group.providers with
    | none =>
      rw [hproviders] at hrule
      cases hrule
    | some rules => exact ⟨rules, rfl⟩
  obtain ⟨i, hi⟩ := List.mem_iff_getElem?.mp hrule
  have hi' : rules[i]? = some rule := by rwa [hrules, Option.getD_some] at hi
  generalize hbase : ({ NormalizeEnv.plain with toStr := toStr } : NormalizeEnv) = base
  have htoStr : base.toStr = toStr := hbase ▸ rfl
  have horder : ∀ place j, base.order place j = id := fun _ _ => hbase ▸ rfl
  generalize hconfig : importConfig store.config backup.groups backup.providers = config
  have hgroups : config.groups = backup.groups := hconfig ▸ rfl
  -- the first run reads and builds every map in its order
  have hfirst := (hrestored ⟨base, ReadEnv.plain⟩ htoStr).1
  dsimp only at hfirst
  rw [restoring_plain, hconfig] at hfirst
  have hsameGroups : List.Forall₂ Group.SameAs config.groups backup.groups := by
    rw [hgroups]
    exact List.forall₂_same.2 fun group _ => .refl group
  have hproviders : ∀ rule ∈ backup.providers, rule ∈ config.providers := by
    intro other hmem
    have hne : ¬ backup.providers.isEmpty = true := fun hempty => by
      rw [List.isEmpty_iff.1 hempty] at hmem
      cases hmem
    rw [← hconfig, importConfig]
    dsimp only
    rwa [if_neg hne]
  obtain ⟨existing, hget⟩ := exists_stored_of_meets hsettled hvalid hsameGroups hproviders hfirst
    hgroup hrule hmeets group i
  have hone := eq_of_restored hsettled hvalid (htoStr ▸ hprint) hsameGroups hfirst
    (hgroups ▸ hgroup) hi hget
  -- the second run has the maps of this provider in the other order
  have hread := @restoring_reverseAt backup store.config n i group rules rule hgroup hrules hi'
      hmeets
  have hsecond := (hrestored ⟨base.reorder (n + 1) i HashMap.reverse HashMap.reverse_sameAs,
    .reverseAt [i, n, 0]⟩ htoStr).1
  have hset : List.Forall₂ Group.SameAs
      (restoring (.reverseAt [i, n, 0]) backup store.config).groups backup.groups :=
    forall₂_mapIdx (fun m other => other.readAt_sameAs (.reverseAt [i, n, 0]) [m, 0]) _
  dsimp only at hsecond
  rw [hread, hconfig] at hsecond hset
  have hget' : (stateBefore (base.reorder (n + 1) i HashMap.reverse HashMap.reverse_sameAs)
      (backup.groups.set n { group with providers := some (rules.set i rule.reverseMaps) })
      config.providers n { group with providers := some (rules.set i rule.reverseMaps) }
        i).stored.get
        rule.id = some existing := by
    have hscope : groupScope (hasGlobalProviders base config.providers)
        { group with providers := some (rules.set i rule.reverseMaps) } =
          groupScope (hasGlobalProviders base config.providers) group := by
      have hsame := group.readAt_sameAs (.reverseAt [i, n, 0]) [n, 0]
      rw [Group.readAt_reverseAt hrules hi'] at hsame
      exact hsame.groupScope_eq _
    rw [stateBefore_reorder hgroup (by rw [hrules]; rfl) hscope, ← hgroups]
    exact hget
  have hother := eq_of_restored hsettled hvalid (htoStr ▸ hprint) hset hsecond
    (List.getElem?_set_self (List.getElem?_eq_some_iff.1 hgroup).1)
    (List.getElem?_set_self (List.getElem?_eq_some_iff.1 hi').1) hget'
  rw [embeddedRule_reorder_self] at hother
  rw [embeddedRule, horder] at hone
  have hsingle := hasSingleMaps_of_reversed (hone.symm.trans hother)
  obtain ⟨source, -, hrel, hfinal, -⟩ :=
    hsettled.embedded hvalid (List.mem_of_getElem? hgroup) (.refl group) hrule
  have hnormal : rule.IsNormal :=
    (hsettled.normal _ (HashMap.get_eq_some_iff.1 hfinal)).sameAs hrel.symm
  exact hsingle.sameAs (hnormal.normalize_sameAs fun costs => .refl costs)

/-- **A backup is restored exactly when what is met again has one order.** -/
theorem backupRestored_iff {toStr : Json → String} (hprint : Function.Injective toStr)
    (now : String) {backup : ProxyConfig} {store : ConfigStore} (hbackup : Saved backup)
    (hstore : Saved store.config) :
    BackupRestored toStr now backup store ↔ backup.MeetsInOneOrder :=
  ⟨meetsInOneOrder_of_backupRestored hprint hbackup hstore,
    fun hone => backupRestored_of_meetsInOneOrder hbackup hstore hone now⟩

theorem backupRestored_oneRoute :
    ∃ backup store, emptyStore.saveConfig NormalizeEnv.plain (oneRouteConfig "p1") =
        (.ok backup, store) ∧ BackupRestored Json.text "2026-01-01T00:00:00Z" backup store := by
  have hsaved : ∃ backup store, emptyStore.saveConfig NormalizeEnv.plain (oneRouteConfig "p1") =
      (.ok backup, store) ∧ backup.MeetsInOneOrder := by
    refine ⟨_, _, rfl, fun n group hgroup rule hrule _ => ?_⟩
    obtain rfl := List.mem_singleton.1 (List.mem_of_getElem? hgroup)
    obtain rfl := List.mem_singleton.1 hrule
    exact ⟨fun _ hmem => (nomatch hmem), Nat.zero_le 1, Nat.zero_le 1⟩
  obtain ⟨backup, store, hsave, hone⟩ := hsaved
  obtain ⟨hbackup, hstore⟩ := saved_of_saveConfig hsave
  exact ⟨backup, store, hsave, (backupRestored_iff Json.text_injective _ hbackup hstore).2 hone⟩

/-- A group that links a provider with two headers of its quota request. -/
def twoHeadersConfig : ProxyConfig :=
  { oneRouteConfig "p1" with providers := [twoHeadersProvider twoHeaders] }

/-- The import meets the provider twice, and reads its headers in an order of its own each time. -/
theorem not_backupRestored_twoHeaders :
    ∃ backup store, emptyStore.saveConfig NormalizeEnv.plain twoHeadersConfig =
        (.ok backup, store) ∧ ¬ BackupRestored Json.text "2026-01-01T00:00:00Z" backup store := by
  have hsaved : ∃ backup store, emptyStore.saveConfig NormalizeEnv.plain twoHeadersConfig =
      (.ok backup, store) ∧ ¬ backup.MeetsInOneOrder := by
    refine ⟨_, _, rfl, fun hone => ?_⟩
    have hsingle := hone 0 _ rfl (twoHeadersProvider twoHeaders) List.mem_cons_self
      (.inl List.mem_cons_self)
    exact absurd hsingle.customHeaders (by decide)
  obtain ⟨backup, store, hsave, hmany⟩ := hsaved
  obtain ⟨hbackup, hstore⟩ := saved_of_saveConfig hsave
  exact ⟨backup, store, hsave, fun h =>
    hmany (meetsInOneOrder_of_backupRestored Json.text_injective hbackup hstore h)⟩

end AiOpenRouter
