/-
Saving from the renderer without an edit.

The groups of the renderer have routing tables only: the models, the provider ids and
the embedded providers that came before them are left out of what it saves.

* `ConfigStore.save`: the printed configuration is migrated, read and saved;
* `uneditedSave`: the save succeeds, and leaves every group with routes, without the
  fields that routing tables have replaced.
-/
import AiOpenRouter.BackupRestore
import AiOpenRouter.RendererConfig

namespace AiOpenRouter

/-- `ConfigStore::save`. -/
def ConfigStore.save (env : RestartEnv) (nextConfig : Json) (store : ConfigStore) :
    Except String ProxyConfig × ConfigStore :=
  match (migrateConfig nextConfig).bind (normalizeConfig env.read) with
  | .error message => (.error message, store)
  | .ok config => store.saveConfig env.normalize config

/-- What `saveConfigAction` sends for a configuration that was loaded and not edited. -/
def Renderer.unedited (config : ProxyConfig) : Json :=
  buildSaveConfigPayload (normalizeConfig (normalizeConfig config.toJson))

def ProxyConfig.withFailovers (config : ProxyConfig) : ProxyConfig :=
  { config with
    groups := config.groups.map fun group =>
      { group with failover := some (group.failover.getD defaultGroupFailoverConfig) } }

/-- **An unedited save keeps the configuration.** -/
def UneditedSaveKeeps (config : ProxyConfig) : Prop :=
  ∀ (env : RestartEnv) (store : ConfigStore), ∃ saved store',
    store.save env (Renderer.unedited config) = (.ok saved, store') ∧
      saved.withFailovers.SameAs config.withFailovers

/-- A group without the fields that its routing table has replaced. -/
def Group.retired (group : Group) : Group :=
  { group.rendered with providerIds := some [], providers := some [] }

/-- A configuration whose groups have routing tables only; names that are blank in the renderer are
left out. -/
def ProxyConfig.retired (config : ProxyConfig) : ProxyConfig :=
  { config with
    providers := config.rendered.providers.filter Rule.hasModels
    groups := (config.groups.filter fun group => group.routingTable ≠ []).map Group.retired }

/-! ### What the renderer sends -/

theorem validModels_filter_blank (models : List String) :
    validModels (models.filter (· ≠ "")) = validModels models := by
  unfold validModels
  induction models with
  | nil => rfl
  | cons model models ih =>
    by_cases hblank : model = ""
    · have htrimmed : ([model].map trimmed).filter (· ≠ "") = [] := by
        rw [hblank]
        rfl
      rw [List.filter_cons_of_neg (by simp [hblank]), ih]
      conv_rhs => rw [← List.singleton_append, List.map_append, List.filter_append, htrimmed]
      rfl
    · rw [List.filter_cons_of_pos (by simp [hblank]), List.map_cons, List.map_cons,
        List.filter_cons, List.filter_cons, ih]

theorem Rule.IsNormal.withNames {rule : Rule} (h : rule.IsNormal) : rule.withNames.IsNormal := by
  have hmodels : validModels rule.withNames.models = validModels rule.models :=
    validModels_filter_blank rule.models
  refine ⟨fun entry hentry => ?_, fun hempty hlegacy => ?_⟩
  · rw [hmodels]
    exact h.keys entry hentry
  · rw [hmodels]
    exact h.legacy hempty hlegacy

theorem shows_unedited {config : ProxyConfig} (hnodup : (config.providers.map Rule.id).Nodup)
    (hnormal : ∀ rule ∈ config.providers, rule.IsNormal)
    (hmodels : ∀ rule ∈ config.providers, rule.HasTrimmedModels) :
    ∃ fields, Renderer.unedited config = .obj fields ∧ ShowsConfig config.rendered fields := by
  have hrule : ∀ rule ∈ config.rendered.providers, rule.IsNormal ∧ rule.HasTrimmedModels := by
    intro rule hmem
    obtain ⟨source, hsource, rfl⟩ := List.mem_map.1 hmem
    have hin := List.mem_of_mem_filter hsource
    exact ⟨(hnormal source hin).withNames, (hmodels source hin).withNames⟩
  obtain ⟨loaded, hloaded, hshows⟩ :=
    Renderer.shows_normalizeConfig (shows_toJson config) hnodup hnormal hmodels
  obtain ⟨again, hagain, hshows'⟩ := Renderer.shows_normalizeConfig hshows
    (nodup_id_rendered hnodup) (fun rule hmem => (hrule rule hmem).1)
    fun rule hmem => (hrule rule hmem).2
  rw [config.rendered_rendered] at hshows'
  obtain ⟨fields, hpayload, hfields⟩ :=
    Renderer.shows_buildSaveConfigPayload hshows' hnodup
  refine ⟨fields, ?_, hfields⟩
  rw [Renderer.unedited, ProxyConfig.toJson, hloaded, hagain, hpayload]

/-! ### What the store reads -/

variable (env : ReadEnv)

theorem configGroups_rendered (groups : List Group) :
    configGroups env (some (.arr ((groups.map Group.rendered).map Group.toJson))) =
      .ok (groups.map Group.rendered) := by
  have hread : Decode.listAt (fun i => Decode.group env [i, 0])
      (some (.arr ((groups.map Group.rendered).map Group.toJson))) =
        some (groups.map Group.rendered) := by
    rw [List.map_map, @Decode.listAt_mapIdx Group _ (Group.toJson ∘ Group.rendered)
      (fun _ group => group.rendered) fun i group =>
        Decode.group_toJson_read env [i, 0] group.rendered, List.mapIdx_eq_zipIdx_map]
    conv_rhs => rw [← List.zipIdx_map_fst 0 groups, List.map_map]
    rfl
  unfold configGroups
  dsimp only
  rw [hread]
  dsimp only
  have hsame : (groups.map Group.rendered).zipIdx.map (fun group => { group.1 with
      providers := group.1.providers.map fun providers => providers.zipIdx.map fun provider =>
        normalizeProviderModelCosts env [provider.2, group.2, 0] provider.1 }) =
          (groups.map Group.rendered).zipIdx.map Prod.fst := by
    refine List.map_congr_left fun group hmem => ?_
    have hin : group.1 ∈ groups.map Group.rendered := by
      rw [← List.zipIdx_map_fst 0 (groups.map Group.rendered)]
      exact List.mem_map_of_mem hmem
    obtain ⟨source, -, heq⟩ := List.mem_map.1 hin
    rw [← heq]
    rfl
  rw [hsame, List.zipIdx_map_fst]

theorem configProviders_toJson {rules : List Rule} (hnormal : ∀ rule ∈ rules, rule.IsNormal) :
    ∃ providers, configProviders env (some (.arr (rules.map Rule.toJson))) = .ok providers ∧
      List.Forall₂ Rule.SameAs providers rules := by
  have hread : Decode.listAt (fun i => Decode.rule env [i, 1])
      (some (.arr (rules.map Rule.toJson))) =
      some (rules.mapIdx fun i rule => rule.readAt env [i, 1]) :=
    Decode.listAt_mapIdx (fun i rule => Decode.rule_toJson_read env [i, 1] rule) rules
  refine ⟨rules.mapIdx fun i rule =>
    normalizeProviderModelCosts env [i, 1] (rule.readAt env [i, 1]), ?_, ?_⟩
  · unfold configProviders
    dsimp only
    rw [hread]
    dsimp only
    have hzip : (rules.mapIdx fun i rule => rule.readAt env [i, 1]).zipIdx.map
        (fun provider => normalizeProviderModelCosts env [provider.2, 1] provider.1) =
          (rules.mapIdx fun i rule => rule.readAt env [i, 1]).mapIdx
            fun i provider => normalizeProviderModelCosts env [i, 1] provider := by
      rw [List.mapIdx_eq_zipIdx_map (l := rules.mapIdx _)]
    rw [hzip, List.mapIdx_mapIdx]
    rfl
  · have hrel : List.Forall₂ (fun provider rule => rule.IsNormal → provider.SameAs rule)
        (rules.mapIdx fun i rule => normalizeProviderModelCosts env [i, 1] (rule.readAt env [i, 1]))
          rules := by
      refine forall₂_mapIdx (fun i rule hrule => ?_) rules
      have hread := rule.readAt_sameAs env [i, 1]
      exact ((hrule.sameAs hread.symm).normalize_sameAs (env.order_sameAs _)).trans hread
    have hboth := (@List.forall₂_and_left _ _ _ Rule.IsNormal _ _).2 ⟨hnormal, hrel.flip⟩
    exact (hboth.imp fun _ _ h => h.2 h.1).flip

theorem normalizeConfig_of_shows {config : ProxyConfig} {fields : List (String × Json)}
    (h : ShowsConfig config.rendered fields) (hsettings : UsableSettings config)
    (hnormal : ∀ rule ∈ config.rendered.providers, rule.IsNormal) :
    ∃ providers, (migrateConfig (.obj fields)).bind (normalizeConfig env) =
        .ok { config with providers := providers, groups := config.rendered.groups } ∧
      List.Forall₂ Rule.SameAs providers config.rendered.providers := by
  have hversion : fields.lookup "configVersion" = some (.int currentConfigVersion.toNat) := by
    rw [← hsettings.version]
    exact h.configVersion
  have hparts : Decode.partialProxyConfig (.obj fields) =
      Decode.partialProxyConfig config.rendered.toJson := by
    have hfields : Decode.fields ["configVersion", "server", "compat", "logging", "ui", "remoteGit",
        "providers", "groups"] (.obj fields) = Decode.fields ["configVersion", "server", "compat",
          "logging", "ui", "remoteGit", "providers", "groups"] config.rendered.toJson := by
      unfold Decode.fields
      simp only [List.map_cons, List.map_nil]
      rw [h.configVersion, h.server, h.compat, h.logging, h.ui, h.remoteGit, h.providers, h.groups]
      rfl
    rw [Decode.partialProxyConfig, Decode.partialProxyConfig, hfields]
  obtain ⟨providers, hproviders, hsame⟩ := configProviders_toJson env hnormal
  have hgroups := configGroups_rendered env config.groups
  refine ⟨providers, ?_, hsame⟩
  rw [migrateConfig_of_current h.nodup hversion]
  show normalizeConfig env (.obj fields) = _
  rw [normalizeConfig, hparts, partialProxyConfig_toJson]
  dsimp only
  rw [hproviders]
  unfold ProxyConfig.rendered
  dsimp only
  rw [hgroups]
  show Except.ok ({
      configVersion := config.configVersion
      server := serverSettings (some config.server.toPartial)
      compat := config.compat
      logging := config.logging
      ui := uiSettings (some config.ui.toPartial)
      remoteGit := remoteGitSettings (some config.remoteGit.toPartial)
      providers := providers
      groups := config.groups.map Group.rendered } : ProxyConfig) = _
  rw [serverSettings_toPartial hsettings.host,
    uiSettings_toPartial hsettings.theme hsettings.locale hsettings.localeMode,
    remoteGitSettings_toPartial hsettings.branch]

/-! ### What the store saves -/

theorem normalizeGroups_rendered (env : NormalizeEnv) (hasGlobal : Bool) (place : ℕ)
    (stored : HashMap Rule) (groups : List Group) :
    normalizeGroups env hasGlobal place stored (groups.map Group.rendered) =
      (stored, groups.map Group.retired) := by
  have hgroup : ∀ place group, normalizeGroup env hasGlobal place stored (Group.rendered group) =
      (stored, group.retired) := by
    intro place group
    cases hasGlobal <;> rfl
  induction groups generalizing place with
  | nil => rfl
  | cons group groups ih =>
    rw [List.map_cons, normalizeGroups, hgroup]
    dsimp only
    rw [ih]
    rfl

theorem filter_isConfigured_retired (groups : List Group) :
    (groups.map Group.retired).filter Group.isConfigured =
      (groups.filter fun group => group.routingTable ≠ []).map Group.retired := by
  rw [List.filter_map]
  refine congrArg (List.map Group.retired) (List.filter_congr fun group _ => ?_)
  show (decide (group.routingTable ≠ []) || false || false) = _
  rw [Bool.or_false, Bool.or_false]

section Saved

variable {config : ProxyConfig}

theorem Saved.normal (h : Saved config) : (∀ rule ∈ config.providers, rule.IsNormal) ∧
    (config.providers.map fun rule => trimmed rule.id).Nodup := by
  obtain ⟨final, hsettled⟩ := h.exists_settled
  exact ⟨fun rule hmem =>
    hsettled.normal _ (HashMap.get_eq_some_iff.1 (hsettled.get_of_mem hmem).1),
    hsettled.nodup_trimmed⟩

theorem exists_source_of_mem_rendered {rule : Rule} (h : rule ∈ config.rendered.providers) :
    ∃ source ∈ config.providers, rule = source.withNames := by
  obtain ⟨source, hsource, rfl⟩ := List.mem_map.1 h
  exact ⟨source, List.mem_of_mem_filter hsource, rfl⟩

theorem Valid.retired (h : Valid config) : Valid config.retired := by
  have hsource : ∀ rule ∈ config.retired.providers, ∃ source ∈ config.providers,
      rule = source.withNames := fun rule hmem =>
    exists_source_of_mem_rendered (List.mem_of_mem_filter hmem)
  refine ⟨⟨h.settings.version, h.settings.host, h.settings.port, h.settings.token,
    h.settings.theme, h.settings.locale, h.settings.localeMode, h.settings.minutes,
    h.settings.branch⟩, ⟨fun rule hmem => ?_, fun rule hmem => ?_, fun rule _ => List.not_mem_nil,
    ?_⟩, fun group hmem => ?_⟩
  · obtain ⟨source, hin, rfl⟩ := hsource rule hmem
    exact h.providers.id source hin
  · obtain ⟨source, hin, rfl⟩ := hsource rule hmem
    exact h.providers.defaultModel source hin
  · have hsub : (config.retired.providers.map Rule.id).Sublist (config.providers.map Rule.id) :=
      (List.filter_sublist.map _).trans (sublist_id_rendered id config)
    exact h.providers.nodup.sublist hsub
  · obtain ⟨source, hin, rfl⟩ := List.mem_map.1 hmem
    have hgroup := h.groups source (List.mem_of_mem_filter hin)
    refine ⟨hgroup.id, hgroup.chars, hgroup.name, fun _ hid => (nomatch hid),
      fun _ hid => (nomatch hid), fun _ hid => (nomatch hid)⟩

theorem exists_read_unedited (h : Saved config)
    (hmodels : ∀ rule ∈ config.providers, rule.HasTrimmedModels) (env : RestartEnv) :
    ∃ next, (∀ store : ConfigStore, store.save env (Renderer.unedited config) =
        store.saveConfig env.normalize next) ∧
      (normalizeConfigForStorage env.normalize next).SameAs config.retired := by
  obtain ⟨hnormal, hnodup⟩ := h.normal
  have hvalid := h.valid
  have hrule : ∀ rule ∈ config.rendered.providers, rule.IsNormal ∧ trimmed rule.id ≠ "" := by
    intro rule hmem
    obtain ⟨source, hsource, rfl⟩ := exists_source_of_mem_rendered hmem
    exact ⟨(hnormal source hsource).withNames, hvalid.providers.id source hsource⟩
  -- the payload, what is read of it, and what normalization makes of that
  obtain ⟨fields, hpayload, hshows⟩ := shows_unedited hvalid.providers.nodup hnormal hmodels
  obtain ⟨providers, hread, hsame⟩ := normalizeConfig_of_shows env.read hshows hvalid.settings
    fun rule hmem => (hrule rule hmem).1
  obtain ⟨-, hvalues, -⟩ := globalProviders_normal env.normalize hsame
    (fun rule hmem => (hrule rule hmem).1) (fun rule hmem => (hrule rule hmem).2)
    (hnodup.sublist (sublist_id_rendered trimmed config))
  refine ⟨{ config with providers := providers, groups := config.rendered.groups }, fun store => ?_,
    ?_⟩
  · rw [ConfigStore.save, hpayload, hread]
  -- the rendered groups come back retired
  have hgroups := normalizeGroups_rendered env.normalize
    (!(globalProviders env.normalize providers).isEmpty) 1 (globalProviders env.normalize providers)
    config.groups
  have hresult : normalizeConfigForStorage env.normalize
      { config with providers := providers, groups := config.rendered.groups } =
        { config with
          groups := (config.groups.map Group.retired).filter Group.isConfigured
          providers := ((globalProviders env.normalize providers).entries.map Prod.snd).filter
            Rule.hasModels } := by
    show ({ config with
      groups := (normalizeGroups env.normalize
        (!(globalProviders env.normalize providers).isEmpty) 1
        (globalProviders env.normalize providers) (config.groups.map Group.rendered)).2.filter
          Group.isConfigured
      providers := ((normalizeGroups env.normalize
        (!(globalProviders env.normalize providers).isEmpty) 1
        (globalProviders env.normalize providers)
        (config.groups.map Group.rendered)).1.entries.map Prod.snd).filter
          Rule.hasModels } : ProxyConfig) = _
    rw [hgroups]
  rw [hresult, filter_isConfigured_retired]
  have hkept := @List.rel_filter _ _ Rule.SameAs Rule.hasModels Rule.hasModels
    (fun rule rule' hR => iff_of_eq (congrArg (· = true) hR.hasModels_eq)) _ _ hvalues
  exact ⟨rfl, hkept, List.forall₂_same.2 fun group _ => .refl group⟩

/-- **What an unedited save leaves.** -/
theorem uneditedSave (h : Saved config) (hmodels : ∀ rule ∈ config.providers, rule.HasTrimmedModels)
    (env : RestartEnv) (store : ConfigStore) :
    ∃ saved store', store.save env (Renderer.unedited config) = (.ok saved, store') ∧
      saved.SameAs config.retired := by
  obtain ⟨next, hsave, hsame⟩ := exists_read_unedited h hmodels env
  have hvalid := h.valid.retired
  have hgroupIds : (config.retired.groups.map Group.id).Nodup := by
    have hmap : config.retired.groups.map Group.id =
        (config.groups.filter fun group => group.routingTable ≠ []).map Group.id := by
      rw [ProxyConfig.retired]
      dsimp only
      rw [List.map_map]
      rfl
    rw [hmap]
    exact h.distinctKeys.1.sublist (List.filter_sublist.map _)
  have hdistinct : DistinctKeys (normalizeConfigForStorage env.normalize next) :=
    ⟨map_groupId_of_sameAs hsame.groups ▸ hgroupIds,
      map_id_of_sameAs hsame.providers ▸ hvalid.providers.nodup⟩
  obtain ⟨store', hok⟩ := exists_saveConfig_iff.2 ⟨rfl, hvalid.sameAs hsame, hdistinct⟩
  exact ⟨_, store', (hsave store).trans hok, hsame⟩

end Saved

/-- A provider with a blank model name, a group with a route, and one that links the provider. -/
def linkedGroupConfig : ProxyConfig :=
  { oneRouteConfig "p1" with
    providers := [{ sampleProvider "p1" with models := ["", "gpt"] }]
    groups := (oneRouteConfig "p1").groups ++
      [{ id := "old", name := "Old", routingTable := [], models := none
         providerIds := some ["p1"], activeProviderId := some "p1", providers := none
         failover := none }] }

theorem exists_saved_linkedGroup :
    ∃ config store, emptyStore.saveConfig NormalizeEnv.plain linkedGroupConfig =
        (.ok config, store) ∧ Saved config ∧ (∀ rule ∈ config.providers, rule.HasTrimmedModels) ∧
      config.groups.length = 2 ∧ config.retired.groups.length = 1 := by
  have hsave : ∃ config store, emptyStore.saveConfig NormalizeEnv.plain linkedGroupConfig =
      (.ok config, store) ∧ (∀ rule ∈ config.providers, rule.HasTrimmedModels) ∧
        config.groups.length = 2 ∧ config.retired.groups.length = 1 := by
    refine ⟨_, _, rfl, fun rule hmem => ?_, rfl, rfl⟩
    obtain rfl := List.mem_singleton.1 hmem
    refine ⟨fun model hmodel => ?_, by decide⟩
    rcases List.mem_pair.1 hmodel with rfl | rfl <;> exact ⟨rfl, rfl⟩
  obtain ⟨config, store, hconfig, hmodels, hlength, hretired⟩ := hsave
  exact ⟨config, store, hconfig, (saved_of_saveConfig hconfig).1, hmodels, hlength, hretired⟩

theorem uneditedSave_linkedGroup :
    ∃ config store, emptyStore.saveConfig NormalizeEnv.plain linkedGroupConfig =
        (.ok config, store) ∧
      ∃ saved store', store.save RestartEnv.plain (Renderer.unedited config) = (.ok saved, store') ∧
        saved.SameAs config.retired := by
  obtain ⟨config, store, hconfig, hsaved, hmodels, -⟩ := exists_saved_linkedGroup
  exact ⟨config, store, hconfig, uneditedSave hsaved hmodels RestartEnv.plain store⟩

/-- The group that only links a provider is lost. -/
theorem not_uneditedSaveKeeps_linkedGroup :
    ∃ config store, emptyStore.saveConfig NormalizeEnv.plain linkedGroupConfig =
        (.ok config, store) ∧ (config.groups.map Group.id).Nodup ∧
      (∀ rule ∈ config.providers, rule.HasTrimmedModels) ∧ ¬ UneditedSaveKeeps config := by
  obtain ⟨config, store, hconfig, hsaved, hmodels, hlength, hretired⟩ := exists_saved_linkedGroup
  refine ⟨config, store, hconfig, hsaved.distinctKeys.1, hmodels, fun hkeeps => ?_⟩
  obtain ⟨saved, store', hsave, hsame⟩ := hkeeps RestartEnv.plain store
  obtain ⟨next, hnext, hrel⟩ := exists_read_unedited hsaved hmodels RestartEnv.plain
  rw [hnext store] at hsave
  obtain ⟨rfl, -⟩ := exists_saveConfig_iff.1 ⟨store', hsave⟩
  have hleft := hrel.groups.length_eq
  have hright := hsame.groups.length_eq
  simp only [ProxyConfig.withFailovers, List.length_map] at hright
  omega

end AiOpenRouter
