/-
The configuration store: a file with the settings, and two tables with the groups
and the providers (`ConfigStore`).

* `saveConfig` writes what it accepts; `initialize` reads it again, or goes back to
  the defaults;
* `survives_iff`: a saved configuration survives a restart exactly when the
  providers that its groups link are stored, and the floats of the stored ones are
  read as they were printed.
-/
import AiOpenRouter.ConfigSchema
import AiOpenRouter.ProviderStore
import AiOpenRouter.Routing

namespace AiOpenRouter

/-! ### The disk -/

/-- The configuration file: none, a text that is no JSON, or the text of a value. -/
inductive ConfigFile where
  | missing
  | invalid
  | json (value : Json)

/-- The file, and the rows of the tables of the current schema in the order of their insertion: the
primary key and the JSON column. -/
structure Disk where
  file : ConfigFile
  groupRecords : List (String × Json)
  providerRecords : List (String × Json)

/-- `INSERT` into a table with a primary key. -/
def insertRecord (what primaryKey : String) (records : List (String × Json))
    (record : String × Json) : Except String (List (String × Json)) :=
  if record.1 ∈ records.map Prod.fst then
    .error ("insert " ++ what ++ " record failed: UNIQUE constraint failed: " ++ primaryKey)
  else .ok (records ++ [record])

/-- `persist_groups_and_providers`: both tables are written anew, in one transaction. -/
def persistGroupsAndProviders (groups : List Group) (providers : List Rule) (disk : Disk) :
    Except String Disk := do
  let groupRecords ← groups.foldlM
    (fun records group => insertRecord "group" "group_records.group_id" records
      (group.id, group.toJson)) []
  let providerRecords ← providers.foldlM
    (fun records provider => insertRecord "provider" "provider_records.provider_id" records
      (provider.id, provider.toJson)) []
  return { disk with groupRecords := groupRecords, providerRecords := providerRecords }

/-- A configuration without its groups and providers. -/
def ProxyConfig.settings (config : ProxyConfig) : ProxyConfig :=
  { config with providers := [], groups := [] }

/-- `ConfigStore::write_file`. -/
def Disk.writeFile (disk : Disk) (config : ProxyConfig) : Disk :=
  { disk with file := .json config.settings.toJson }

/-- `ConfigStore::save_config_to_db`, then `write_file`. -/
def Disk.store (disk : Disk) (config : ProxyConfig) : Except String Disk :=
  (persistGroupsAndProviders config.groups config.providers disk).map (·.writeFile config)

/-! ### Saving -/

/-- The store: the disk, the configuration in memory and its revision. -/
structure ConfigStore where
  disk : Disk
  config : ProxyConfig
  revision : ℕ

/-- `ConfigStore::set_in_memory`. -/
def ConfigStore.setInMemory (store : ConfigStore) (config : ProxyConfig) : ConfigStore :=
  { store with config := config, revision := store.revision + 1 }

/-- `ConfigStore::save_config`. -/
def ConfigStore.saveConfig (env : NormalizeEnv) (nextConfig : ProxyConfig) (store : ConfigStore) :
    Except String ProxyConfig × ConfigStore :=
  match acceptConfig env nextConfig with
  | .error message => (.error message, store)
  | .ok normalized =>
    match store.disk.store normalized with
    | .error message => (.error message, store)
    | .ok disk => (.ok normalized, { store with disk := disk }.setInMemory normalized)

/-! ### Loading -/

/-- What starting again takes from outside. -/
structure RestartEnv where
  normalize : NormalizeEnv
  read : ReadEnv

def readRecord {α : Type} (env : ReadEnv) (failure : String) (decode : Option Json → Option α)
    (record : String × Json) : Except String (String × α) :=
  match (env.reread record.2).bind fun value => decode (some value) with
  | some value => .ok (record.1, value)
  | none => .error (failure ++ env.errorText record.2)

def readRecords {α : Type} (env : ReadEnv) (failure : String)
    (decode : ℕ → Option Json → Option α) : ℕ → List (String × Json) →
      Except String (List (String × α))
  | _, [] => .ok []
  | i, record :: records => do
    let value ← readRecord env failure (decode i) record
    let values ← readRecords env failure decode (i + 1) records
    return value :: values

def Group.join (providerMap : HashMap Rule) (group : Group) : Group :=
  { group with providers := some ((group.providerIds.getD []).filterMap providerMap.get) }

def readProviders (env : ReadEnv) (records : List (String × Json)) :
    Except String (List (String × Rule)) :=
  readRecords env "parse provider_json failed: " (fun i => Decode.rule env [i, 2]) 0 records

def readGroups (env : ReadEnv) (records : List (String × Json)) :
    Except String (List (String × Group)) :=
  readRecords env "parse group_json failed: " (fun i => Decode.group env [i, 3]) 0 records

/-- `load_groups_and_providers_from_relational_tables`. -/
def Disk.load (env : ReadEnv) (disk : Disk) : Except String (List Group × List Rule) := do
  let providers ← readProviders env disk.providerRecords
  let groups ← readGroups env disk.groupRecords
  return (groups.map fun group => group.2.join (HashMap.ofEntries providers),
    providers.map Prod.snd)

def Disk.fileValue (env : ReadEnv) (disk : Disk) : Json :=
  match disk.file with
  | .json value => (env.reread value).getD (.obj [])
  | _ => .obj []

/-- The configuration of the file and of the tables: the tables count unless both are empty, and
are then filled from the file. -/
def Disk.loadConfig (env : RestartEnv) (disk : Disk) : Except String (ProxyConfig × Disk) := do
  let config ← (migrateConfig (disk.fileValue env.read)).bind (normalizeConfig env.read)
  let normalized := normalizeConfigForStorage env.normalize config
  let (groups, providers) ← disk.load env.read
  if groups.isEmpty && providers.isEmpty then do
    let disk ← persistGroupsAndProviders normalized.groups normalized.providers disk
    return (normalized, disk)
  else return ({ normalized with groups := groups, providers := providers }, disk)

def ConfigStore.reset (env : NormalizeEnv) (store : ConfigStore) : Except String ConfigStore :=
  let defaults := normalizeConfigForStorage env defaultConfig
  (store.disk.store defaults).map fun disk => { store with disk := disk }.setInMemory defaults

/-- `ConfigStore::new`. -/
def ConfigStore.new (disk : Disk) : ConfigStore :=
  { disk := disk, config := defaultConfig, revision := 0 }

/-- `ConfigStore::initialize`, on tables of the current schema. -/
def ConfigStore.initializeStore (env : RestartEnv) (store : ConfigStore) :
    Except String Unit × ConfigStore :=
  match store.disk.file with
  | .missing =>
    match store.reset env.normalize with
    | .error message => (.error message, store)
    | .ok store => (.ok (), store)
  | _ =>
    match store.disk.loadConfig env with
    | .error message => (.error message, store)
    | .ok (config, disk) =>
      match validateConfig config with
      | .error message =>
        match { store with disk := disk }.reset env.normalize with
        | .error message => (.error message, { store with disk := disk })
        | .ok store => (.error ("config invalid, reset to default: " ++ message), store)
      | .ok () => (.ok (), { store with disk := disk.writeFile config }.setInMemory config)

/-! ### What a save leaves on the disk -/

variable {env : ReadEnv} {group : Group} {rows : List (String × Rule)} {rule : Rule}
  {rules : List Rule} {α : Type} {failure : String}

theorem foldlM_insertRecord {what primaryKey : String} {row : α → String × Json} {xs : List α}
    {records records' : List (String × Json)}
    (h : xs.foldlM (fun records x => insertRecord what primaryKey records (row x)) records =
      .ok records') :
    records' = records ++ xs.map row := by
  induction xs generalizing records with
  | nil =>
    rw [List.foldlM_nil] at h
    cases h
    exact (List.append_nil _).symm
  | cons x xs ih =>
    rw [List.foldlM_cons, bind_eq_ok_iff] at h
    obtain ⟨next, hnext, hrest⟩ := h
    unfold insertRecord at hnext
    split_ifs at hnext
    cases hnext
    rw [ih hrest, List.append_assoc, List.map_cons]
    rfl

def groupRows (groups : List Group) : List (String × Json) :=
  groups.map fun group => (group.id, group.toJson)

def providerRows (providers : List Rule) : List (String × Json) :=
  providers.map fun provider => (provider.id, provider.toJson)

theorem persist_eq_ok {groups : List Group} {providers : List Rule} {disk disk' : Disk}
    (h : persistGroupsAndProviders groups providers disk = .ok disk') :
    disk' = { disk with
      groupRecords := groupRows groups, providerRecords := providerRows providers } := by
  unfold persistGroupsAndProviders at h
  rw [bind_eq_ok_iff] at h
  obtain ⟨groupRecords, hgroups, h⟩ := h
  rw [bind_eq_ok_iff] at h
  obtain ⟨providerRecords, hproviders, h⟩ := h
  rw [foldlM_insertRecord hgroups, foldlM_insertRecord hproviders] at h
  cases h
  rfl

def Disk.Holds (disk : Disk) (config : ProxyConfig) : Prop :=
  disk = { file := .json config.settings.toJson
           groupRecords := groupRows config.groups
           providerRecords := providerRows config.providers }

theorem saveConfig_eq_ok_iff {env : NormalizeEnv} {nextConfig saved : ProxyConfig}
    {store store' : ConfigStore} :
    store.saveConfig env nextConfig = (.ok saved, store') ↔
      acceptConfig env nextConfig = .ok saved ∧ ∃ disk, store.disk.store saved = .ok disk ∧
        store' = { store with disk := disk }.setInMemory saved := by
  unfold ConfigStore.saveConfig
  constructor
  · intro h
    cases haccept : acceptConfig env nextConfig with
    | error message =>
      rw [haccept] at h
      cases h
    | ok accepted =>
      rw [haccept] at h
      dsimp only at h
      cases hdisk : store.disk.store accepted with
      | error message =>
        rw [hdisk] at h
        cases h
      | ok disk =>
        rw [hdisk] at h
        cases h
        exact ⟨rfl, disk, hdisk, rfl⟩
  · rintro ⟨haccept, disk, hdisk, rfl⟩
    rw [haccept]
    dsimp only
    rw [hdisk]

theorem saveConfig_ok {env : NormalizeEnv} {nextConfig normalized : ProxyConfig}
    {store store' : ConfigStore}
    (h : store.saveConfig env nextConfig = (.ok normalized, store')) :
    normalizeConfigForStorage env nextConfig = normalized ∧ Valid normalized ∧
      store'.disk.Holds normalized := by
  obtain ⟨haccept, disk, hdisk, rfl⟩ := saveConfig_eq_ok_iff.1 h
  obtain ⟨hnormal, hvalid⟩ := acceptConfig_eq_ok_iff.1 haccept
  refine ⟨hnormal, validateConfig_ok_iff.1 hvalid, ?_⟩
  unfold Disk.store at hdisk
  cases hpersist : persistGroupsAndProviders normalized.groups normalized.providers store.disk with
  | error message =>
    rw [hpersist] at hdisk
    cases hdisk
  | ok persisted =>
    rw [hpersist] at hdisk
    cases hdisk
    rw [persist_eq_ok hpersist]
    rfl

/-! ### Reading rows back -/

theorem readRecord_eq_ok_iff {α : Type} {env : ReadEnv} {failure : String}
    {decode : Option Json → Option α} {record : String × Json} {key : String} {value : α} :
    readRecord env failure decode record = .ok (key, value) ↔
      record.1 = key ∧
        ∃ json, env.reread record.2 = some json ∧ decode (some json) = some value := by
  unfold readRecord
  cases hread : env.reread record.2 with
  | none => simp
  | some json => cases hdecode : decode (some json) <;> simp [hdecode]

theorem forall₂_of_readRecords {β : Type} {decode : ℕ → Option Json → Option α}
    {row : β → String × Json} {xs : List β} {i : ℕ} {values : List (String × α)}
    (h : readRecords env failure decode i (xs.map row) = .ok values) :
    List.Forall₂ (fun value x => ∃ i, readRecord env failure (decode i) (row x) = .ok value)
      values xs := by
  induction xs generalizing i values with
  | nil =>
    cases h
    exact .nil
  | cons x xs ih =>
    rw [List.map_cons, readRecords, bind_eq_ok_iff] at h
    obtain ⟨value, hvalue, h⟩ := h
    rw [bind_eq_ok_iff] at h
    obtain ⟨rest, hrest, h⟩ := h
    cases h
    exact .cons ⟨i, hvalue⟩ (ih hrest)

theorem exists_readRecords {β : Type} {decode : ℕ → Option Json → Option α}
    {row : β → String × Json} {P : String × α → β → Prop} {xs : List β}
    (h : ∀ i, ∀ x ∈ xs, ∃ value, readRecord env failure (decode i) (row x) = .ok value ∧ P value x)
    (i : ℕ) :
    ∃ values, readRecords env failure decode i (xs.map row) = .ok values ∧
      List.Forall₂ P values xs := by
  induction xs generalizing i with
  | nil => exact ⟨[], rfl, .nil⟩
  | cons x xs ih =>
    obtain ⟨value, hvalue, hP⟩ := h i x List.mem_cons_self
    obtain ⟨values, hvalues, hPs⟩ := ih (fun j y hy => h j y (List.mem_cons_of_mem _ hy)) (i + 1)
    refine ⟨value :: values, ?_, .cons hP hPs⟩
    rw [List.map_cons, readRecords, hvalue, hvalues]
    rfl

theorem exists_readRecord_rule (failure : String) (place : List ℕ)
    (h : env.ReadsFloats rule.toJson) :
    ∃ value, readRecord env failure (Decode.rule env place) (rule.id, rule.toJson) =
      .ok (rule.id, value) ∧ value.SameAs rule := by
  obtain ⟨value, hread, hsame⟩ := Decode.rule_toJson env place rule
  exact ⟨value, readRecord_eq_ok_iff.2 ⟨rfl, _, ReadEnv.reread_eq_self h, hread⟩, hsame⟩

/-- **A provider that is read back as the same has floats that are read as they were printed.** -/
theorem readsFloats_of_readRecord {place : List ℕ} {value : String × Rule}
    (h : readRecord env failure (Decode.rule env place) (rule.id, rule.toJson) = .ok value)
    (hsame : value.2.SameAs rule) : env.ReadsFloats rule.toJson := by
  obtain ⟨-, json, hreread, hdecode⟩ := readRecord_eq_ok_iff.1 h
  obtain ⟨rfl, hfloats⟩ := ReadEnv.reread_eq_some hreread
  -- what is read is the provider with its floats changed
  rw [← Rule.toJson_mapFloats] at hdecode
  obtain ⟨value', hvalue', hmapped⟩ := Decode.rule_toJson env place (rule.mapFloats env.floatRead)
  rw [hvalue', Option.some_inj] at hdecode
  subst hdecode
  have hself := (Json.mapFloats_eq_self_iff _ _).1
    (Rule.toJson_of_mapFloats_sameAs env.floatRead (hmapped.symm.trans hsame))
  intro text hmem
  rw [hfloats text hmem, hself text hmem]

theorem readsFloats_group (h : ∀ rule ∈ group.providers.getD [], env.ReadsFloats rule.toJson) :
    env.ReadsFloats group.toJson := by
  have hstrings : ∀ texts : List String, (strings texts).floats = [] := by
    intro texts
    rw [strings, Json.floats, Json.floatsItems_eq, List.flatMap_map]
    exact List.flatMap_eq_nil_iff.2 fun _ _ => rfl
  have hroutes : Json.floatsItems (group.routingTable.map RouteEntry.toJson) = [] := by
    rw [Json.floatsItems_eq, List.flatMap_map]
    exact List.flatMap_eq_nil_iff.2 fun _ _ => rfl
  intro text hmem
  rw [Group.toJson, Json.floats, Json.floatsFields_eq] at hmem
  simp only [List.flatMap_append, List.mem_append] at hmem
  rcases hmem with ((((hmem | hmem) | hmem) | hmem) | hmem) | hmem
  · simp [Json.floats, hroutes] at hmem
  · cases hmodels : group.models <;> simp [optionalField, hmodels, hstrings] at hmem
  · cases hids : group.providerIds <;> simp [optionalField, hids, hstrings] at hmem
  · cases hactive : group.activeProviderId <;> simp [optionalField, hactive, Json.floats] at hmem
  · cases hproviders : group.providers with
    | none => simp [optionalField, hproviders] at hmem
    | some rules =>
      simp only [optionalField, hproviders, Option.map_some, Option.toList_some, List.map_cons,
        List.map_nil, List.flatMap_cons, List.flatMap_nil, List.append_nil, Json.floats,
        Json.floatsItems_eq, List.flatMap_map, List.mem_flatMap] at hmem
      obtain ⟨rule, hrule, htext⟩ := hmem
      exact h rule (by rwa [hproviders]) text htext
  · cases hfailover : group.failover <;>
      simp [optionalField, hfailover, GroupFailoverConfig.toJson, Json.floats,
        Json.floatsFields, Json.int] at hmem

theorem exists_readRecord_group (failure : String) (place : List ℕ)
    (h : ∀ rule ∈ group.providers.getD [], env.ReadsFloats rule.toJson) :
    ∃ value, readRecord env failure (Decode.group env place) (group.id, group.toJson) =
      .ok (group.id, value) ∧ value.SameAs group := by
  obtain ⟨value, hread, hsame⟩ := Decode.group_toJson env place group
  exact ⟨value, readRecord_eq_ok_iff.2
    ⟨rfl, _, ReadEnv.reread_eq_self (readsFloats_group h), hread⟩, hsame⟩

/-! ### The providers of a group, joined again -/

def Backs (rows : List (String × Rule)) (rules : List Rule) : Prop :=
  List.Forall₂ (fun row rule => row.1 = rule.id ∧ row.2.SameAs rule) rows rules

theorem Backs.keys (h : Backs rows rules) : rows.map Prod.fst = rules.map Rule.id := by
  induction h with
  | nil => rfl
  | cons hrow _ ih => rw [List.map_cons, List.map_cons, hrow.1, ih]

theorem Backs.sameAs (h : Backs rows rules) :
    List.Forall₂ Rule.SameAs (rows.map Prod.snd) rules := by
  induction h with
  | nil => exact .nil
  | cons hrow _ ih => exact .cons hrow.2 ih

theorem Backs.exists_row (h : Backs rows rules) (hmem : rule ∈ rules) :
    ∃ value, (rule.id, value) ∈ rows ∧ value.SameAs rule := by
  induction h with
  | nil => cases hmem
  | cons hrow _ ih =>
    rcases List.mem_cons.1 hmem with rfl | hmem
    · exact ⟨_, List.mem_cons.2 (.inl (Prod.ext hrow.1.symm rfl)), hrow.2⟩
    · obtain ⟨value, hvalue, hsame⟩ := ih hmem
      exact ⟨value, List.mem_cons_of_mem _ hvalue, hsame⟩

theorem Backs.exists_rule (h : Backs rows rules) {row : String × Rule} (hmem : row ∈ rows) :
    ∃ rule ∈ rules, row.2.SameAs rule := by
  induction h with
  | nil => cases hmem
  | cons hrow _ ih =>
    rcases List.mem_cons.1 hmem with rfl | hmem
    · exact ⟨_, List.mem_cons_self, hrow.2⟩
    · obtain ⟨rule, hrule, hsame⟩ := ih hmem
      exact ⟨rule, List.mem_cons_of_mem _ hrule, hsame⟩

section Joined

variable {rows : List (String × Rule)} {rules : List Rule}

theorem Backs.exists_get (h : Backs rows rules) (hnodup : (rules.map Rule.id).Nodup) {rule : Rule}
    (hmem : rule ∈ rules) :
    ∃ value, (HashMap.ofEntries rows).get rule.id = some value ∧ value.SameAs rule := by
  obtain ⟨value, hvalue, hsame⟩ := h.exists_row hmem
  refine ⟨value, ?_, hsame⟩
  rw [HashMap.get_eq_some_iff, HashMap.entries_ofEntries (by rwa [h.keys])]
  exact hvalue

theorem Backs.exists_of_get (h : Backs rows rules) (hnodup : (rules.map Rule.id).Nodup)
    {id : String} {value : Rule} (hget : (HashMap.ofEntries rows).get id = some value) :
    ∃ rule ∈ rules, value.SameAs rule := by
  rw [HashMap.get_eq_some_iff, HashMap.entries_ofEntries (by rwa [h.keys])] at hget
  exact h.exists_rule hget

end Joined

theorem forall₂_filterMap {β : Type} {R : β → β → Prop} {f g : α → Option β} {xs : List α}
    (h : ∀ x ∈ xs, ∃ a b, f x = some a ∧ g x = some b ∧ R a b) :
    List.Forall₂ R (xs.filterMap f) (xs.filterMap g) := by
  induction xs with
  | nil => exact .nil
  | cons x xs ih =>
    obtain ⟨a, b, ha, hb, hR⟩ := h x List.mem_cons_self
    rw [List.filterMap_cons_some ha, List.filterMap_cons_some hb]
    exact .cons hR (ih fun y hy => h y (List.mem_cons_of_mem _ hy))

/-! ### The same configuration passes the same checks -/

theorem any_not_isEmpty_eq {m m' : Option (HashMap String)} (h : Option.Rel HashMap.SameAs m m') :
    (m.any fun m => !m.isEmpty) = m'.any fun m => !m.isEmpty := by
  cases h with
  | none => rfl
  | some hperm =>
    rw [Option.any_some, Option.any_some, HashMap.isEmpty, HashMap.isEmpty, hperm.isEmpty_eq]

theorem Rule.SameAs.hasModels_eq {rule' : Rule} (h : rule.SameAs rule') :
    rule.hasModels = rule'.hasModels := by
  rw [Rule.hasModels, Rule.hasModels, h.models_eq, h.defaultModel_eq,
    any_not_isEmpty_eq h.modelMappings]

theorem Group.SameAs.effectiveProviderIds_eq {group' : Group} (h : group.SameAs group') :
    effectiveProviderIds group = effectiveProviderIds group' := by
  have hproviders := map_id_of_sameAs h.providers_getD
  unfold effectiveProviderIds
  rw [h.providerIds_eq, hproviders]

theorem UsableProviders.sameAs {providerIds : List String} {providers providers' : List Rule}
    (h : UsableProviders providerIds providers')
    (hsame : List.Forall₂ Rule.SameAs providers providers') :
    UsableProviders providerIds providers := by
  refine ⟨fun provider hmem => ?_, fun provider hmem => ?_, fun provider hmem => ?_, ?_⟩
  · obtain ⟨provider', hmem', hsame'⟩ := exists_mem_of_forall₂ hsame hmem
    rw [hsame'.id_eq]
    exact h.id provider' hmem'
  · obtain ⟨provider', hmem', hsame'⟩ := exists_mem_of_forall₂ hsame hmem
    rw [hsame'.defaultModel_eq]
    exact h.defaultModel provider' hmem'
  · obtain ⟨provider', hmem', hsame'⟩ := exists_mem_of_forall₂ hsame hmem
    rw [hsame'.id_eq]
    exact h.new provider' hmem'
  · rw [map_id_of_sameAs hsame]
    exact h.nodup

theorem UsableGroup.sameAs {config config' : ProxyConfig} {group' : Group}
    (h : UsableGroup config' group')
    (hproviders : List.Forall₂ Rule.SameAs config.providers config'.providers)
    (hsame : group.SameAs group') : UsableGroup config group := by
  have hid : group.id = group'.id := by
    have hparts := congrArg Group.id hsame.rest
    exact hparts
  have hname : group.name = group'.name := by
    have hparts := congrArg Group.name hsame.rest
    exact hparts
  have hactive : group.activeProviderId = group'.activeProviderId := by
    have hparts := congrArg Group.activeProviderId hsame.rest
    exact hparts
  have hids := hsame.effectiveProviderIds_eq
  refine ⟨hid ▸ h.id, hid ▸ h.chars, hname ▸ h.name, hids ▸ h.providerId, ?_, ?_⟩
  · intro id hmem
    obtain ⟨provider', hmem', rfl⟩ := h.provider id (hids ▸ hmem)
    rcases hmem' with hmem' | hmem'
    · obtain ⟨provider, hprovider, hsame'⟩ := exists_left_of_mem hproviders hmem'
      exact ⟨provider, .inl hprovider, hsame'.id_eq⟩
    · obtain ⟨provider, hprovider, hsame'⟩ := exists_left_of_mem hsame.providers_getD hmem'
      exact ⟨provider, .inr hprovider, hsame'.id_eq⟩
  · rw [hactive, hids]
    exact h.active

theorem Valid.sameAs {config config' : ProxyConfig} (h : Valid config')
    (hsame : config.SameAs config') : Valid config := by
  have heq : config.settings = config'.settings := hsame.settings
  have hsettings : UsableSettings config'.settings :=
    ⟨h.settings.version, h.settings.host, h.settings.port, h.settings.token, h.settings.theme,
      h.settings.locale, h.settings.localeMode, h.settings.minutes, h.settings.branch⟩
  rw [← heq] at hsettings
  refine ⟨⟨hsettings.version, hsettings.host, hsettings.port, hsettings.token, hsettings.theme,
    hsettings.locale, hsettings.localeMode, hsettings.minutes, hsettings.branch⟩,
    h.providers.sameAs hsame.providers, fun group hmem => ?_⟩
  obtain ⟨group', hmem', hgroup⟩ := exists_mem_of_forall₂ hsame.groups hmem
  exact (h.groups group' hmem').sameAs hsame.providers hgroup

/-! ### Loading what was saved -/

/-- The configurations that survive a restart: the providers that groups embed are stored, and the
floats of the stored ones are read as they were printed. -/
structure Restorable (env : ReadEnv) (config : ProxyConfig) : Prop where
  stored : ∀ group ∈ config.groups, ∀ rule ∈ group.providers.getD [], rule.hasModels = true
  floats : ∀ rule ∈ config.providers, env.ReadsFloats rule.toJson

section Loading

variable {env : ReadEnv} {disk : Disk} {config : ProxyConfig} {stored : HashMap Rule}

theorem Restorable.mem_providers (h : Restorable env config) (hvalid : Valid config)
    (hfrom : ComesFrom stored config) {group : Group} (hgroup : group ∈ config.groups)
    {ids : List String} (hids : group.providerIds = some ids)
    (hembedded : group.providers = some (ids.filterMap stored.get)) {id : String} (hmem : id ∈ ids)
    {rule : Rule} (hget : stored.get id = some rule) : rule ∈ config.providers ∧ rule.id = id := by
  have hrule : rule ∈ group.providers.getD [] := by
    rw [hembedded]
    exact List.mem_filterMap.2 ⟨id, hmem, hget⟩
  exact ⟨hfrom.mem_providers hget (h.stored group hgroup rule hrule),
    hvalid.id_of_get hfrom hgroup hids hembedded hmem hget⟩

theorem join_sameAs (h : Restorable env config) (hvalid : Valid config)
    (hfrom : ComesFrom stored config) {rows : List (String × Rule)}
    (hrows : Backs rows config.providers) {group value : Group} (hgroup : group ∈ config.groups)
    (hsame : value.SameAs group) : (value.join (HashMap.ofEntries rows)).SameAs group := by
  obtain ⟨ids, hids, hkeys, hembedded⟩ := hfrom.groups group hgroup
  have hvalueIds : value.providerIds = some ids := by
    have hparts := congrArg Group.providerIds hsame.rest
    exact hparts.trans hids
  refine ⟨hsame.rest, ?_⟩
  rw [Group.join, hvalueIds, hembedded]
  refine .some (forall₂_filterMap fun id hmem => ?_)
  obtain ⟨rule, hget⟩ := Option.isSome_iff_exists.1 (HashMap.get_isSome_iff.2 (hkeys id hmem))
  obtain ⟨hrule, hid⟩ := h.mem_providers hvalid hfrom hgroup hids hembedded hmem hget
  obtain ⟨found, hfound, hfoundSame⟩ := hrows.exists_get hvalid.providers.nodup hrule
  exact ⟨found, rule, hid ▸ hfound, hget, hfoundSame⟩

theorem exists_readProviders (h : Restorable env config) :
    ∃ rows, readProviders env (providerRows config.providers) = .ok rows ∧
      Backs rows config.providers := by
  refine exists_readRecords (fun i rule hmem => ?_) 0
  obtain ⟨value, hread, hsame⟩ := exists_readRecord_rule "parse provider_json failed: " [i, 2]
    (h.floats rule hmem)
  exact ⟨(rule.id, value), hread, rfl, hsame⟩

theorem exists_readGroups (h : Restorable env config) (hvalid : Valid config)
    (hfrom : ComesFrom stored config) :
    ∃ rows, readGroups env (groupRows config.groups) = .ok rows ∧
      List.Forall₂ (fun (row : String × Group) group => group ∈ config.groups ∧ row.2.SameAs group)
        rows config.groups := by
  refine exists_readRecords (fun i group hgroup => ?_) 0
  have hfloats : ∀ rule ∈ group.providers.getD [], env.ReadsFloats rule.toJson := by
    intro rule hrule
    obtain ⟨ids, hids, -, hembedded⟩ := hfrom.groups group hgroup
    rw [hembedded] at hrule
    obtain ⟨id, hmem, hget⟩ := List.mem_filterMap.1 hrule
    exact h.floats rule (h.mem_providers hvalid hfrom hgroup hids hembedded hmem hget).1
  obtain ⟨value, hread, hsame⟩ := exists_readRecord_group "parse group_json failed: " [i, 3] hfloats
  exact ⟨(group.id, value), hread, hgroup, hsame⟩

/-- **What can be restored is loaded as it was saved.** -/
theorem exists_load (hdisk : disk.Holds config) (hvalid : Valid config)
    (hfrom : ComesFrom stored config) (h : Restorable env config) :
    ∃ groups providers, disk.load env = .ok (groups, providers) ∧
      List.Forall₂ Group.SameAs groups config.groups ∧
        List.Forall₂ Rule.SameAs providers config.providers := by
  obtain ⟨rows, hrows, hbacks⟩ := exists_readProviders h
  obtain ⟨groups, hgroups, hsame⟩ := exists_readGroups h hvalid hfrom
  refine ⟨groups.map fun group => group.2.join (HashMap.ofEntries rows), rows.map Prod.snd, ?_, ?_,
    hbacks.sameAs⟩
  · subst hdisk
    rw [Disk.load, hrows, hgroups]
    rfl
  · rw [List.forall₂_map_left_iff]
    exact hsame.imp fun _ _ hrow => join_sameAs h hvalid hfrom hbacks hrow.1 hrow.2

theorem forall₂_and {α β : Type} {R S : α → β → Prop} {xs : List α} {ys : List β}
    (h : List.Forall₂ R xs ys) (h' : List.Forall₂ S xs ys) :
    List.Forall₂ (fun x y => R x y ∧ S x y) xs ys := by
  induction h with
  | nil => exact .nil
  | cons hR _ ih =>
    cases h' with
    | cons hS hrest => exact .cons ⟨hR, hS⟩ (ih hrest)

/-- **What is loaded as it was saved can be restored.** -/
theorem restorable_of_load (hdisk : disk.Holds config) (hvalid : Valid config)
    (hfrom : ComesFrom stored config) {groups : List Group} {providers : List Rule}
    (hload : disk.load env = .ok (groups, providers))
    (hgroups : List.Forall₂ Group.SameAs groups config.groups)
    (hproviders : List.Forall₂ Rule.SameAs providers config.providers) :
    Restorable env config := by
  subst hdisk
  rw [Disk.load, bind_eq_ok_iff] at hload
  obtain ⟨rows, hrows, hload⟩ := hload
  rw [bind_eq_ok_iff] at hload
  obtain ⟨groupValues, -, hload⟩ := hload
  cases hload
  rw [List.forall₂_map_left_iff] at hproviders
  have hread := forall₂_and (forall₂_of_readRecords hrows) hproviders
  have hbacks : Backs rows config.providers :=
    hread.imp fun _ _ ⟨⟨_, hrow⟩, hsame⟩ => ⟨(readRecord_eq_ok_iff.1 hrow).1.symm, hsame⟩
  constructor
  · intro group hgroup rule hrule
    obtain ⟨loaded, hloaded, hsame⟩ := exists_left_of_mem hgroups hgroup
    obtain ⟨value, -, rfl⟩ := List.mem_map.1 hloaded
    obtain ⟨rule', hrule', hruleSame⟩ := exists_left_of_mem hsame.providers_getD hrule
    obtain ⟨id, -, hget⟩ := List.mem_filterMap.1 hrule'
    obtain ⟨kept, hkept, hkeptSame⟩ := hbacks.exists_of_get hvalid.providers.nodup hget
    rw [← hruleSame.hasModels_eq, hkeptSame.hasModels_eq]
    exact hfrom.hasModels hkept
  · intro rule hrule
    obtain ⟨row, -, ⟨i, hrow⟩, hsame⟩ := exists_left_of_mem hread hrule
    exact readsFloats_of_readRecord hrow hsame

end Loading

/-! ### Starting again -/

/-- Starting again on a disk succeeds, and has a configuration in memory. -/
def Survives (env : RestartEnv) (disk : Disk) (config : ProxyConfig) : Prop :=
  ((ConfigStore.new disk).initializeStore env).1 = .ok () ∧
    ((ConfigStore.new disk).initializeStore env).2.config.SameAs config

section Restarting

variable {env : RestartEnv} {disk : Disk} {config : ProxyConfig}

theorem readFile_of_holds (hdisk : disk.Holds config) (hvalid : Valid config) :
    (migrateConfig (disk.fileValue env.read)).bind (normalizeConfig env.read) =
      .ok config.settings := by
  have hfloats : config.settings.toJson.floats = [] := rfl
  have hsettings : UsableSettings config.settings :=
    ⟨hvalid.settings.version, hvalid.settings.host, hvalid.settings.port, hvalid.settings.token,
      hvalid.settings.theme, hvalid.settings.locale, hvalid.settings.localeMode,
      hvalid.settings.minutes, hvalid.settings.branch⟩
  have hvalue : disk.fileValue env.read = config.settings.toJson := by
    rw [hdisk, Disk.fileValue]
    dsimp only
    rw [ReadEnv.reread_eq_self (ReadEnv.readsFloats_of_floats_eq_nil hfloats)]
    rfl
  rw [hvalue]
  exact readConfig_toJson env.read hsettings rfl rfl

/-- **The configuration that is loaded** has the settings of the file, and the groups and the
providers of the tables. -/
theorem loadConfig_of_load (hdisk : disk.Holds config) (hvalid : Valid config)
    {groups : List Group} {providers : List Rule}
    (hload : disk.load env.read = .ok (groups, providers)) :
    ∃ disk', disk.loadConfig env =
      .ok ({ config with groups := groups, providers := providers }, disk') := by
  have hnormal : normalizeConfigForStorage env.normalize config.settings = config.settings := rfl
  unfold Disk.loadConfig
  rw [readFile_of_holds hdisk hvalid, hload]
  show ∃ disk', (if groups.isEmpty && providers.isEmpty then _ else _) = _
  rw [hnormal]
  by_cases hempty : (groups.isEmpty && providers.isEmpty) = true
  · obtain ⟨hgroups, hproviders⟩ := Bool.and_eq_true_iff.1 hempty
    rw [if_pos hempty, List.isEmpty_iff.1 hgroups, List.isEmpty_iff.1 hproviders]
    exact ⟨_, rfl⟩
  · rw [if_neg hempty]
    exact ⟨_, rfl⟩

theorem loadConfig_of_error (hdisk : disk.Holds config) (hvalid : Valid config) {message : String}
    (hload : disk.load env.read = .error message) : disk.loadConfig env = .error message := by
  unfold Disk.loadConfig
  rw [readFile_of_holds hdisk hvalid, hload]
  rfl

/-- **A valid configuration on the disk survives exactly when the tables give it back.** -/
theorem survives_iff_load (hdisk : disk.Holds config) (hvalid : Valid config) :
    Survives env disk config ↔
      ∃ groups providers, disk.load env.read = .ok (groups, providers) ∧
        List.Forall₂ Group.SameAs groups config.groups ∧
          List.Forall₂ Rule.SameAs providers config.providers := by
  have hfile : (ConfigStore.new disk).disk.file = .json config.settings.toJson := by
    rw [ConfigStore.new, hdisk]
  unfold Survives ConfigStore.initializeStore
  rw [hfile]
  dsimp only [ConfigStore.new]
  cases hload : disk.load env.read with
  | error message =>
    rw [loadConfig_of_error hdisk hvalid hload]
    constructor
    · rintro ⟨hok, -⟩
      cases hok
    · rintro ⟨_, _, heq, -⟩
      cases heq
  | ok loaded =>
    obtain ⟨groups, providers⟩ := loaded
    obtain ⟨disk', hconfig⟩ := loadConfig_of_load hdisk hvalid hload
    rw [hconfig]
    dsimp only
    constructor
    · -- a loaded configuration that is refused is reset, which is no success
      rintro ⟨hok, hsame⟩
      cases hcheck : validateConfig { config with groups := groups, providers := providers } with
      | error message =>
        rw [hcheck] at hok
        dsimp only at hok
        cases hreset : ConfigStore.reset env.normalize ⟨disk', defaultConfig, 0⟩ with
        | error _ => rw [hreset] at hok; cases hok
        | ok _ => rw [hreset] at hok; cases hok
      | ok _ =>
        rw [hcheck] at hsame
        exact ⟨groups, providers, rfl, hsame.groups, hsame.providers⟩
    · rintro ⟨groups', providers', heq, hgroups, hproviders⟩
      cases heq
      have hsame : ({ config with groups := groups, providers := providers } : ProxyConfig).SameAs
          config := ⟨rfl, hproviders, hgroups⟩
      rw [validateConfig_ok_iff.2 (hvalid.sameAs hsame)]
      exact ⟨rfl, hsame⟩

end Restarting

/-- **A saved configuration survives a restart exactly when it can be restored.** -/
theorem survives_iff {env : NormalizeEnv} {nextConfig normalized : ProxyConfig}
    {store store' : ConfigStore} (restart : RestartEnv)
    (h : store.saveConfig env nextConfig = (.ok normalized, store')) :
    Survives restart store'.disk normalized ↔
      Restorable restart.read (normalizeConfigForStorage env nextConfig) := by
  obtain ⟨hnormal, hvalid, hdisk⟩ := saveConfig_ok h
  obtain ⟨stored, hfrom⟩ := exists_comesFrom env nextConfig
  rw [hnormal] at hfrom ⊢
  rw [survives_iff_load hdisk hvalid]
  constructor
  · rintro ⟨groups, providers, hload, hgroups, hproviders⟩
    exact restorable_of_load hdisk hvalid hfrom hload hgroups hproviders
  · exact exists_load hdisk hvalid hfrom

/-- An environment of a restart. -/
def RestartEnv.plain : RestartEnv := ⟨NormalizeEnv.plain, ReadEnv.plain⟩

def emptyStore : ConfigStore := ConfigStore.new ⟨.missing, [], []⟩

theorem survives_oneRoute :
    ∃ saved store, emptyStore.saveConfig NormalizeEnv.plain (oneRouteConfig "p1") =
        (.ok saved, store) ∧ Survives RestartEnv.plain store.disk saved := by
  refine ⟨_, _, rfl, (@survives_iff NormalizeEnv.plain (oneRouteConfig "p1") _ emptyStore _
    RestartEnv.plain rfl).2 ⟨?_, fun _ _ _ _ => rfl⟩⟩
  intro group hgroup rule hrule
  obtain rfl := List.mem_singleton.1 hgroup
  obtain rfl := List.mem_singleton.1 hrule
  rfl

/-- A group that links a provider without any model. -/
def emptyProviderConfig : ProxyConfig :=
  { defaultConfig with
    providers := [{ sampleProvider "p-empty" with models := [], defaultModel := none }]
    groups := [{ id := "dev", name := "Dev", routingTable := [], models := none
                 providerIds := some ["p-empty"], activeProviderId := none, providers := none
                 failover := none }] }

/-- The save is accepted, and the restart goes back to the defaults. -/
theorem not_survives_emptyProvider :
    ∃ saved store, emptyStore.saveConfig NormalizeEnv.plain emptyProviderConfig =
        (.ok saved, store) ∧ saved.groups.map Group.id = ["dev"] ∧
      ((ConfigStore.new store.disk).initializeStore RestartEnv.plain).2.config.groups = [] ∧
        ¬ Survives RestartEnv.plain store.disk saved := by
  refine ⟨_, _, rfl, rfl, rfl, fun h => ?_⟩
  have herror : Except.error ("config invalid, reset to default: " ++
      "group.providerIds not found in providers for dev: p-empty") =
        (Except.ok () : Except String Unit) := h.1
  cases herror

end AiOpenRouter
