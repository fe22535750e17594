/-
Migrations that were interrupted (`ConfigStore::initialize` after a crash).

* `recovers_iff`: the next start has the groups and the providers of an uninterrupted
  one exactly when the interruption was not between the renaming and the commit, or
  there is no configuration file, or nothing is to be migrated;
* `blank_of_normalizeGroups`: nothing is migrated of groups without providers only.
-/
import AiOpenRouter.ProviderReferences
import AiOpenRouter.TableMigration

namespace AiOpenRouter

/-! ### What is migrated -/

def Group.withoutProviders (group : Group) : Group :=
  { group with providerIds := some [], activeProviderId := none, providers := some [] }

section Normal

variable {env : NormalizeEnv} {place : ℕ} {stored : HashMap Rule} {group : Group}
  {groups : List Group}

theorem linkedIds_nil {st : EmbeddedState} (h : st.stored = HashMap.empty) (ids : List String) :
    linkedIds st ids = [] := by
  refine List.eq_nil_iff_forall_not_mem.2 fun id hmem => ?_
  obtain ⟨-, hkey, -⟩ := mem_linkedIds_iff.1 hmem
  rw [h] at hkey
  cases hkey

theorem foldl_addEmbedded_of_blank {scope : List String} {st : EmbeddedState}
    {turns : List (Rule × ℕ)} (h : ∀ turn ∈ turns, trimmed turn.1.id = "") :
    turns.foldl (addEmbedded env place scope) st = st := by
  induction turns with
  | nil => rfl
  | cons turn turns ih =>
    have hskip : addEmbedded env place scope st turn = st :=
      if_pos (.inl (h turn List.mem_cons_self))
    rw [List.foldl_cons, hskip]
    exact ih fun other hmem => h other (List.mem_cons_of_mem _ hmem)

theorem normalizeGroup_of_blank
    (h : ∀ provider ∈ group.providers.getD [], trimmed provider.id = "") :
    normalizeGroup env false place HashMap.empty group =
      (HashMap.empty, group.withoutProviders) := by
  have hturns : ∀ turn ∈ (group.providers.getD []).zipIdx, trimmed turn.1.id = "" :=
    fun turn hmem => h turn.1 (List.fst_mem_of_mem_zipIdx hmem)
  have hst : addEmbeddedProviders env false place HashMap.empty group =
      { stored := HashMap.empty } := foldl_addEmbedded_of_blank hturns
  rw [normalizeGroup, hst]
  dsimp only
  rw [linkedIds_nil rfl]
  have hactive : group.activeProviderId.filter (· ∈ ([] : List String)) = none := by
    cases group.activeProviderId <;> rfl
  rw [hactive]
  rfl

theorem normalizeGroups_of_blank
    (h : ∀ group ∈ groups, ∀ provider ∈ group.providers.getD [], trimmed provider.id = "") :
    normalizeGroups env false place HashMap.empty groups =
      (HashMap.empty, groups.map Group.withoutProviders) := by
  induction groups generalizing place with
  | nil => rfl
  | cons group groups ih =>
    rw [normalizeGroups, normalizeGroup_of_blank (h group List.mem_cons_self)]
    dsimp only
    rw [ih fun other hmem => h other (List.mem_cons_of_mem _ hmem)]
    rfl

theorem get_isSome_normalizeGroup {provider : Rule} (hmem : provider ∈ group.providers.getD [])
    (hid : trimmed provider.id ≠ "") :
    ((normalizeGroup env false place stored group).1.get (trimmed provider.id)).isSome := by
  obtain ⟨i, hi⟩ := List.mem_iff_getElem?.mp hmem
  have hturn := List.mk_mem_zipIdx_iff_getElem?.mpr hi
  obtain ⟨before, after, hsplit⟩ := List.append_of_mem hturn
  have hscope : trimmed provider.id ∈ groupScope false group :=
    List.mem_filter.2 ⟨List.mem_map_of_mem (List.mem_map_of_mem hmem), decide_eq_true hid⟩
  have hstored : (normalizeGroup env false place stored group).1 =
      (embeddedTurns env false place stored group (before ++ (provider, i) :: after)).stored := by
    rw [← hsplit]
    rfl
  have hget := @addEmbedded_get env place (groupScope false group)
    (embeddedTurns env false place stored group before) (provider, i) hid hscope
  -- what the turn has stored stays
  have hstays := StoreStep.foldl EmbeddedState.stored
    (storeStep_addEmbedded env place (groupScope false group)) after
    (addEmbedded env place (groupScope false group)
      (embeddedTurns env false place stored group before) (provider, i))
  rw [hstored, embeddedTurns, List.foldl_append, List.foldl_cons]
  exact Option.isSome_iff_exists.2 ⟨_, hstays.stays _ _ hget⟩

/-- **Only groups without providers are migrated without providers.** -/
theorem blank_of_normalizeGroups
    (h : (normalizeGroups env false place stored groups).1.entries = []) :
    ∀ group ∈ groups, ∀ provider ∈ group.providers.getD [], trimmed provider.id = "" := by
  induction groups generalizing place stored with
  | nil => exact fun _ hmem => nomatch hmem
  | cons group groups ih =>
    rw [normalizeGroups] at h
    refine List.forall_mem_cons.2 ⟨fun provider hmem => ?_, ih h⟩
    by_contra hid
    obtain ⟨rule, hget⟩ := Option.isSome_iff_exists.1
      (@get_isSome_normalizeGroup env place stored group provider hmem hid)
    have hstays := (normalizeGroups_spec env false (place + 1)
      (normalizeGroup env false place stored group).1 groups).1.stays _ _ hget
    rw [HashMap.get_eq_some_iff] at hstays
    dsimp only at h
    rw [h] at hstays
    cases hstays

end Normal

/-! ### What is loaded -/

theorem JsonText.read_json_eq_ok_iff {α : Type} {env : ReadEnv} {failure : String}
    {decode : Option Json → Option α} {value : Json} {x : α} :
    (JsonText.json value).read env failure decode = .ok x ↔
      ∃ json, env.reread value = some json ∧ decode (some json) = some x := by
  have hrecord := @readRecord_eq_ok_iff α env failure decode ("", value) "" x
  rw [JsonText.read]
  constructor
  · intro h
    cases hread : readRecord env failure decode ("", value) with
    | error message =>
      rw [hread] at h
      cases h
    | ok found =>
      rw [hread] at h
      cases h
      obtain ⟨key, x⟩ := found
      exact ((@readRecord_eq_ok_iff α env failure decode ("", value) key x).1 hread).2
  · intro h
    rw [hrecord.2 ⟨rfl, h⟩]
    rfl

theorem length_of_readRows {ρ α : Type} {read : ℕ → ρ → Except String α} {i : ℕ} {rows : List ρ}
    {values : List α} (h : readRows read i rows = .ok values) : values.length = rows.length := by
  induction rows generalizing i values with
  | nil =>
    cases h
    rfl
  | cons row rows ih =>
    obtain ⟨value, -, h⟩ := bind_eq_ok_iff.1 h
    obtain ⟨rest, hrest, h⟩ := bind_eq_ok_iff.1 h
    cases h
    rw [List.length_cons, List.length_cons, ih hrest]

theorem exists_readRows {ρ α β : Type} {read : ℕ → ρ → Except String α} {row : β → ρ}
    {P : α → β → Prop} {xs : List β}
    (h : ∀ i, ∀ x ∈ xs, ∃ value, read i (row x) = .ok value ∧ P value x) (i : ℕ) :
    ∃ values, readRows read i (xs.map row) = .ok values ∧ List.Forall₂ P values xs := by
  induction xs generalizing i with
  | nil => exact ⟨[], rfl, .nil⟩
  | cons x xs ih =>
    obtain ⟨value, hvalue, hP⟩ := h i x List.mem_cons_self
    obtain ⟨values, hvalues, hPs⟩ := ih (fun j y hy => h j y (List.mem_cons_of_mem _ hy)) (i + 1)
    refine ⟨value :: values, ?_, .cons hP hPs⟩
    rw [List.map_cons, readRows, hvalue, hvalues]
    rfl

namespace Database

section Loading

variable {env : ReadEnv} {db : Database} {groups : List Group} {providers : List Rule}

theorem groupRows_filled (hprepared : db.IsPrepared) :
    (db.filled groups providers none).groupRows = groups.map GroupRecord.ofGroup := by
  obtain ⟨rows, hrows⟩ := hprepared.groups
  rw [groupRows, filled, hrows]
  rfl

theorem length_load {loaded : List Group × List Rule} (h : db.load env = .ok loaded) :
    loaded.1.length = db.groupRows.length := by
  obtain ⟨rows, -, h⟩ := bind_eq_ok_iff.1 h
  obtain ⟨values, hvalues, h⟩ := bind_eq_ok_iff.1 h
  cases h
  rw [List.length_map, length_of_readRows hvalues]

theorem length_loadGroupsFromLegacy (h : db.loadGroupsFromLegacy env = .ok groups) :
    groups.length = db.groupRows.length := by
  obtain ⟨providerMap, -, h⟩ := bind_eq_ok_iff.1 h
  exact length_of_readRows h

theorem load_filled_withoutProviders (hprepared : db.IsPrepared) :
    ∃ loaded, (db.filled (groups.map Group.withoutProviders) [] none).load env = .ok (loaded, []) ∧
      List.Forall₂ Group.SameAs loaded (groups.map Group.withoutProviders) := by
  have hread : ∀ i, ∀ group ∈ groups.map Group.withoutProviders, ∃ value,
      (GroupRecord.ofGroup group).readJson env i = .ok value ∧
        (value.join HashMap.empty).SameAs group := by
    intro i group hmem
    obtain ⟨legacy, -, rfl⟩ := List.mem_map.1 hmem
    obtain ⟨value, hvalue, hsame⟩ := Decode.group_toJson env [i, 3] legacy.withoutProviders
    refine ⟨value, JsonText.read_json_eq_ok_iff.2 ⟨_, ReadEnv.reread_eq_self ?_, hvalue⟩, ?_⟩
    · exact readsFloats_group fun rule hrule => nomatch hrule
    · have hids : value.providerIds = some [] := congrArg Group.providerIds hsame.rest
      refine ⟨hsame.rest, ?_⟩
      rw [Group.join, hids]
      exact .some .nil
  obtain ⟨values, hvalues, hsame⟩ := exists_readRows hread 0
  refine ⟨values.map (Group.join HashMap.empty), ?_, List.forall₂_map_left_iff.2 hsame⟩
  rw [load, groupRows_filled hprepared, hvalues]
  rfl

theorem load_emptied :
    db.emptied.load env = (readRows (GroupRecord.readJson env) 0 db.groupRows).map
      fun groups => (groups.map (Group.join HashMap.empty), []) := by
  have hrows : db.emptied.groupRows = db.groupRows := rfl
  rw [load, hrows]
  cases readRows (GroupRecord.readJson env) 0 db.groupRows <;> rfl

end Loading

end Database

section Choice

variable {config normalized : ProxyConfig} {loaded : List Group × List Rule}

theorem chooseConfig_of_groups (h : loaded.1 ≠ []) :
    chooseConfig normalized loaded =
      .ok { normalized with groups := loaded.1, providers := loaded.2 } := by
  have hsome : ¬ (loaded.1.isEmpty && loaded.2.isEmpty) = true := by
    intro hempty
    exact h (List.isEmpty_iff.1 (Bool.and_eq_true_iff.1 hempty).1)
  rw [chooseConfig, if_neg hsome]

theorem exists_chooseConfig {groups groups' : List Group}
    (hgroups : List.Forall₂ Group.SameAs groups' groups)
    (h : chooseConfig normalized (groups, []) = .ok config) :
    ∃ config', chooseConfig normalized (groups', []) = .ok config' ∧ config'.SameAs config := by
  cases hgroups with
  | nil => exact ⟨config, h, .refl config⟩
  | cons hgroup hgroups =>
    rw [chooseConfig_of_groups (List.cons_ne_nil _ _)] at h
    cases h
    rw [chooseConfig_of_groups (List.cons_ne_nil _ _)]
    exact ⟨_, rfl, rfl, .nil, .cons hgroup hgroups⟩

end Choice

/-! ### Interrupted migrations -/

/-- Nothing is to be migrated: the legacy groups have no providers, and their rows hold in
`group_json` what the migration writes. -/
def Database.NothingToMigrate (migrating loading : ReadEnv) (db : Database) : Prop :=
  ∃ legacyGroups groups, db.loadGroupsFromLegacy migrating = .ok legacyGroups ∧
    (∀ group ∈ legacyGroups, ∀ provider ∈ group.providers.getD [], trimmed provider.id = "") ∧
      readRows (GroupRecord.readJson loading) 0 db.groupRows = .ok groups ∧
        groups.map (Group.join HashMap.empty) = legacyGroups.map Group.withoutProviders

/-- A start that follows an interrupted one has the groups and the providers of a start whose
migration was not interrupted, of the one or of the other. -/
def Database.Recovers (first second : RestartEnv) (file : ConfigFile) (n : ℕ) (db : Database) :
    Prop :=
  ∀ db', db.migrateUpTo first n = .ok db' →
    ∃ migrating ∈ [first, second], ∃ config config',
      db.initializeStore migrating second file = .ok config ∧
        db'.initializeStore second second file = .ok config' ∧
          List.Forall₂ Group.SameAs config'.groups config.groups ∧
            List.Forall₂ Rule.SameAs config'.providers config.providers

namespace Database

section Interrupted

variable {env : NormalizeEnv} {migrating first second : RestartEnv} {read : ReadEnv}
  {file : ConfigFile} {db db' : Database} {n : ℕ} {legacyGroups : List Group}

theorem normalizeGroupsAndProviders_nil :
    normalizeGroupsAndProviders env legacyGroups [] =
      ((normalizeGroups env false 1 HashMap.empty legacyGroups).2,
        (normalizeGroups env false 1 HashMap.empty legacyGroups).1.entries.map Prod.snd) := rfl

theorem eq_of_sameAs {group group' : Group} (h : group.SameAs group')
    (hproviders : group.providers = some []) (hproviders' : group'.providers = some []) :
    group = group' := by
  obtain ⟨id, name, routes, models, ids, active, providers, failover⟩ := group
  obtain ⟨id', name', routes', models', ids', active', providers', failover'⟩ := group'
  dsimp only at hproviders hproviders'
  subst hproviders hproviders'
  have hrest := h.rest
  simp only [Group.mk.injEq] at hrest ⊢
  obtain ⟨hid, hname, hroutes, hmodels, hids, hactive, -, hfailover⟩ := hrest
  exact ⟨hid, hname, hroutes, hmodels, hids, hactive, trivial, hfailover⟩

theorem providers_join_empty (group : Group) :
    (group.join HashMap.empty).providers = some [] :=
  congrArg some (List.filterMap_eq_nil_iff.2 fun _ _ => rfl)

theorem nothingToMigrate_of_sameAs (hprepared : db.IsPrepared)
    (hlegacy : db.loadGroupsFromLegacy migrating.read = .ok legacyGroups)
    {groups groups' : List Group}
    (hload : (db.filled (normalizeGroupsAndProviders env legacyGroups []).1
      (normalizeGroupsAndProviders env legacyGroups []).2 none).load read = .ok (groups, []))
    (hread : readRows (GroupRecord.readJson read) 0 db.groupRows = .ok groups')
    (hsame : List.Forall₂ Group.SameAs (groups'.map (Group.join HashMap.empty)) groups) :
    db.NothingToMigrate migrating.read read := by
  have hloaded := hload
  obtain ⟨rows, hrows, hload⟩ := bind_eq_ok_iff.1 hload
  obtain ⟨values, hvalues, hload⟩ := bind_eq_ok_iff.1 hload
  -- no provider was migrated
  have hnone : rows = [] := List.map_eq_nil_iff.1 (congrArg Prod.snd (Except.ok.inj hload))
  have hlength := length_of_readRows hrows
  rw [hnone, normalizeGroupsAndProviders_nil] at hlength
  have hentries : (normalizeGroups env false 1 HashMap.empty legacyGroups).1.entries = [] := by
    refine List.length_eq_zero_iff.1 ?_
    simpa [filled, providerRows] using hlength.symm
  have hblank := blank_of_normalizeGroups hentries
  refine ⟨legacyGroups, groups', hlegacy, hblank, hread, ?_⟩
  -- so the groups were loaded as they were migrated
  rw [normalizeGroupsAndProviders_nil, normalizeGroups_of_blank hblank] at hloaded
  obtain ⟨loaded, hfilled, hloadedSame⟩ :=
    @load_filled_withoutProviders read db legacyGroups hprepared
  have heq : loaded = groups :=
    congrArg Prod.fst (Except.ok.inj (hfilled.symm.trans hloaded))
  subst heq
  have hall := forall₂_trans (R := Group.SameAs) (fun _ _ _ => .trans) hsame hloadedSame
  rw [List.forall₂_map_left_iff, List.forall₂_map_right_iff] at hall
  have hequal : List.Forall₂ (· = ·) (groups'.map (Group.join HashMap.empty))
      (legacyGroups.map Group.withoutProviders) := by
    rw [List.forall₂_map_left_iff, List.forall₂_map_right_iff]
    exact hall.imp fun _ _ h => eq_of_sameAs h (providers_join_empty _) rfl
  rwa [List.forall₂_eq_eq_eq] at hequal

/-- **After an interruption between the renaming and the commit** the next start is as good as an
uninterrupted one when nothing is to be migrated. -/
theorem exists_of_nothingToMigrate (hlegacy : db.prepare.isLegacy = true)
    (hfile : file ≠ .missing) {config : ProxyConfig}
    (hok : db.initializeStore migrating second file = .ok config)
    (h : db.prepare.NothingToMigrate migrating.read second.read) :
    ∃ config', initializeFrom second file (db.prepare.emptied.load second.read) = .ok config' ∧
      config'.SameAs config := by
  obtain ⟨legacyGroups, groups, hgroups, hblank, hread, hequal⟩ := h
  obtain ⟨migrated, hmigrated, -⟩ := bind_eq_ok_iff.1 hok
  obtain ⟨legacyGroups', hgroups', hstart⟩ :=
    @initializeStore_eq migrating second file db hlegacy migrated hmigrated
  obtain rfl := Except.ok.inj (hgroups.symm.trans hgroups')
  rw [hstart, normalizeGroupsAndProviders_nil, normalizeGroups_of_blank hblank,
    initializeFrom_of_file hfile] at hok
  obtain ⟨loaded, hload, hsame⟩ :=
    @load_filled_withoutProviders second.read db.prepare legacyGroups (isPrepared_prepare db)
  obtain ⟨base, pair, hbase, hpair, hchosen, hvalid⟩ := checkConfig_eq_ok_iff.1 hok
  obtain rfl := Except.ok.inj (hload.symm.trans hpair)
  have hsame' := forall₂_symm (R := Group.SameAs) (fun _ _ => .symm) hsame
  obtain ⟨config', hchosen', hconfig⟩ := exists_chooseConfig hsame' hchosen
  refine ⟨config', ?_, hconfig⟩
  rw [initializeFrom_of_file hfile, load_emptied, hread, Except.map, hequal]
  exact checkConfig_eq_ok_iff.2 ⟨base, _, hbase, rfl, hchosen', hvalid.sameAs hconfig⟩

theorem nothingToMigrate_of_initializeStore (hlegacy : db.prepare.isLegacy = true)
    (hfile : file ≠ .missing) {config config' : ProxyConfig}
    (hok : db.initializeStore migrating second file = .ok config)
    (hnext : initializeFrom second file (db.prepare.emptied.load second.read) = .ok config')
    (hgroups : List.Forall₂ Group.SameAs config'.groups config.groups)
    (hproviders : List.Forall₂ Rule.SameAs config'.providers config.providers) :
    db.prepare.NothingToMigrate migrating.read second.read := by
  obtain ⟨migrated, hmigrated, -⟩ := bind_eq_ok_iff.1 hok
  obtain ⟨legacyGroups, hlegacyGroups, hstart⟩ :=
    @initializeStore_eq migrating second file db hlegacy migrated hmigrated
  rw [hstart, initializeFrom_of_file hfile] at hok
  rw [initializeFrom_of_file hfile] at hnext
  -- both starts pass their check: compare what they loaded
  obtain ⟨base, loaded, -, hload, hchosen, -⟩ := checkConfig_eq_ok_iff.1 hok
  obtain ⟨base', loaded', -, hload', hchosen', -⟩ := checkConfig_eq_ok_iff.1 hnext
  have hlength := length_load hload
  rw [groupRows_filled (isPrepared_prepare db), List.length_map, normalizeGroupsAndProviders_nil,
    length_normalizeGroups] at hlength
  rw [load_emptied] at hload'
  cases hread : readRows (GroupRecord.readJson second.read) 0 db.prepare.groupRows with
  | error message =>
    rw [hread] at hload'
    cases hload'
  | ok groups =>
    rw [hread] at hload'
    cases hload'
    have hrows := length_of_readRows hread
    have hlegacyRows := length_loadGroupsFromLegacy hlegacyGroups
    rcases groups with _ | ⟨group, groups⟩
    · -- no groups: none are migrated
      have hnil : legacyGroups = [] := List.length_eq_zero_iff.1 (hlegacyRows.trans hrows.symm)
      subst hnil
      exact ⟨[], [], hlegacyGroups, (fun _ hmem => nomatch hmem), hread, rfl⟩
    · have hsome : loaded.1 ≠ [] := by
        intro hnil
        rw [hnil, hlegacyRows, ← hrows] at hlength
        cases hlength
      rw [chooseConfig_of_groups hsome] at hchosen
      rw [chooseConfig_of_groups (List.cons_ne_nil _ _)] at hchosen'
      cases hchosen
      cases hchosen'
      obtain ⟨loadedGroups, loadedProviders⟩ := loaded
      cases hproviders
      exact nothingToMigrate_of_sameAs (isPrepared_prepare db) hlegacyGroups hload hread hgroups

end Interrupted

end Database

/-- **After an interrupted start, the next one has the groups and the providers of an uninterrupted
one exactly when** the interruption was not between the renaming and the commit, or there is no
configuration file, or nothing is to be migrated. -/
theorem Database.recovers_iff {first second : RestartEnv} {file : ConfigFile} {db : Database}
    (hdb : db.isLegacy = true)
    (hok : ∀ migrating ∈ [first, second], ∃ config,
      db.initializeStore migrating second file = .ok config) (n : ℕ) :
    db.Recovers first second file n ↔
      (n < 3 ∨ 5 ≤ n) ∨ file = .missing ∨
        ∃ migrating ∈ [first, second],
          db.prepare.NothingToMigrate migrating.read second.read := by
  have hlegacy := isLegacy_prepare hdb
  obtain ⟨firstConfig, hfirst⟩ := hok first List.mem_cons_self
  obtain ⟨migrated, hmigrated, -⟩ := bind_eq_ok_iff.1 hfirst
  constructor
  · intro h
    by_contra hnot
    obtain ⟨hn, hrest⟩ := not_or.1 hnot
    obtain ⟨hfile, hsome⟩ := not_or.1 hrest
    obtain ⟨db', hdb'⟩ := exists_migrateUpTo hmigrated n
    obtain ⟨migrating, hmem, config, config', hconfig, hnext, hgroups, hproviders⟩ := h db' hdb'
    rw [initializeStore_of_inside hlegacy hdb' hn] at hnext
    exact hsome ⟨migrating, hmem,
      nothingToMigrate_of_initializeStore hlegacy hfile hconfig hnext hgroups hproviders⟩
  · intro h db' hdb'
    -- before the window nothing is changed, behind it all is done
    by_cases hn : n < 3 ∨ 5 ≤ n
    · obtain ⟨migrating, hmem, hsame⟩ :=
        @initializeStore_of_outside first second file db db' n hlegacy migrated hmigrated hdb' hn
      obtain ⟨config, hconfig⟩ := hok migrating hmem
      have hrefl := ProxyConfig.SameAs.refl config
      exact ⟨migrating, hmem, config, config, hconfig, hsame.trans hconfig, hrefl.groups,
        hrefl.providers⟩
    · rw [initializeStore_of_inside hlegacy hdb' hn]
      by_cases hfile : file = .missing
      · subst hfile
        have hrefl := ProxyConfig.SameAs.refl
          (normalizeConfigForStorage second.normalize defaultConfig)
        refine ⟨first, List.mem_cons_self, _, _, ?_, rfl, hrefl.groups, hrefl.providers⟩
        rw [initializeStore, hmigrated]
        rfl
      · obtain ⟨migrating, hmem, hnothing⟩ := (h.resolve_left hn).resolve_left hfile
        obtain ⟨config, hconfig⟩ := hok migrating hmem
        obtain ⟨config', hnext, hsame⟩ :=
          exists_of_nothingToMigrate hlegacy hfile hconfig hnothing
        exact ⟨migrating, hmem, config, config', hconfig, hnext, hsame.groups, hsame.providers⟩

/-- Legacy tables: one group, and its provider. -/
def legacyDatabase : Database where
  groupRecords := some ⟨false, [⟨"dev", "Dev", .json (strings ["gpt"]), some "p1",
    .json (strings ["p1"]), none⟩]⟩
  providerRecords := some ⟨true, [⟨"dev", "p1", .json (sampleProvider "p1").toJson⟩]⟩
  providerRecordsLegacy := none

theorem recovers_afterDrop :
    legacyDatabase.Recovers RestartEnv.plain RestartEnv.plain (.json defaultConfig.toJson) 2 :=
  (Database.recovers_iff rfl
    (List.forall_mem_cons.2 ⟨⟨_, rfl⟩, List.forall_mem_singleton.2 ⟨_, rfl⟩⟩) 2).2
      (.inl (.inl (by decide)))

/-- After an interruption behind the renaming no start gets to the groups again. -/
theorem not_recovers_afterRename :
    (∃ config provider, legacyDatabase.initializeStore RestartEnv.plain RestartEnv.plain
        (.json defaultConfig.toJson) = .ok config ∧ config.providers = [provider]) ∧
      (∃ db, legacyDatabase.migrateUpTo RestartEnv.plain 3 = .ok db ∧
        db.initializeStore RestartEnv.plain RestartEnv.plain (.json defaultConfig.toJson) =
          .error nullGroupError) ∧
      ¬ legacyDatabase.Recovers RestartEnv.plain RestartEnv.plain
        (.json defaultConfig.toJson) 3 := by
  refine ⟨⟨_, _, rfl, rfl⟩, ⟨_, rfl, rfl⟩, fun h => ?_⟩
  obtain ⟨migrating, hmem, config, config', -, hnext, -⟩ := h _ rfl
  cases hnext

end AiOpenRouter
