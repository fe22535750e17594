/-
The migration of the provider table, statement by statement
(`migrate_provider_records_schema_if_needed`).

The legacy table has a row for each group and provider.  It is renamed, a new table
is created and filled in a transaction, and the renamed one is dropped; a start that
is interrupted leaves what the statements so far have made.

* `Database.migrateUpTo` makes the first statements of a start, `initializeStore` all
  of them and the rest of it;
* `run_migration`: what is in the tables after some of the statements;
* `initializeStore_of_outside`, `initializeStore_of_inside`: what the next start makes
  of them;
* `initializeStore_ofDisk`: on tables of the current schema this is `ConfigStore`.
-/
import AiOpenRouter.ConfigStore

namespace AiOpenRouter

/-! ### The tables -/

/-- The text of a JSON column: no JSON, with serde's error, or the text of a value. -/
inductive JsonText where
  | invalid (error : String)
  | json (value : Json)

/-- A row of `group_records`.  Its `group_json` may be `NULL`. -/
structure GroupRecord where
  groupId : String
  groupName : String
  modelsJson : JsonText
  activeProviderId : Option String
  providerIdsJson : JsonText
  groupJson : Option JsonText

/-- A row of `provider_records`, which has a `group_id` in the legacy table only. -/
structure ProviderRecord where
  groupId : String := ""
  providerId : String
  providerJson : JsonText

/-- The table `group_records`: whether it has the column `group_json`, and the rows that are not
marked as deleted, by their rowid. -/
structure GroupTable where
  hasGroupJson : Bool
  rows : List GroupRecord

/-- A table of providers: whether it has the column `group_id`, and the rows that are not marked
as deleted, by their rowid. -/
structure ProviderTable where
  hasGroupId : Bool
  rows : List ProviderRecord

/-- The tables that there are. -/
structure Database where
  groupRecords : Option GroupTable
  providerRecords : Option ProviderTable
  providerRecordsLegacy : Option ProviderTable

namespace Database

/-- The rows of `group_records`. -/
def groupRows (db : Database) : List GroupRecord :=
  (db.groupRecords.map GroupTable.rows).getD []

/-- The rows of `provider_records`. -/
def providerRows (db : Database) : List ProviderRecord :=
  (db.providerRecords.map ProviderTable.rows).getD []

/-- Whether the table of the providers is the legacy one. -/
def isLegacy (db : Database) : Bool := db.providerRecords.any ProviderTable.hasGroupId

end Database

/-! ### Reading the tables -/

/-- Reads the text of a JSON column. -/
def JsonText.read {α : Type} (env : ReadEnv) (failure : String) (decode : Option Json → Option α) :
    JsonText → Except String α
  | .invalid error => .error (failure ++ error)
  | .json value => (readRecord env failure decode ("", value)).map Prod.snd

def readRows {ρ α : Type} (read : ℕ → ρ → Except String α) : ℕ → List ρ → Except String (List α)
  | _, [] => .ok []
  | i, row :: rows => do
    let value ← read i row
    let values ← readRows read (i + 1) rows
    return value :: values

def ProviderRecord.readLegacy (env : ReadEnv) (i : ℕ) (row : ProviderRecord) :
    Except String ((String × String) × Rule) :=
  (row.providerJson.read env "parse provider_json failed: " (Decode.rule env [i, 4])).map
    (Prod.mk (row.groupId, row.providerId))

def ProviderRecord.readRule (env : ReadEnv) (i : ℕ) (row : ProviderRecord) :
    Except String (String × Rule) :=
  (row.providerJson.read env "parse provider_json failed: " (Decode.rule env [i, 2])).map
    (Prod.mk row.providerId)

/-- `default_group_failover_config`. -/
def defaultGroupFailoverConfig : GroupFailoverConfig :=
  { enabled := false, failureThreshold := 3, cooldownSeconds := 300 }

def GroupRecord.readLegacy (env : ReadEnv) (providerMap : List ((String × String) × Rule))
    (row : GroupRecord) : Except String Group := do
  let models ← row.modelsJson.read env "parse models_json failed: " (Decode.list Decode.string)
  let providerIds ← row.providerIdsJson.read env "parse provider_ids_json failed: "
    (Decode.list Decode.string)
  return { id := row.groupId
           name := row.groupName
           routingTable := []
           models := some models
           providerIds := some providerIds
           activeProviderId := row.activeProviderId
           providers := some (providerIds.filterMap fun providerId =>
             providerMap.reverse.lookup (row.groupId, providerId))
           failover := some defaultGroupFailoverConfig }

/-- The error at a `group_json` that is `NULL`. -/
def nullGroupError : String :=
  "read group_records row failed: Invalid column type Null at index: 0, name: group_json"

/-- The group in the column `group_json`. -/
def GroupRecord.readJson (env : ReadEnv) (i : ℕ) (row : GroupRecord) : Except String Group :=
  match row.groupJson with
  | none => .error nullGroupError
  | some text => text.read env "parse group_json failed: " (Decode.group env [i, 3])

namespace Database

/-- `load_groups_from_legacy_relational_tables`. -/
def loadGroupsFromLegacy (env : ReadEnv) (db : Database) : Except String (List Group) := do
  let providerMap ← readRows (ProviderRecord.readLegacy env) 0 db.providerRows
  readRows (fun _ row => row.readLegacy env providerMap) 0 db.groupRows

/-- `load_groups_and_providers_from_relational_tables`, once there is a column `group_json`. -/
def load (env : ReadEnv) (db : Database) : Except String (List Group × List Rule) := do
  let providers ← readRows (ProviderRecord.readRule env) 0 db.providerRows
  let groups ← readRows (GroupRecord.readJson env) 0 db.groupRows
  return (groups.map (Group.join (HashMap.ofEntries providers)), providers.map Prod.snd)

end Database

/-! ### The statements -/

def GroupRecord.ofGroup (group : Group) : GroupRecord where
  groupId := group.id
  groupName := group.name
  modelsJson := .json ((group.models.map strings).getD .null)
  activeProviderId := group.activeProviderId
  providerIdsJson := .json ((group.providerIds.map strings).getD .null)
  groupJson := some (.json group.toJson)

def ProviderRecord.ofRule (provider : Rule) : ProviderRecord where
  providerId := provider.id
  providerJson := .json provider.toJson

/-- A statement of the migration, or its transaction. -/
inductive Statement where
  | dropIndex
  | dropLegacyTable
  | renameTable
  | createTable
  | persist (groups : List Group) (providers : List Rule)

/-- What a statement makes; the index is of no account here. -/
def Statement.run (db : Database) : Statement → Except String Database
  | .dropIndex => .ok db
  | .dropLegacyTable => .ok { db with providerRecordsLegacy := none }
  | .renameTable =>
    match db.providerRecords, db.providerRecordsLegacy with
    | some table, none =>
      .ok { db with providerRecords := none, providerRecordsLegacy := some table }
    | _, _ => .error "migrate provider_records schema failed: cannot rename provider_records"
  | .createTable =>
    match db.providerRecords with
    | none => .ok { db with providerRecords := some ⟨false, []⟩ }
    | some _ =>
      .error "migrate provider_records schema failed: table provider_records already exists"
  | .persist groups providers =>
    (persistGroupsAndProviders groups providers ⟨.missing, [], []⟩).map fun _ =>
      { db with
        groupRecords := db.groupRecords.map fun table =>
          { table with rows := groups.map GroupRecord.ofGroup }
        providerRecords := db.providerRecords.map fun table =>
          { table with rows := providers.map ProviderRecord.ofRule } }

def migration (groups : List Group) (providers : List Rule) : List Statement :=
  [.dropIndex, .dropLegacyTable, .renameTable, .createTable, .persist groups providers,
    .dropLegacyTable]

namespace Database

/-- `initialize_groups_db`. -/
def initializeGroupsDb (db : Database) : Database :=
  { db with
    groupRecords := some (db.groupRecords.getD ⟨true, []⟩)
    providerRecords := some (db.providerRecords.getD ⟨false, []⟩) }

/-- `migrate_group_records_schema_if_needed`. -/
def migrateGroupRecords (db : Database) : Database :=
  { db with
    groupRecords := db.groupRecords.map fun table =>
      if table.hasGroupJson then table
      else ⟨true, table.rows.map fun row => { row with groupJson := none }⟩ }

/-- The tables before the migration of the providers. -/
def prepare (db : Database) : Database := db.initializeGroupsDb.migrateGroupRecords

/-- The statements that `migrate_provider_records_schema_if_needed` makes. -/
def migrationOf (env : RestartEnv) (db : Database) : Except String (List Statement) :=
  if db.isLegacy then do
    let legacyGroups ← db.loadGroupsFromLegacy env.read
    let next := normalizeGroupsAndProviders env.normalize legacyGroups []
    return migration next.1 next.2
  else .ok []

/-- The tables after some of the statements of a start. -/
def migrateUpTo (env : RestartEnv) (n : ℕ) (db : Database) : Except String Database := do
  let statements ← db.prepare.migrationOf env
  (statements.take n).foldlM Statement.run db.prepare

def migrate (env : RestartEnv) (db : Database) : Except String Database := do
  let statements ← db.prepare.migrationOf env
  statements.foldlM Statement.run db.prepare

end Database

/-! ### A start -/

def chooseConfig (normalized : ProxyConfig) (loaded : List Group × List Rule) :
    Except String ProxyConfig :=
  if loaded.1.isEmpty && loaded.2.isEmpty then
    (persistGroupsAndProviders normalized.groups normalized.providers ⟨.missing, [], []⟩).map
      fun _ => normalized
  else .ok { normalized with groups := loaded.1, providers := loaded.2 }

def ConfigFile.config (env : ReadEnv) (file : ConfigFile) : Except String ProxyConfig :=
  (migrateConfig ((⟨file, [], []⟩ : Disk).fileValue env)).bind (normalizeConfig env)

def checkConfig (env : RestartEnv) (file : ConfigFile)
    (loaded : Except String (List Group × List Rule)) : Except String ProxyConfig := do
  let config ← file.config env.read
  let loaded ← loaded
  let config ← chooseConfig (normalizeConfigForStorage env.normalize config) loaded
  match validateConfig config with
  | .error message => .error ("config invalid, reset to default: " ++ message)
  | .ok () => return config

/-- What `ConfigStore::initialize` puts in memory after it has loaded the tables. -/
def initializeFrom (env : RestartEnv) (file : ConfigFile)
    (loaded : Except String (List Group × List Rule)) : Except String ProxyConfig :=
  match file with
  | .missing => .ok (normalizeConfigForStorage env.normalize defaultConfig)
  | file => checkConfig env file loaded

/-- `ConfigStore::initialize`: the configuration in memory.  The migration and the loading build
their hash maps one after the other, each in orders of its own. -/
def Database.initializeStore (migrating loading : RestartEnv) (file : ConfigFile) (db : Database) :
    Except String ProxyConfig := do
  let db ← db.migrate migrating
  initializeFrom loading file (db.load loading.read)

/-! ### What the statements leave -/

namespace Database

/-- Both tables are there, and the groups have their JSON column. -/
structure IsPrepared (db : Database) : Prop where
  groups : ∃ rows, db.groupRecords = some ⟨true, rows⟩
  providers : ∃ table, db.providerRecords = some table

theorem isPrepared_prepare (db : Database) : db.prepare.IsPrepared := by
  constructor
  · rcases htable : db.groupRecords.getD ⟨true, []⟩ with ⟨_ | _, rows⟩
    · refine ⟨rows.map fun row => { row with groupJson := none }, ?_⟩
      rw [prepare, migrateGroupRecords, initializeGroupsDb, htable]
      rfl
    · refine ⟨rows, ?_⟩
      rw [prepare, migrateGroupRecords, initializeGroupsDb, htable]
      rfl
  · exact ⟨db.providerRecords.getD ⟨false, []⟩, rfl⟩

variable {db : Database}

theorem isLegacy_prepare (h : db.isLegacy = true) : db.prepare.isLegacy = true := by
  obtain ⟨groupRecords, providerRecords, legacy⟩ := db
  cases providerRecords with
  | none => cases h
  | some table => exact h

theorem IsPrepared.prepare_eq (h : db.IsPrepared) : db.prepare = db := by
  obtain ⟨⟨rows, hgroups⟩, ⟨table, hproviders⟩⟩ := h
  obtain ⟨groupRecords, providerRecords, legacy⟩ := db
  dsimp only at hgroups hproviders
  subst hgroups hproviders
  rfl

def emptied (db : Database) : Database :=
  { db with
    providerRecords := some ⟨false, []⟩, providerRecordsLegacy := db.providerRecords }

def filled (db : Database) (groups : List Group) (providers : List Rule)
    (legacy : Option ProviderTable) : Database where
  groupRecords := db.groupRecords.map fun table =>
    { table with rows := groups.map GroupRecord.ofGroup }
  providerRecords := some ⟨false, providers.map ProviderRecord.ofRule⟩
  providerRecordsLegacy := legacy

theorem IsPrepared.filled (h : db.IsPrepared) (groups : List Group) (providers : List Rule)
    (legacy : Option ProviderTable) : (db.filled groups providers legacy).IsPrepared := by
  obtain ⟨rows, hrows⟩ := h.groups
  refine ⟨⟨groups.map GroupRecord.ofGroup, ?_⟩, ⟨_, rfl⟩⟩
  rw [Database.filled, hrows]
  rfl

section Statements

variable {env : RestartEnv} {db db' : Database} {n : ℕ}

/-- **What the first statements leave**: the tables as they were, the empty new table, or the
tables that the transaction has filled. -/
theorem run_migration {groups : List Group} {providers : List Rule} (hprepared : db.IsPrepared)
    (h : ((migration groups providers).take n).foldlM Statement.run db = .ok db') :
    n < 3 ∧ (∃ legacy, db' = { db with providerRecordsLegacy := legacy }) ∨
      (n = 3 ∨ n = 4) ∧ db'.prepare = db.emptied ∨
      5 ≤ n ∧ ∃ legacy, db' = db.filled groups providers legacy := by
  obtain ⟨⟨rows, hrows⟩, ⟨table, htable⟩⟩ := hprepared
  obtain ⟨groupRecords, providerRecords, legacy⟩ := db
  dsimp only at hrows htable
  subst hrows htable
  rcases n with _ | _ | _ | _ | _ | n
  · cases h
    exact .inl ⟨by omega, legacy, rfl⟩
  · cases h
    exact .inl ⟨by omega, legacy, rfl⟩
  · cases h
    exact .inl ⟨by omega, none, rfl⟩
  · cases h
    exact .inr (.inl ⟨.inl rfl, rfl⟩)
  · cases h
    exact .inr (.inl ⟨.inr rfl, rfl⟩)
  · refine .inr (.inr ⟨by omega, ?_⟩)
    -- the transaction on the new table, and the last statement if it is made
    have hlast : (Statement.run ⟨some ⟨true, rows⟩, some ⟨false, []⟩, some table⟩
        (.persist groups providers) >>= fun db =>
          ([Statement.dropLegacyTable].take n).foldlM Statement.run db) = .ok db' := h
    obtain ⟨filled, hfilled, hrest⟩ := bind_eq_ok_iff.1 hlast
    cases hpersist : persistGroupsAndProviders groups providers ⟨.missing, [], []⟩ with
    | error message =>
      rw [Statement.run, hpersist] at hfilled
      cases hfilled
    | ok disk =>
      rw [Statement.run, hpersist] at hfilled
      cases hfilled
      rcases n with _ | n
      · cases hrest
        exact ⟨_, rfl⟩
      · rw [List.take_succ_cons, List.take_nil] at hrest
        cases hrest
        exact ⟨_, rfl⟩

theorem migrationOf_eq (hlegacy : db.isLegacy = true) {statements : List Statement}
    (h : db.migrationOf env = .ok statements) :
    ∃ legacyGroups, db.loadGroupsFromLegacy env.read = .ok legacyGroups ∧
      statements = migration (normalizeGroupsAndProviders env.normalize legacyGroups []).1
        (normalizeGroupsAndProviders env.normalize legacyGroups []).2 := by
  rw [migrationOf, if_pos hlegacy] at h
  obtain ⟨legacyGroups, hgroups, h⟩ := bind_eq_ok_iff.1 h
  cases h
  exact ⟨legacyGroups, hgroups, rfl⟩

theorem migrate_eq (hlegacy : db.prepare.isLegacy = true) (h : db.migrate env = .ok db') :
    ∃ legacyGroups, db.prepare.loadGroupsFromLegacy env.read = .ok legacyGroups ∧
      ∃ legacy, db' = db.prepare.filled
        (normalizeGroupsAndProviders env.normalize legacyGroups []).1
        (normalizeGroupsAndProviders env.normalize legacyGroups []).2 legacy := by
  obtain ⟨statements, hstatements, h⟩ := bind_eq_ok_iff.1 h
  obtain ⟨legacyGroups, hgroups, rfl⟩ := migrationOf_eq hlegacy hstatements
  have hall : ((migration (normalizeGroupsAndProviders env.normalize legacyGroups []).1
      (normalizeGroupsAndProviders env.normalize legacyGroups []).2).take 6).foldlM Statement.run
        db.prepare = .ok db' := h
  rcases run_migration (isPrepared_prepare db) hall with ⟨hn, -⟩ | ⟨hn, -⟩ | ⟨-, hfilled⟩
  · omega
  · omega
  · exact ⟨legacyGroups, hgroups, hfilled⟩

theorem exists_migrateUpTo (h : db.migrate env = .ok db') (n : ℕ) :
    ∃ db'', db.migrateUpTo env n = .ok db'' := by
  obtain ⟨statements, hstatements, h⟩ := bind_eq_ok_iff.1 h
  rw [← List.take_append_drop n statements, List.foldlM_append] at h
  obtain ⟨db'', hfirst, -⟩ := bind_eq_ok_iff.1 h
  exact ⟨db'', bind_eq_ok_iff.2 ⟨statements, hstatements, hfirst⟩⟩

theorem migrate_of_current (hprepared : db.IsPrepared) (hcurrent : db.isLegacy = false) :
    db.migrate env = .ok db := by
  rw [migrate, hprepared.prepare_eq, migrationOf, hcurrent]
  rfl

end Statements

/-! ### The next start -/

section Start

variable {migrating first second : RestartEnv} {file : ConfigFile} {db db' : Database} {n : ℕ}

theorem migrate_withLegacy (hprepared : db.IsPrepared) (hlegacy : db.isLegacy = true)
    (legacy : Option ProviderTable) :
    Database.migrate migrating { db with providerRecordsLegacy := legacy } =
      db.migrate migrating := by
  have hprepared' : Database.IsPrepared { db with providerRecordsLegacy := legacy } :=
    ⟨hprepared.groups, hprepared.providers⟩
  have hlegacy' : Database.isLegacy { db with providerRecordsLegacy := legacy } = true := hlegacy
  rw [migrate, migrate, hprepared.prepare_eq, hprepared'.prepare_eq, migrationOf, migrationOf,
    if_pos hlegacy, if_pos hlegacy']
  show ((db.loadGroupsFromLegacy migrating.read >>= fun _ => _) >>= fun _ => _) = _
  cases db.loadGroupsFromLegacy migrating.read with
  | error message => rfl
  | ok legacyGroups => rfl

theorem migrate_prepare : db.prepare.migrate migrating = db.migrate migrating := by
  rw [migrate, migrate, (isPrepared_prepare db).prepare_eq]

theorem initializeStore_filled {groups : List Group} {providers : List Rule}
    {legacy : Option ProviderTable} (hprepared : db.IsPrepared) :
    (db.filled groups providers legacy).initializeStore migrating second file =
      initializeFrom second file ((db.filled groups providers none).load second.read) := by
  have hcurrent : (db.filled groups providers legacy).isLegacy = false := rfl
  rw [initializeStore, migrate_of_current (hprepared.filled groups providers legacy) hcurrent]
  rfl

theorem initializeStore_eq (hlegacy : db.prepare.isLegacy = true) {migrated : Database}
    (h : db.migrate migrating = .ok migrated) :
    ∃ legacyGroups, db.prepare.loadGroupsFromLegacy migrating.read = .ok legacyGroups ∧
      db.initializeStore migrating second file = initializeFrom second file
        ((db.prepare.filled (normalizeGroupsAndProviders migrating.normalize legacyGroups []).1
          (normalizeGroupsAndProviders migrating.normalize legacyGroups []).2 none).load
            second.read) := by
  obtain ⟨legacyGroups, hgroups, legacy, rfl⟩ := migrate_eq hlegacy h
  refine ⟨legacyGroups, hgroups, ?_⟩
  rw [initializeStore, h]
  rfl

/-- **An interruption before the renaming or after the commit is made up for**: the next start is
an uninterrupted one. -/
theorem initializeStore_of_outside (hlegacy : db.prepare.isLegacy = true) {migrated : Database}
    (hok : db.migrate first = .ok migrated) (h : db.migrateUpTo first n = .ok db')
    (hn : n < 3 ∨ 5 ≤ n) :
    ∃ migrating ∈ [first, second],
      db'.initializeStore second second file = db.initializeStore migrating second file := by
  obtain ⟨statements, hstatements, hrun⟩ := bind_eq_ok_iff.1 h
  obtain ⟨legacyGroups, hgroups, rfl⟩ := migrationOf_eq hlegacy hstatements
  rcases run_migration (isPrepared_prepare db) hrun with
    ⟨-, legacy, rfl⟩ | ⟨hgap, -⟩ | ⟨-, legacy, rfl⟩
  · refine ⟨second, List.mem_cons_of_mem _ List.mem_cons_self, ?_⟩
    rw [initializeStore, initializeStore, migrate_withLegacy (isPrepared_prepare db) hlegacy,
      migrate_prepare]
  · omega
  · refine ⟨first, List.mem_cons_self, ?_⟩
    obtain ⟨legacyGroups', hgroups', hstart⟩ :=
      @initializeStore_eq first second file db hlegacy migrated hok
    obtain rfl := Except.ok.inj (hgroups.symm.trans hgroups')
    rw [initializeStore_filled (isPrepared_prepare db), hstart]

/-- **An interruption between the renaming and the commit** leaves the next start with an empty
table of providers. -/
theorem initializeStore_of_inside (hlegacy : db.prepare.isLegacy = true)
    (h : db.migrateUpTo first n = .ok db') (hn : ¬ (n < 3 ∨ 5 ≤ n)) :
    db'.initializeStore second second file =
      initializeFrom second file (db.prepare.emptied.load second.read) := by
  obtain ⟨statements, hstatements, hrun⟩ := bind_eq_ok_iff.1 h
  obtain ⟨legacyGroups, hgroups, rfl⟩ := migrationOf_eq hlegacy hstatements
  rcases run_migration (isPrepared_prepare db) hrun with ⟨hlow, -⟩ | ⟨-, hprepare⟩ | ⟨hhigh, -⟩
  · exact absurd (.inl hlow) hn
  · have hprepared : db.prepare.emptied.IsPrepared := ⟨(isPrepared_prepare db).groups, ⟨_, rfl⟩⟩
    have hmigrate := @migrate_of_current second _ hprepared rfl
    rw [← hprepare, migrate_prepare, hprepare] at hmigrate
    rw [initializeStore, hmigrate]
    rfl
  · exact absurd (.inr hhigh) hn

end Start

end Database

/-! ### The accepted configurations -/

section Check

variable {env : RestartEnv} {file : ConfigFile} {config : ProxyConfig}

theorem initializeFrom_of_file (hfile : file ≠ .missing)
    (result : Except String (List Group × List Rule)) :
    initializeFrom env file result = checkConfig env file result := by
  cases file with
  | missing => exact absurd rfl hfile
  | invalid => rfl
  | json value => rfl

theorem checkConfig_eq_ok_iff {result : Except String (List Group × List Rule)} :
    checkConfig env file result = .ok config ↔
      ∃ base loaded, file.config env.read = .ok base ∧ result = .ok loaded ∧
        chooseConfig (normalizeConfigForStorage env.normalize base) loaded = .ok config ∧
          Valid config := by
  unfold checkConfig
  constructor
  · intro h
    obtain ⟨base, hbase, h⟩ := bind_eq_ok_iff.1 h
    obtain ⟨loaded, hloaded, h⟩ := bind_eq_ok_iff.1 h
    obtain ⟨chosen, hchosen, h⟩ := bind_eq_ok_iff.1 h
    cases hcheck : validateConfig chosen with
    | error message =>
      rw [hcheck] at h
      cases h
    | ok _ =>
      rw [hcheck] at h
      cases h
      exact ⟨base, loaded, hbase, hloaded, hchosen, validateConfig_ok_iff.1 hcheck⟩
  · rintro ⟨base, loaded, hbase, rfl, hchosen, hvalid⟩
    refine bind_eq_ok_iff.2 ⟨base, hbase, bind_eq_ok_iff.2 ⟨loaded, rfl, ?_⟩⟩
    refine bind_eq_ok_iff.2 ⟨config, hchosen, ?_⟩
    rw [validateConfig_ok_iff.2 hvalid]
    rfl

end Check

/-! ### Tables of the current schema -/

/-- The tables of a disk. -/
def Database.ofDisk (disk : Disk) : Database where
  groupRecords := some ⟨true, disk.groupRecords.map fun record =>
    ⟨record.1, "", .json .null, none, .json .null, some (.json record.2)⟩⟩
  providerRecords := some ⟨false, disk.providerRecords.map fun record =>
    { providerId := record.1, providerJson := .json record.2 }⟩
  providerRecordsLegacy := none

theorem readRows_map {ρ α β : Type} {env : ReadEnv} {failure : String}
    {decode : ℕ → Option Json → Option α} {read : ℕ → ρ → Except String β} {row : String × Json → ρ}
    {f : String × α → β}
    (h : ∀ i record, read i (row record) = (readRecord env failure (decode i) record).map f)
    (records : List (String × Json)) (i : ℕ) :
    readRows read i (records.map row) =
      (readRecords env failure decode i records).map (List.map f) := by
  induction records generalizing i with
  | nil => rfl
  | cons record records ih =>
    rw [List.map_cons, readRows, readRecords, h, ih]
    cases readRecord env failure (decode i) record with
    | error message => rfl
    | ok value => cases readRecords env failure decode (i + 1) records <;> rfl

/-- **Tables of the current schema are loaded as `ConfigStore` loads them.** -/
theorem Database.load_ofDisk (env : ReadEnv) (disk : Disk) :
    (Database.ofDisk disk).load env = disk.load env := by
  have hread : ∀ {α : Type} (failure : String) (decode : Option Json → Option α)
      (record : String × Json), (JsonText.json record.2).read env failure decode =
        (readRecord env failure decode record).map Prod.snd := by
    intro α failure decode record
    rw [JsonText.read, readRecord, readRecord]
    cases (env.reread record.2).bind fun value => decode (some value) <;> rfl
  have hproviders : readRows (ProviderRecord.readRule env) 0 (ofDisk disk).providerRows =
      (readProviders env disk.providerRecords).map (List.map id) := by
    refine readRows_map (fun i record => ?_) disk.providerRecords 0
    rw [ProviderRecord.readRule, hread, readRecord]
    cases (env.reread record.2).bind fun value => Decode.rule env [i, 2] (some value) <;> rfl
  have hgroups : readRows (GroupRecord.readJson env) 0 (ofDisk disk).groupRows =
      (readGroups env disk.groupRecords).map (List.map Prod.snd) := by
    refine readRows_map (fun i record => ?_) disk.groupRecords 0
    exact hread _ (Decode.group env [i, 3]) record
  rw [load, hproviders, hgroups, Disk.load]
  cases readProviders env disk.providerRecords with
  | error message => rfl
  | ok providers =>
    cases readGroups env disk.groupRecords with
    | error message => rfl
    | ok groups =>
      show Except.ok ((groups.map Prod.snd).map (Group.join (HashMap.ofEntries (providers.map id))),
        (providers.map id).map Prod.snd) = _
      rw [List.map_id, List.map_map]
      rfl

theorem Disk.loadConfig_map_fst (env : RestartEnv) (disk : Disk) :
    (disk.loadConfig env).map Prod.fst =
      (disk.file.config env.read >>= fun config =>
        disk.load env.read >>= chooseConfig (normalizeConfigForStorage env.normalize config)) := by
  have hfile : disk.file.config env.read =
      (migrateConfig (disk.fileValue env.read)).bind (normalizeConfig env.read) := rfl
  rw [Disk.loadConfig, hfile]
  cases (migrateConfig (disk.fileValue env.read)).bind (normalizeConfig env.read) with
  | error message => rfl
  | ok config =>
    cases disk.load env.read with
    | error message => rfl
    | ok loaded =>
      obtain ⟨groups, providers⟩ := loaded
      show Except.map Prod.fst (if groups.isEmpty && providers.isEmpty then _ else _) =
        chooseConfig (normalizeConfigForStorage env.normalize config) (groups, providers)
      rw [chooseConfig]
      dsimp only
      split_ifs
      · unfold persistGroupsAndProviders
        cases (normalizeConfigForStorage env.normalize config).groups.foldlM
            (fun records group => insertRecord "group" "group_records.group_id" records
              (group.id, group.toJson)) [] with
        | error message => rfl
        | ok groupRecords =>
          cases (normalizeConfigForStorage env.normalize config).providers.foldlM
              (fun records provider => insertRecord "provider" "provider_records.provider_id"
                records (provider.id, provider.toJson)) [] <;> rfl
      · rfl

theorem ConfigStore.initializeStore_ok_iff {env : RestartEnv} {disk : Disk}
    (hfile : disk.file ≠ .missing) {config : ProxyConfig} :
    (((ConfigStore.new disk).initializeStore env).1 = .ok () ∧
        ((ConfigStore.new disk).initializeStore env).2.config = config) ↔
      (disk.loadConfig env).map Prod.fst = .ok config ∧ Valid config := by
  unfold ConfigStore.initializeStore
  dsimp only [ConfigStore.new]
  split
  · exact absurd ‹_› hfile
  · cases disk.loadConfig env with
    | error message => exact ⟨fun h => (nomatch h.1), fun h => (nomatch h.1)⟩
    | ok loaded =>
      obtain ⟨chosen, disk'⟩ := loaded
      dsimp only
      rw [← validateConfig_ok_iff]
      constructor
      · intro h
        cases hcheck : validateConfig chosen with
        | error message =>
          rw [hcheck] at h
          dsimp only at h
          cases hreset : ConfigStore.reset env.normalize ⟨disk', defaultConfig, 0⟩ with
          | error _ => rw [hreset] at h; cases h.1
          | ok _ => rw [hreset] at h; cases h.1
        | ok _ =>
          rw [hcheck] at h
          obtain rfl : chosen = config := h.2
          exact ⟨rfl, hcheck⟩
      · rintro ⟨hchosen, hcheck⟩
        obtain rfl : chosen = config := Except.ok.inj hchosen
        rw [hcheck]
        exact ⟨rfl, rfl⟩

/-- **A start on tables of the current schema is that of `ConfigStore`.** -/
theorem Database.initializeStore_ofDisk (migrating env : RestartEnv) (disk : Disk)
    (config : ProxyConfig) :
    (Database.ofDisk disk).initializeStore migrating env disk.file = .ok config ↔
      ((ConfigStore.new disk).initializeStore env).1 = .ok () ∧
        ((ConfigStore.new disk).initializeStore env).2.config = config := by
  have hprepared : (ofDisk disk).IsPrepared := ⟨⟨_, rfl⟩, ⟨_, rfl⟩⟩
  have hstart : (ofDisk disk).initializeStore migrating env disk.file =
      initializeFrom env disk.file (disk.load env.read) := by
    rw [initializeStore, migrate_of_current hprepared rfl, ← load_ofDisk]
    rfl
  rw [hstart]
  by_cases hfile : disk.file = .missing
  · rw [hfile, ConfigStore.initializeStore, ConfigStore.new]
    dsimp only
    rw [hfile]
    exact ⟨fun h => ⟨rfl, Except.ok.inj h⟩, fun h => congrArg Except.ok h.2⟩
  · rw [initializeFrom_of_file hfile, checkConfig_eq_ok_iff,
      ConfigStore.initializeStore_ok_iff hfile, Disk.loadConfig_map_fst, bind_eq_ok_iff]
    constructor
    · rintro ⟨base, loaded, hbase, hloaded, hchosen, hvalid⟩
      exact ⟨⟨base, hbase, bind_eq_ok_iff.2 ⟨loaded, hloaded, hchosen⟩⟩, hvalid⟩
    · rintro ⟨⟨base, hbase, h⟩, hvalid⟩
      obtain ⟨loaded, hloaded, hchosen⟩ := bind_eq_ok_iff.1 h
      exact ⟨base, loaded, hbase, hloaded, hchosen, hvalid⟩

end AiOpenRouter
