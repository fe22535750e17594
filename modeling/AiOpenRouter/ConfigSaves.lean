/-
Saving a configuration, step by step (`ConfigStore::save` and `save_config`).

A save writes the tables in one transaction, then the file, then the memory; the
first two may fail.  A transaction that fails is rolled back, but nothing takes a
committed one back when the file cannot be written.

* `SaveCall.perform` makes the steps, with what goes wrong outside given;
* `perform_matches`: when nothing goes wrong, this is `ConfigStore.saveConfig`;
* `failedSave_iff`: a failed save changes nothing, unless it has committed.
-/
import AiOpenRouter.ConfigStore

namespace AiOpenRouter

/-! ### The three stores -/

/-- A row: its primary key, its JSON column, and `updated_at`. -/
structure Row where
  key : String
  json : Json
  updatedAt : ℤ

/-- The tables `group_records` and `provider_records`. -/
structure Tables where
  groupRecords : List Row
  providerRecords : List Row

def Tables.written (now : ℤ) (groupRecords providerRecords : List (String × Json)) : Tables where
  groupRecords := groupRecords.map fun record => ⟨record.1, record.2, now⟩
  providerRecords := providerRecords.map fun record => ⟨record.1, record.2, now⟩

def Tables.ofConfig (now : ℤ) (config : ProxyConfig) : Tables :=
  Tables.written now (groupRows config.groups) (providerRows config.providers)

/-- What `ConfigStore` keeps: the tables, the text of the file if there is one, the configuration
in memory, and its revision. -/
structure StoreState where
  tables : Tables
  file : Option String
  config : ProxyConfig
  revision : ℕ

/-- What saving takes from outside: `to_string_pretty`, too. -/
structure SaveEnv extends RestartEnv where
  toStringPretty : Json → String

/-- How `std::fs::write` fails: the file is not opened, or it is cut off after a beginning of
the text. -/
inductive WriteFault where
  | refused
  | cut (written : ℕ)

/-- What goes wrong outside during a save, with the texts of the errors: in the transaction (its
lock, a statement or the commit), in the serialisation, or in the writing of the file. -/
structure SaveFaults where
  database : Option String := none
  serialize : Option String := none
  write : Option (WriteFault × String) := none

/-! ### The steps -/

/-- `ConfigStore::save_config_to_db`: what the tables hold after the transaction. -/
def saveConfigToDb (now : ℤ) (fault : Option String) (config : ProxyConfig) :
    Except String Tables :=
  match fault with
  | some message => .error message
  | none =>
    (persistGroupsAndProviders config.groups config.providers ⟨.missing, [], []⟩).map fun disk =>
      Tables.written now disk.groupRecords disk.providerRecords

def SaveFaults.fileLeft (faults : SaveFaults) (text : String) (file : Option String) :
    Option String :=
  match faults.serialize, faults.write with
  | none, some (.cut written, _) => some (String.ofList (text.toList.take written))
  | _, _ => file

/-- `ConfigStore::write_file`: the error if there is one, and the file after it. -/
def writeFile (env : SaveEnv) (faults : SaveFaults) (config : ProxyConfig) (file : Option String) :
    Except String Unit × Option String :=
  let text := env.toStringPretty config.settings.toJson
  match faults.serialize, faults.write with
  | some message, _ => (.error ("serialize config failed: " ++ message), faults.fileLeft text file)
  | none, some (_, message) =>
    (.error ("write config failed: " ++ message), faults.fileLeft text file)
  | none, none => (.ok (), some text)

/-- `ConfigStore::set_in_memory`. -/
def StoreState.setInMemory (s : StoreState) (config : ProxyConfig) : StoreState :=
  { s with config := config, revision := s.revision + 1 }

/-- What `save` and `save_config` do with a configuration that they accept. -/
def saveNormalized (env : SaveEnv) (now : ℤ) (faults : SaveFaults) (normalized : ProxyConfig)
    (s : StoreState) : Except String ProxyConfig × StoreState :=
  match saveConfigToDb now faults.database normalized with
  | .error message => (.error message, s)
  | .ok tables =>
    match writeFile env faults normalized s.file with
    | (.error message, file) => (.error message, { s with tables := tables, file := file })
    | (.ok (), file) =>
      (.ok normalized, { s with tables := tables, file := file }.setInMemory normalized)

/-- A call of `ConfigStore::save` or `ConfigStore::save_config`. -/
inductive SaveCall where
  | save (nextConfig : Json)
  | saveConfig (nextConfig : ProxyConfig)

def SaveCall.accept (env : SaveEnv) : SaveCall → Except String ProxyConfig
  | .save nextConfig => do
    let migrated ← migrateConfig nextConfig
    let config ← normalizeConfig env.read migrated
    acceptConfig env.normalize config
  | .saveConfig nextConfig => acceptConfig env.normalize nextConfig

/-- The whole call. -/
def SaveCall.perform (env : SaveEnv) (now : ℤ) (faults : SaveFaults) (call : SaveCall)
    (s : StoreState) : Except String ProxyConfig × StoreState :=
  match call.accept env with
  | .error message => (.error message, s)
  | .ok normalized => saveNormalized env now faults normalized s

/-! ### The transaction -/

theorem foldlM_insertRecord_eq_ok {α : Type} {what primaryKey : String}
    {row : α → String × Json} {xs : List α} {records : List (String × Json)}
    (h : (records.map Prod.fst ++ xs.map fun x => (row x).1).Nodup) :
    xs.foldlM (fun records x => insertRecord what primaryKey records (row x)) records =
      .ok (records ++ xs.map row) := by
  induction xs generalizing records with
  | nil => simp [pure, Except.pure]
  | cons x xs ih =>
    have hfresh : (row x).1 ∉ records.map Prod.fst := by
      rw [List.map_cons] at h
      exact fun hmem => List.disjoint_of_nodup_append h hmem List.mem_cons_self
    have hrest : ((records ++ [row x]).map Prod.fst ++ xs.map fun x => (row x).1).Nodup := by
      simpa using h
    rw [List.foldlM_cons, insertRecord, if_neg hfresh]
    refine (ih hrest).trans ?_
    rw [List.append_assoc]
    rfl

theorem foldlM_insertRecord_eq_error {α : Type} {what primaryKey : String}
    {row : α → String × Json} {xs : List α} {records : List (String × Json)}
    (hrecords : (records.map Prod.fst).Nodup)
    (h : ¬ (records.map Prod.fst ++ xs.map fun x => (row x).1).Nodup) :
    ∃ message, xs.foldlM (fun records x => insertRecord what primaryKey records (row x)) records =
      .error message := by
  induction xs generalizing records with
  | nil => exact absurd (by simpa using hrecords) h
  | cons x xs ih =>
    rw [List.foldlM_cons, insertRecord]
    split_ifs with hmem
    · exact ⟨_, rfl⟩
    · refine @ih (records ++ [row x]) ?_ ?_
      · rw [List.map_append, List.map_singleton]
        exact List.nodup_append_comm.1 (List.nodup_cons.2 ⟨hmem, hrecords⟩)
      · simpa using h

/-- The keys of both tables are distinct. -/
def DistinctKeys (config : ProxyConfig) : Prop :=
  (config.groups.map Group.id).Nodup ∧ (config.providers.map Rule.id).Nodup

/-- **The transaction** writes both tables when their keys are distinct, and fails otherwise. -/
theorem saveConfigToDb_of_distinct {config : ProxyConfig} (h : DistinctKeys config) (now : ℤ) :
    saveConfigToDb now none config = .ok (Tables.ofConfig now config) := by
  rw [saveConfigToDb, persistGroupsAndProviders,
    foldlM_insertRecord_eq_ok (by simpa using h.1)]
  show Except.map _ (do let _ ← _; _) = _
  rw [foldlM_insertRecord_eq_ok (by simpa using h.2)]
  rfl

theorem saveConfigToDb_of_not_distinct {config : ProxyConfig} (h : ¬ DistinctKeys config)
    (now : ℤ) : ∃ message, saveConfigToDb now none config = .error message := by
  rw [saveConfigToDb, persistGroupsAndProviders]
  by_cases hgroups : (config.groups.map Group.id).Nodup
  · have hproviders : ¬ (config.providers.map Rule.id).Nodup := fun hnodup => h ⟨hgroups, hnodup⟩
    rw [foldlM_insertRecord_eq_ok (by simpa using hgroups)]
    obtain ⟨message, hmessage⟩ := @foldlM_insertRecord_eq_error Rule "provider"
      "provider_records.provider_id" (fun provider => (provider.id, provider.toJson))
      config.providers [] List.nodup_nil (by simpa using hproviders)
    refine ⟨message, ?_⟩
    show Except.map _ (do let _ ← _; _) = _
    rw [hmessage]
    rfl
  · obtain ⟨message, hmessage⟩ := @foldlM_insertRecord_eq_error Group "group"
      "group_records.group_id" (fun group => (group.id, group.toJson))
      config.groups [] List.nodup_nil (by simpa using hgroups)
    refine ⟨message, ?_⟩
    rw [hmessage]
    rfl

/-! ### A save in which nothing goes wrong -/

inductive FileMatches (env : SaveEnv) : Option String → ConfigFile → Prop
  | missing : FileMatches env none .missing
  | invalid (text : String) : FileMatches env (some text) .invalid
  | json (value : Json) : FileMatches env (some (env.toStringPretty value)) (.json value)

def Row.record (row : Row) : String × Json := (row.key, row.json)

/-- The same store, without the times and with the value of the file. -/
structure StoreState.Matches (env : SaveEnv) (s : StoreState) (store : ConfigStore) : Prop where
  groups : s.tables.groupRecords.map Row.record = store.disk.groupRecords
  providers : s.tables.providerRecords.map Row.record = store.disk.providerRecords
  file : FileMatches env s.file store.disk.file
  config : s.config = store.config
  revision : s.revision = store.revision

theorem map_record_written (now : ℤ) (records : List (String × Json)) :
    (records.map fun record => (⟨record.1, record.2, now⟩ : Row)).map Row.record = records := by
  rw [List.map_map]
  exact List.map_id' records

theorem persist_eq (groups : List Group) (providers : List Rule) (disk : Disk) :
    persistGroupsAndProviders groups providers disk =
      (persistGroupsAndProviders groups providers ⟨.missing, [], []⟩).map fun written =>
        { written with file := disk.file } := by
  unfold persistGroupsAndProviders
  cases groups.foldlM (fun records group => insertRecord "group" "group_records.group_id" records
    (group.id, group.toJson)) [] with
  | error message => rfl
  | ok groupRecords =>
    cases providers.foldlM (fun records provider => insertRecord "provider"
      "provider_records.provider_id" records (provider.id, provider.toJson)) [] with
    | error message => rfl
    | ok providerRecords => rfl

/-- **A save in which nothing goes wrong** does what `ConfigStore.saveConfig` does. -/
theorem perform_matches (env : SaveEnv) (now : ℤ) (nextConfig : ProxyConfig) {s : StoreState}
    {store : ConfigStore} (h : s.Matches env store) :
    ((SaveCall.saveConfig nextConfig).perform env now {} s).1 =
        (store.saveConfig env.normalize nextConfig).1 ∧
      ((SaveCall.saveConfig nextConfig).perform env now {} s).2.Matches env
        (store.saveConfig env.normalize nextConfig).2 := by
  have hcall : (SaveCall.saveConfig nextConfig).accept env =
      acceptConfig env.normalize nextConfig :=
    rfl
  rw [SaveCall.perform, hcall, ConfigStore.saveConfig]
  cases acceptConfig env.normalize nextConfig with
  | error message => exact ⟨rfl, h⟩
  | ok normalized =>
    dsimp only
    rw [saveNormalized, saveConfigToDb, Disk.store, persist_eq _ _ store.disk]
    cases hpersist : persistGroupsAndProviders normalized.groups normalized.providers
        ⟨.missing, [], []⟩ with
    | error message => exact ⟨rfl, h⟩
    | ok written =>
      rw [persist_eq_ok hpersist]
      refine ⟨rfl, map_record_written .., map_record_written .., .json _, rfl, ?_⟩
      show s.revision + 1 = store.revision + 1
      rw [h.revision]

/-! ### A save that fails -/

/-- The call is accepted and its transaction commits, but the file is not written; and this leaves
other rows or another file than before. -/
def SaveCall.FailsAfterCommit (env : SaveEnv) (now : ℤ) (faults : SaveFaults) (call : SaveCall)
    (s : StoreState) : Prop :=
  ∃ normalized, call.accept env = .ok normalized ∧ faults.database = none ∧
    DistinctKeys normalized ∧ (faults.serialize.isSome ∨ faults.write.isSome) ∧
      ¬ (Tables.ofConfig now normalized = s.tables ∧
        faults.fileLeft (env.toStringPretty normalized.settings.toJson) s.file = s.file)

theorem writeFile_cases (env : SaveEnv) (faults : SaveFaults) (config : ProxyConfig)
    (file : Option String) :
    ((faults.serialize.isSome ∨ faults.write.isSome) ∧
      ∃ message, writeFile env faults config file =
        (.error message, faults.fileLeft (env.toStringPretty config.settings.toJson) file)) ∨
    (¬ (faults.serialize.isSome ∨ faults.write.isSome) ∧
      writeFile env faults config file =
        (.ok (), some (env.toStringPretty config.settings.toJson))) := by
  obtain ⟨-, serialize, write⟩ := faults
  rw [writeFile]
  rcases serialize with _ | message
  · rcases write with _ | ⟨fault, message⟩
    · exact .inr ⟨by simp, rfl⟩
    · exact .inl ⟨.inr rfl, _, rfl⟩
  · exact .inl ⟨.inl rfl, _, rfl⟩

theorem saveNormalized_of_error {env : SaveEnv} {now : ℤ} {faults : SaveFaults}
    {normalized : ProxyConfig} {message : String}
    (h : saveConfigToDb now faults.database normalized = .error message) (s : StoreState) :
    saveNormalized env now faults normalized s = (.error message, s) := by
  rw [saveNormalized, h]

/-- **A failed save changes nothing, unless it fails behind the commit.** -/
theorem failedSave_iff (env : SaveEnv) (now : ℤ) (faults : SaveFaults) (call : SaveCall)
    (s : StoreState) :
    (∀ message, (call.perform env now faults s).1 = .error message →
        (call.perform env now faults s).2 = s) ↔
      ¬ call.FailsAfterCommit env now faults s := by
  unfold SaveCall.perform SaveCall.FailsAfterCommit
  cases haccept : call.accept env with
  | error message => simp
  | ok normalized =>
    simp only [Except.ok.injEq, exists_eq_left']
    cases hfault : faults.database with
    | some message =>
      rw [@saveNormalized_of_error env now faults normalized message
        (by rw [hfault, saveConfigToDb])]
      simp
    | none =>
      by_cases hdistinct : DistinctKeys normalized
      · have hcommit := saveConfigToDb_of_distinct hdistinct now
        rw [saveNormalized, hfault, hcommit]
        dsimp only
        rcases writeFile_cases env faults normalized s.file with
          ⟨hfails, message, hwrite⟩ | ⟨hfine, hwrite⟩
        · rw [hwrite]
          simp only [hfails, hdistinct, true_and, not_not, Except.error.injEq, forall_eq']
          obtain ⟨tables, file, config, revision⟩ := s
          simp
        · rw [hwrite]
          simp [hfine]
      · obtain ⟨message, hmessage⟩ := saveConfigToDb_of_not_distinct hdistinct now
        rw [@saveNormalized_of_error env now faults normalized message (by rw [hfault, hmessage])]
        simp [hdistinct]

/-- An environment that prints compactly. -/
def SaveEnv.plain : SaveEnv := { RestartEnv.plain with toStringPretty := Json.compact }

/-- A store in which nothing was saved yet. -/
def StoreState.empty : StoreState := ⟨⟨[], []⟩, none, defaultConfig, 0⟩

/-- The file cannot be written. -/
def SaveFaults.readOnly : SaveFaults := { write := some (.refused, "Permission denied") }

/-- The save fails, and the provider is in the table. -/
theorem not_unchanged_readOnly :
    ∃ s, (SaveCall.saveConfig (oneRouteConfig "p1")).perform SaveEnv.plain 1 SaveFaults.readOnly
        StoreState.empty = (.error "write config failed: Permission denied", s) ∧
      s.tables.providerRecords.map Row.key = ["p1"] ∧ s ≠ StoreState.empty := by
  refine ⟨_, rfl, rfl, fun heq => ?_⟩
  have hkeys : ["p1"] = [] := congrArg (fun s => s.tables.providerRecords.map Row.key) heq
  cases hkeys

end AiOpenRouter
