/-
Uploading the rules to a branch of a remote repository, and pulling them from it
(`remote_sync.rs`, `remote_rules_service.rs`).

Both compare the time at which the local tables were written with the time at which
the file on the branch was exported, and ask for a confirmation when the one that
would be overwritten is newer.

* `SyncOp.perform`: an edit, an upload or a pull of one installation;
* `SyncOp.Outcome`: what it can do, and `perform_outcome`: that it does no more.
-/
import AiOpenRouter.ConfigSaves
import AiOpenRouter.GroupsBackup
import AiOpenRouter.JsonText

namespace AiOpenRouter

/-! ### Times and files -/

/-- The texts of times: `to_rfc3339`, and `parse_from_rfc3339`, which reads what it prints. -/
structure TimeTexts where
  toRfc3339 : ℕ → String
  parseTs : String → Option ℕ
  parseTs_toRfc3339 : ∀ time, parseTs (toRfc3339 time) = some time

/-- A parsed URL: its scheme, and its host if it has one. -/
structure RepoUrl where
  scheme : String
  host : Option String

/-- What syncing takes from outside. -/
structure SyncEnv extends SaveEnv, TimeTexts where
  parseUrl : String → Option RepoUrl
  hasRemoteGitBinary : Bool

/-- The rules file on a branch: its text, and the value that it is the JSON text of. -/
structure RulesFile where
  text : String
  value : Option Json

/-- The remote branch, if there is one: the rules file, if there is one. -/
abbrev RemoteBranch := Option (Option RulesFile)

/-- `REMOTE_RULES_FILE_PATH`. -/
def remoteRulesFilePath : String := "groups-rules-backup.json"

/-! ### The two calls -/

/-- `require_remote_ready`. -/
def requireRemoteReady (remote : RemoteGitConfig) : Except String Unit :=
  if trimmed remote.repoUrl = "" ∨ trimmed remote.token = "" then
    .error "Please configure remote repository info first"
  else if trimmed remote.branch = "" then .error "remoteGit.branch cannot be empty"
  else .ok ()

/-- `authenticated_repo_url`: the user name and the password that the URL gets. -/
def authenticatedRepoUrl (parseUrl : String → Option RepoUrl) (repoUrl token : String) :
    Except String (String × String) :=
  match parseUrl repoUrl with
  | none => .error "remoteGit.repoUrl must be a valid URL"
  | some url =>
    if url.scheme ≠ "https" ∧ url.scheme ≠ "http" then
      .error "remoteGit.repoUrl must use http or https"
    else if trimmed token = "" then .error "remoteGit.token cannot be empty"
    else .ok (if url.host = some "github.com" then "x-access-token" else "oauth2", token)

def checkRemote (env : SyncEnv) (remote : RemoteGitConfig) : Except String Unit := do
  requireRemoteReady remote
  let _ ← authenticatedRepoUrl env.parseUrl remote.repoUrl remote.token
  return ()

/-- `read_exported_at_from_json`. -/
def readExportedAtFromJson (parsed : Json) : Option String := parsed.getStr "exportedAt"

/-- `read_remote_exported_at`: a file that cannot be read counts as none. -/
def readRemoteExportedAt (file : Option RulesFile) : Option String :=
  (file.bind RulesFile.value).bind readExportedAtFromJson

/-- `is_local_older`. -/
def isLocalOlder (texts : TimeTexts) (localTime remoteTime : Option String) : Bool :=
  match localTime.bind texts.parseTs, remoteTime.bind texts.parseTs with
  | some localTime, some remoteTime => localTime < remoteTime
  | _, _ => false

/-- The comparison that `pull_with_dir` makes. -/
def isLocalNewer (texts : TimeTexts) (localTime remoteTime : Option String) : Bool :=
  match localTime.bind texts.parseTs, remoteTime.bind texts.parseTs with
  | some localTime, some remoteTime => localTime > remoteTime
  | _, _ => false

/-- `RemoteRulesUploadResult`. -/
structure RemoteRulesUploadResult where
  ok : Bool
  changed : Bool
  branch : String
  filePath : String
  groupCount : ℕ
  needsConfirmation : Bool
  warning : Option String
  localUpdatedAt : Option String
  remoteUpdatedAt : Option String

/-- `RemoteRulesPullResult`, without the status of the runtime. -/
structure RemoteRulesPullResult where
  ok : Bool
  branch : String
  filePath : String
  importedGroupCount : Option ℕ
  config : Option ProxyConfig
  needsConfirmation : Bool
  warning : Option String
  localUpdatedAt : Option String
  remoteUpdatedAt : Option String

/-- `upload_groups_json_to_remote`: the text is committed and pushed when it is not that of the
file on the branch. -/
def uploadGroupsJsonToRemote (env : SyncEnv) (remote : RemoteGitConfig) (file : RulesFile)
    (groupCount : ℕ) (localUpdatedAt : Option String) (force : Bool) (branch : RemoteBranch) :
    Except String RemoteRulesUploadResult × RemoteBranch :=
  match checkRemote env remote with
  | .error message => (.error message, branch)
  | .ok () =>
    let remoteUpdatedAt := branch.bind readRemoteExportedAt
    let result : RemoteRulesUploadResult :=
      { ok := true, changed := false, branch := trimmed remote.branch
        filePath := remoteRulesFilePath, groupCount := groupCount, needsConfirmation := false
        warning := none, localUpdatedAt := localUpdatedAt, remoteUpdatedAt := remoteUpdatedAt }
    if !force && isLocalOlder env.toTimeTexts localUpdatedAt remoteUpdatedAt then
      (.ok { result with needsConfirmation := true, warning := some "remote_newer_than_local" },
        branch)
    else if (branch.bind id).any fun old => old.text = file.text then (.ok result, branch)
    else (.ok { result with changed := true }, some (some file))

/-- An installation: its store, and the modification time of its tables. -/
structure Installation where
  store : ConfigStore
  savedAt : ℕ

/-- `get_local_config_updated_at`: none when the file's metadata cannot be read. -/
def getLocalConfigUpdatedAt (texts : TimeTexts) (timeKnown : Bool) (inst : Installation) :
    Option String :=
  if timeKnown then some (texts.toRfc3339 inst.savedAt) else none

def rulesFile (env : SyncEnv) (now : ℕ) (config : ProxyConfig) : RulesFile :=
  let payload := createGroupsBackupPayload (env.toRfc3339 now) config.groups config.providers
  { text := env.toStringPretty payload.toJson, value := some payload.toJson }

/-- `upload_with_dir`. -/
def uploadWithDir (env : SyncEnv) (now : ℕ) (timeKnown : Bool) (force : Option Bool)
    (inst : Installation) (branch : RemoteBranch) :
    Except String RemoteRulesUploadResult × RemoteBranch :=
  if env.hasRemoteGitBinary then
    uploadGroupsJsonToRemote env inst.store.config.remoteGit
      (rulesFile env now inst.store.config) inst.store.config.groups.length
      (getLocalConfigUpdatedAt env.toTimeTexts timeKnown inst) (force.getD false) branch
  else (.error "git is not available in current environment", branch)

/-- `pull_groups_json_from_remote`. -/
def pullGroupsJsonFromRemote (env : SyncEnv) (remote : RemoteGitConfig) (branch : RemoteBranch) :
    Except String RulesFile :=
  match checkRemote env remote with
  | .error message => .error message
  | .ok () =>
    match branch with
    | none => .error ("Remote branch not found: " ++ trimmed remote.branch)
    | some none => .error "read remote rules file failed: No such file or directory (os error 2)"
    | some (some file) => .ok file

def importPulled (env : SyncEnv) (now : ℕ) (parsed : Json) (result : RemoteRulesPullResult)
    (inst : Installation) : Except String RemoteRulesPullResult × Installation :=
  match importGroupsPayload env.toRestartEnv parsed inst.store with
  | (.error message, _) => (.error message, inst)
  | (.ok saved, store) =>
    (.ok { result with
        importedGroupCount := (extractGroupsAndProvidersFromImportPayload env.read
          parsed).toOption.map fun payload => payload.1.length
        config := some saved },
      { store := store, savedAt := now })

/-- `pull_with_dir`. -/
def pullWithDir (env : SyncEnv) (now : ℕ) (timeKnown : Bool) (force : Option Bool)
    (branch : RemoteBranch) (inst : Installation) :
    Except String RemoteRulesPullResult × Installation :=
  if env.hasRemoteGitBinary then
    match pullGroupsJsonFromRemote env inst.store.config.remoteGit branch with
    | .error message => (.error message, inst)
    | .ok file =>
      match file.value with
      | none => (.error "Invalid JSON in remote rules file", inst)
      | some parsed =>
        let localUpdatedAt := getLocalConfigUpdatedAt env.toTimeTexts timeKnown inst
        let remoteUpdatedAt := readExportedAtFromJson parsed
        let result : RemoteRulesPullResult :=
          { ok := true, branch := trimmed inst.store.config.remoteGit.branch
            filePath := remoteRulesFilePath, importedGroupCount := none, config := none
            needsConfirmation := false, warning := none, localUpdatedAt := localUpdatedAt
            remoteUpdatedAt := remoteUpdatedAt }
        if !force.getD false && isLocalNewer env.toTimeTexts localUpdatedAt remoteUpdatedAt then
          (.ok { result with
            needsConfirmation := true, warning := some "local_newer_than_remote" }, inst)
        else importPulled env now parsed result inst
  else (.error "git is not available in current environment", inst)

/-! ### One operation -/

/-- What an installation does, without force: the rules are edited, uploaded or pulled.  The time
of the tables is known or not. -/
inductive SyncOp where
  | edit (nextConfig : ProxyConfig)
  | upload (timeKnown : Bool)
  | pull (timeKnown : Bool)

inductive SyncAnswer where
  | edited (result : Except String ProxyConfig)
  | uploaded (result : Except String RemoteRulesUploadResult)
  | pulled (result : Except String RemoteRulesPullResult)

def editRules (env : SyncEnv) (now : ℕ) (nextConfig : ProxyConfig) (inst : Installation) :
    Except String ProxyConfig × Installation :=
  match inst.store.saveConfig env.normalize nextConfig with
  | (.error message, _) => (.error message, inst)
  | (.ok saved, store) => (.ok saved, { store := store, savedAt := now })

/-- An operation of an installation, at a time. -/
def SyncOp.perform (env : SyncEnv) (now : ℕ) (inst : Installation) (branch : RemoteBranch) :
    SyncOp → SyncAnswer × Installation × RemoteBranch
  | .edit nextConfig =>
    let (result, inst) := editRules env now nextConfig inst
    (.edited result, inst, branch)
  | .upload timeKnown =>
    let (result, branch) := uploadWithDir env now timeKnown none inst branch
    (.uploaded result, inst, branch)
  | .pull timeKnown =>
    let (result, inst) := pullWithDir env now timeKnown none branch inst
    (.pulled result, inst, branch)

/-! ### What a call can do -/

section Calls

variable {env : SyncEnv} {now : ℕ} {timeKnown : Bool} {inst : Installation}
  {branch : RemoteBranch}

def exportTime (texts : TimeTexts) (branch : RemoteBranch) : Option ℕ :=
  (branch.bind readRemoteExportedAt).bind texts.parseTs

theorem exportTime_rulesFile (config : ProxyConfig) :
    exportTime env.toTimeTexts (some (some (rulesFile env now config))) = some now :=
  env.parseTs_toRfc3339 now

theorem text_rulesFile_ne (hprint : Function.Injective env.toStringPretty) {time : ℕ}
    (hne : time ≠ now) (config config' : ProxyConfig) :
    (rulesFile env time config).text ≠ (rulesFile env now config').text := by
  intro htext
  have hvalue := congrArg (fun value => value.getStr "exportedAt") (hprint htext)
  have htimes : env.toRfc3339 time = env.toRfc3339 now := Option.some.inj hvalue
  have hparsed := congrArg env.parseTs htimes
  rw [env.parseTs_toRfc3339, env.parseTs_toRfc3339, Option.some_inj] at hparsed
  exact hne hparsed

theorem isLocalOlder_iff {remoteTime : Option String} :
    isLocalOlder env.toTimeTexts (getLocalConfigUpdatedAt env.toTimeTexts timeKnown inst)
        remoteTime = true ↔
      timeKnown = true ∧ ∃ time, remoteTime.bind env.parseTs = some time ∧ inst.savedAt < time := by
  unfold isLocalOlder getLocalConfigUpdatedAt
  cases timeKnown with
  | false => simp
  | true =>
    rw [if_pos rfl, Option.bind_some, env.parseTs_toRfc3339]
    cases remoteTime.bind env.parseTs <;> simp

theorem isLocalNewer_iff {remoteTime : Option String} :
    isLocalNewer env.toTimeTexts (getLocalConfigUpdatedAt env.toTimeTexts timeKnown inst)
        remoteTime = true ↔
      timeKnown = true ∧ ∃ time, remoteTime.bind env.parseTs = some time ∧ time < inst.savedAt := by
  unfold isLocalNewer getLocalConfigUpdatedAt
  cases timeKnown with
  | false => simp
  | true =>
    rw [if_pos rfl, Option.bind_some, env.parseTs_toRfc3339]
    cases remoteTime.bind env.parseTs <;> simp

/-- **What an upload without force can do**: fail, ask for a confirmation because the file on the
branch is newer, find its own text on the branch, or replace the file. -/
theorem uploadWithDir_cases :
    (∃ message, uploadWithDir env now timeKnown none inst branch = (.error message, branch)) ∨
      (∃ result, uploadWithDir env now timeKnown none inst branch = (.ok result, branch) ∧
        result.needsConfirmation = true ∧ timeKnown = true ∧
          ∃ time, exportTime env.toTimeTexts branch = some time ∧ inst.savedAt < time) ∨
      (∃ result branch', uploadWithDir env now timeKnown none inst branch =
          (.ok result, branch') ∧ result.needsConfirmation = false ∧
        (timeKnown = true → ∀ time, exportTime env.toTimeTexts branch = some time →
          time ≤ inst.savedAt) ∧
        (result.changed = true ∧ branch' = some (some (rulesFile env now inst.store.config)) ∨
          result.changed = false ∧ branch' = branch ∧ ∃ old, branch = some (some old) ∧
            old.text = (rulesFile env now inst.store.config).text)) := by
  unfold uploadWithDir
  by_cases hgit : env.hasRemoteGitBinary = true
  · rw [if_pos hgit, uploadGroupsJsonToRemote]
    cases checkRemote env inst.store.config.remoteGit with
    | error message => exact .inl ⟨message, rfl⟩
    | ok _ =>
      right
      simp only [Option.getD_none, Bool.not_false, Bool.true_and]
      by_cases holder : isLocalOlder env.toTimeTexts
          (getLocalConfigUpdatedAt env.toTimeTexts timeKnown inst)
          (branch.bind readRemoteExportedAt) = true
      · rw [if_pos holder]
        obtain ⟨hknown, time, htime, hlt⟩ := isLocalOlder_iff.1 holder
        exact .inl ⟨_, rfl, rfl, hknown, time, htime, hlt⟩
      · rw [if_neg holder]
        right
        have hnewer : timeKnown = true → ∀ time, exportTime env.toTimeTexts branch = some time →
            time ≤ inst.savedAt := by
          intro hknown time htime
          by_contra hlt
          exact holder (isLocalOlder_iff.2 ⟨hknown, time, htime, by omega⟩)
        by_cases hsame : ((branch.bind id).any fun old =>
            old.text = (rulesFile env now inst.store.config).text) = true
        · rw [if_pos hsame]
          refine ⟨_, _, rfl, rfl, hnewer, .inr ⟨rfl, rfl, ?_⟩⟩
          obtain ⟨old, hold, htext⟩ := (Option.any_eq_true _ _).1 hsame
          obtain ⟨file, hbranch, hfile⟩ := Option.bind_eq_some_iff.1 hold
          obtain rfl : file = some old := hfile
          exact ⟨old, hbranch, of_decide_eq_true htext⟩
        · rw [if_neg hsame]
          exact ⟨_, _, rfl, rfl, hnewer, .inl ⟨rfl, rfl⟩⟩
  · rw [if_neg hgit]
    exact .inl ⟨_, rfl⟩

/-- **What a pull without force can do**: fail, ask for a confirmation because the local tables are
newer, or replace the local rules by those of the file. -/
theorem pullWithDir_cases :
    (∃ message, pullWithDir env now timeKnown none branch inst = (.error message, inst)) ∨
      (∃ result, pullWithDir env now timeKnown none branch inst = (.ok result, inst) ∧
        result.needsConfirmation = true ∧ timeKnown = true ∧
          ∃ time, exportTime env.toTimeTexts branch = some time ∧ time < inst.savedAt) ∨
      (∃ result store, pullWithDir env now timeKnown none branch inst =
          (.ok result, ⟨store, now⟩) ∧ result.needsConfirmation = false ∧
        (timeKnown = true → ∀ time, exportTime env.toTimeTexts branch = some time →
          inst.savedAt ≤ time) ∧ ∃ file, branch = some (some file)) := by
  unfold pullWithDir
  by_cases hgit : env.hasRemoteGitBinary = true
  · rw [if_pos hgit]
    cases hpull : pullGroupsJsonFromRemote env inst.store.config.remoteGit branch with
    | error message => exact .inl ⟨message, rfl⟩
    | ok file =>
      -- what was fetched is the file of the branch
      have hbranch : branch = some (some file) := by
        unfold pullGroupsJsonFromRemote at hpull
        cases hcheck : checkRemote env inst.store.config.remoteGit with
        | error message =>
          rw [hcheck] at hpull
          cases hpull
        | ok _ =>
          rw [hcheck] at hpull
          rcases branch with _ | _ | found
          · cases hpull
          · cases hpull
          · rw [Except.ok.inj hpull]
      dsimp only
      cases hvalue : file.value with
      | none => exact .inl ⟨_, rfl⟩
      | some parsed =>
        have htime : exportTime env.toTimeTexts branch =
            (readExportedAtFromJson parsed).bind env.parseTs := by
          rw [hbranch, exportTime, Option.bind_some, readRemoteExportedAt, Option.bind_some, hvalue,
            Option.bind_some]
        simp only [Option.getD_none, Bool.not_false, Bool.true_and]
        -- the guard: an answer that asks, or an import
        by_cases hnewer : isLocalNewer env.toTimeTexts
            (getLocalConfigUpdatedAt env.toTimeTexts timeKnown inst)
            (readExportedAtFromJson parsed) = true
        · rw [if_pos hnewer]
          obtain ⟨hknown, time, hparsed, hlt⟩ := isLocalNewer_iff.1 hnewer
          exact .inr (.inl ⟨_, rfl, rfl, hknown, time, htime.trans hparsed, hlt⟩)
        · rw [if_neg hnewer, importPulled]
          have hnotNewer : timeKnown = true → ∀ time,
              exportTime env.toTimeTexts branch = some time → inst.savedAt ≤ time := by
            intro hknown time hsome
            by_contra hlt
            exact hnewer (isLocalNewer_iff.2 ⟨hknown, time, htime.symm.trans hsome, by omega⟩)
          rcases importGroupsPayload env.toRestartEnv parsed inst.store with
            ⟨message | saved, store⟩
          · exact .inl ⟨message, rfl⟩
          · exact .inr (.inr ⟨_, store, rfl, rfl, hnotNewer, file, hbranch⟩)
  · rw [if_neg hgit]
    exact .inl ⟨_, rfl⟩

theorem editRules_cases (nextConfig : ProxyConfig) :
    (∃ message, editRules env now nextConfig inst = (.error message, inst)) ∨
      ∃ saved store, editRules env now nextConfig inst = (.ok saved, ⟨store, now⟩) := by
  unfold editRules
  rcases inst.store.saveConfig env.normalize nextConfig with ⟨message | saved, store⟩
  · exact .inl ⟨message, rfl⟩
  · exact .inr ⟨saved, store, rfl⟩

end Calls

/-! ### What an operation can do -/

def SyncAnswer.needsConfirmation : SyncAnswer → Bool
  | .uploaded (.ok result) => result.needsConfirmation
  | .pulled (.ok result) => result.needsConfirmation
  | _ => false

/-- Whether an answer is an error. -/
def SyncAnswer.failed : SyncAnswer → Bool
  | .edited (.error _) | .uploaded (.error _) | .pulled (.error _) => true
  | _ => false

/-- The outcomes of an operation: an error, a question because the other side is newer, an edit, an
upload that the tables are not older for, and a pull that they are not newer for. -/
inductive SyncOp.Outcome (env : SyncEnv) (now : ℕ) (inst : Installation) (branch : RemoteBranch) :
    SyncOp → SyncAnswer × Installation × RemoteBranch → Prop where
  | failed {op : SyncOp} {answer : SyncAnswer} (hfailed : answer.failed = true) :
    Outcome env now inst branch op (answer, inst, branch)
  | uploadAsked {result : RemoteRulesUploadResult} {time : ℕ}
    (hasked : result.needsConfirmation = true)
    (htime : exportTime env.toTimeTexts branch = some time) (hlt : inst.savedAt < time) :
    Outcome env now inst branch (.upload true) (.uploaded (.ok result), inst, branch)
  | pullAsked {result : RemoteRulesPullResult} {time : ℕ}
    (hasked : result.needsConfirmation = true)
    (htime : exportTime env.toTimeTexts branch = some time) (hlt : time < inst.savedAt) :
    Outcome env now inst branch (.pull true) (.pulled (.ok result), inst, branch)
  | edited (nextConfig saved : ProxyConfig) (store : ConfigStore) :
    Outcome env now inst branch (.edit nextConfig) (.edited (.ok saved), ⟨store, now⟩, branch)
  | uploaded {timeKnown : Bool} {result : RemoteRulesUploadResult} {branch' : RemoteBranch}
    (hasked : result.needsConfirmation = false)
    (hle : timeKnown = true → ∀ time, exportTime env.toTimeTexts branch = some time →
      time ≤ inst.savedAt)
    (hbranch : result.changed = true ∧
        branch' = some (some (rulesFile env now inst.store.config)) ∨
      result.changed = false ∧ branch' = branch ∧ ∃ old, branch = some (some old) ∧
        old.text = (rulesFile env now inst.store.config).text) :
    Outcome env now inst branch (.upload timeKnown) (.uploaded (.ok result), inst, branch')
  | pulled {timeKnown : Bool} {result : RemoteRulesPullResult} (store : ConfigStore)
    {file : RulesFile} (hasked : result.needsConfirmation = false)
    (hle : timeKnown = true → ∀ time, exportTime env.toTimeTexts branch = some time →
      inst.savedAt ≤ time)
    (hfile : branch = some (some file)) :
    Outcome env now inst branch (.pull timeKnown) (.pulled (.ok result), ⟨store, now⟩, branch)

/-- **An operation has one of the outcomes.** -/
theorem SyncOp.perform_outcome (env : SyncEnv) (now : ℕ) (inst : Installation)
    (branch : RemoteBranch) (op : SyncOp) :
    op.Outcome env now inst branch (op.perform env now inst branch) := by
  cases op with
  | edit nextConfig =>
    rw [SyncOp.perform]
    rcases @editRules_cases env now inst nextConfig with ⟨message, h⟩ | ⟨saved, store, h⟩
    · rw [h]
      exact .failed rfl
    · rw [h]
      exact .edited nextConfig saved store
  | upload timeKnown =>
    rw [SyncOp.perform]
    rcases @uploadWithDir_cases env now timeKnown inst branch with
      ⟨message, h⟩ | ⟨result, h, hasked, rfl, time, htime, hlt⟩ |
        ⟨result, branch', h, hasked, hle, hbranch⟩
    · rw [h]
      exact .failed rfl
    · rw [h]
      exact .uploadAsked hasked htime hlt
    · rw [h]
      exact .uploaded hasked hle hbranch
  | pull timeKnown =>
    rw [SyncOp.perform]
    rcases @pullWithDir_cases env now timeKnown inst branch with
      ⟨message, h⟩ | ⟨result, h, hasked, rfl, time, htime, hlt⟩ |
        ⟨result, store, h, hasked, hle, file, hfile⟩
    · rw [h]
      exact .failed rfl
    · rw [h]
      exact .pullAsked hasked htime hlt
    · rw [h]
      exact .pulled store hasked hle hfile

/-! ### A sample environment -/

def sampleTime (time : ℕ) : String := "1970-01-01T00:00:0" ++ toString time ++ "+00:00"

/-- The texts of the first ten seconds, and others for later times. -/
def TimeTexts.plain : TimeTexts where
  toRfc3339 time :=
    if time < 10 then sampleTime time else String.ofList (List.replicate time '0')
  parseTs text :=
    if text.toList.head? = some '1' then
      (List.range 10).find? fun time => sampleTime time = text
    else some text.toList.length
  parseTs_toRfc3339 time := by
    by_cases hlow : time < 10
    · rw [if_pos hlow]
      interval_cases time <;> rfl
    · rw [if_neg hlow, String.toList_ofList, List.length_replicate, if_neg]
      rw [List.head?_replicate, if_neg (by omega)]
      decide

/-- An environment that prints without spaces, and knows one repository. -/
def SyncEnv.plain : SyncEnv :=
  { SaveEnv.plain with
    toTimeTexts := TimeTexts.plain
    parseUrl := fun url =>
      if url = "https://example.com/rules.git" then some ⟨"https", some "example.com"⟩ else none
    hasRemoteGitBinary := true
    toStringPretty := Json.text }

def ProxyConfig.withRemote (config : ProxyConfig) : ProxyConfig :=
  { config with
    remoteGit := { enabled := true, repoUrl := "https://example.com/rules.git", token := "tok"
                   branch := "main" } }

/-- An installation without rules, whose tables were written at the time zero. -/
def Installation.plain : Installation where
  store := { emptyStore with config := defaultConfig.withRemote }
  savedAt := 0

end AiOpenRouter
