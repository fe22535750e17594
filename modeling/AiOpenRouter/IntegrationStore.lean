/-
The store of the integration targets, in memory and in its file.

Each operation checks its arguments, changes the list that is held and writes it.  Two
checks are missing: one operation may give a target the directory of another one, and
a list that could not be written is held all the same.

* `apart_of_run`: the targets stay apart just as long as no such directory is given;
* `keeps_of_run`: what fails changes nothing, and memory and file hold the same list,
  just as long as the file can be written.
-/
import AiOpenRouter.AgentConfigs
import AiOpenRouter.Machines
import Mathlib.Data.List.Nodup
import Mathlib.Data.List.Sort

namespace AiOpenRouter

/-- `IntegrationTarget`, with its group and its creation. -/
structure StoredTarget extends IntegrationTarget where
  groupId : Option String
  createdAt : String

/-- What the file of the store holds: blanks, a text that does not parse, or the print of a list. -/
inductive StoreText where
  | blank
  | invalid (error : String)
  | printed (targets : List StoredTarget)

/-- The circumstances of a call: what the file system and the paths of WSL say, the clock, the next
id, and how the write of the file goes (a fault is a message and what the file holds then). -/
structure StoreMoment where
  windowsPath : String → Option String
  wslExists : String → Except String Bool
  wslIsDir : String → Except String Bool
  pathExists : String → Bool
  isDir : String → Bool
  canonicalize : String → Option String
  now : String
  uuid : String
  fault : Option (String × Option StoreText)

namespace IntegrationStore

open Machine

/-- `normalize_config_dir` -/
def normalizeConfigDir (moment : StoreMoment) (raw : String) : Except String String :=
  let path := trimmed raw
  if path = "" then .error "config directory is required"
  else
    match moment.windowsPath path with
    | some normalized => do
      let isThere ← (moment.wslExists normalized).mapError
        ("check WSL config directory failed: " ++ ·)
      if !isThere then throw ("config directory does not exist: " ++ path)
      let isFolder ← (moment.wslIsDir normalized).mapError
        ("check WSL config directory failed: " ++ ·)
      if !isFolder then throw ("config directory is not a folder: " ++ path)
      return normalized
    | none =>
      if !moment.pathExists path then .error ("config directory does not exist: " ++ path)
      else if !moment.isDir path then .error ("config directory is not a folder: " ++ path)
      else .ok ((moment.canonicalize path).getD path)

/-! ### The operations -/

inductive StoreAnswer where
  | target (target : StoredTarget)
  | removed (changed : Bool)

/-- The list that an operation holds from now on, and whether it is written. -/
structure Change where
  answer : StoreAnswer
  targets : List StoredTarget
  persists : Bool := true

/-- `target_id.trim()`, which must not be empty. -/
def requiredId (targetId : String) : Except String String :=
  if trimmed targetId = "" then .error "target id is required" else .ok (trimmed targetId)

/-- The first target of an id, with what stands before and behind it. -/
structure Located where
  before : List StoredTarget
  target : StoredTarget
  behind : List StoredTarget

/-- `iter().position(|item| item.id == normalized_id)` -/
def position (id : String) : List StoredTarget → Option Located
  | [] => none
  | item :: targets =>
    if item.id = id then some ⟨[], item, targets⟩
    else (position id targets).map fun located => { located with before := item :: located.before }

def locate (targets : List StoredTarget) (targetId : String) : Except String Located := do
  let id ← requiredId targetId
  match position id targets with
  | some located => .ok located
  | none => .error "integration target not found"

def Located.others (located : Located) : List StoredTarget := located.before ++ located.behind

def Located.replace (located : Located) (target : StoredTarget) : List StoredTarget :=
  located.before ++ target :: located.behind

def Located.change (located : Located) (target : StoredTarget) : Change :=
  ⟨.target target, located.replace target, true⟩

def hasDir (targets : List StoredTarget) (kind : IntegrationClientKind) (configDir : String) :
    Bool :=
  targets.any fun item => item.kind = kind && item.configDir = configDir

def sameDir : String := "same config directory already exists"

/-- `add_target` -/
def addTarget (moment : StoreMoment) (kind : IntegrationClientKind) (configDir : String)
    (targets : List StoredTarget) : Except String Change := do
  let dir ← normalizeConfigDir moment configDir
  if hasDir targets kind dir then .error sameDir
  else
    let target : StoredTarget :=
      { id := moment.uuid
        kind := kind
        configDir := dir
        config := none
        updatedAt := moment.now
        groupId := none
        createdAt := moment.now }
    .ok ⟨.target target, targets ++ [target], true⟩

/-- `update_target` -/
def updateTarget (moment : StoreMoment) (targetId configDir : String)
    (targets : List StoredTarget) : Except String Change := do
  let dir ← normalizeConfigDir moment configDir
  let located ← locate targets targetId
  if hasDir located.others located.target.kind dir then .error sameDir
  else .ok (located.change { located.target with configDir := dir, updatedAt := moment.now })

/-- `set_target_group_id` -/
def setTargetGroupId (moment : StoreMoment) (targetId : String) (groupId : Option String)
    (targets : List StoredTarget) : Except String Change := do
  let located ← locate targets targetId
  .ok (located.change
    { located.target with groupId := nonBlank groupId, updatedAt := moment.now })

/-- The directory that `update_target_config` gives to a target. -/
def configuredDir (moment : StoreMoment) (configDir : String) (target : StoredTarget) :
    Except String String :=
  if configDir = "" then .ok target.configDir else normalizeConfigDir moment configDir

/-- `update_target_config` -/
def updateTargetConfig (moment : StoreMoment) (targetId configDir : String)
    (config : Option AgentConfig) (targets : List StoredTarget) : Except String Change := do
  let located ← locate targets targetId
  -- nobody asks whether another target has this directory
  let dir ← configuredDir moment configDir located.target
  .ok (located.change
    { located.target with
      configDir := dir
      config := config.or located.target.config
      updatedAt := moment.now })

/-- `put_target` -/
def putTarget (moment : StoreMoment) (targetId : String) (kind : IntegrationClientKind)
    (configDir : String) (config : Option AgentConfig) (targets : List StoredTarget) :
    Except String Change := do
  let id ← requiredId targetId
  let dir ← normalizeConfigDir moment configDir
  match position id targets with
  | some located =>
    if hasDir located.others kind dir then .error sameDir
    else
      .ok (located.change
        { located.target with
          kind := kind
          configDir := dir
          config := config.or located.target.config
          updatedAt := moment.now })
  | none =>
    if hasDir targets kind dir then .error sameDir
    else
      let target : StoredTarget :=
        { id := id
          kind := kind
          configDir := dir
          config := config
          updatedAt := moment.now
          groupId := none
          createdAt := moment.now }
      .ok ⟨.target target, targets ++ [target], true⟩

/-- `remove_target` -/
def removeTarget (targetId : String) (targets : List StoredTarget) : Except String Change := do
  let id ← requiredId targetId
  let rest := targets.filter (·.id ≠ id)
  let changed := decide (rest.length ≠ targets.length)
  .ok ⟨.removed changed, rest, changed⟩

def ListedBefore (left right : StoredTarget) : Prop :=
  left.createdAt < right.createdAt ∨ left.createdAt = right.createdAt ∧ left.id ≤ right.id

instance : DecidableRel ListedBefore := fun _ _ => inferInstanceAs (Decidable (_ ∨ _ ∧ _))

/-- `list` -/
def list (targets : List StoredTarget) : List StoredTarget := targets.insertionSort ListedBefore

/-- An operation on the store. -/
inductive StoreOp where
  | addTarget (kind : IntegrationClientKind) (configDir : String)
  | updateTarget (targetId configDir : String)
  | setTargetGroupId (targetId : String) (groupId : Option String)
  | updateTargetConfig (targetId configDir : String) (config : Option AgentConfig)
  | putTarget (targetId : String) (kind : IntegrationClientKind) (configDir : String)
    (config : Option AgentConfig)
  | removeTarget (targetId : String)

def StoreOp.change (moment : StoreMoment) (targets : List StoredTarget) :
    StoreOp → Except String Change
  | .addTarget kind configDir => IntegrationStore.addTarget moment kind configDir targets
  | .updateTarget targetId configDir =>
    IntegrationStore.updateTarget moment targetId configDir targets
  | .setTargetGroupId targetId groupId =>
    IntegrationStore.setTargetGroupId moment targetId groupId targets
  | .updateTargetConfig targetId configDir config =>
    IntegrationStore.updateTargetConfig moment targetId configDir config targets
  | .putTarget targetId kind configDir config =>
    IntegrationStore.putTarget moment targetId kind configDir config targets
  | .removeTarget targetId => IntegrationStore.removeTarget targetId targets

/-! ### The store -/

/-- The list that is held, and what the file holds. -/
structure StoreState where
  targets : List StoredTarget
  file : Option StoreText

/-- `persist` -/
def persist (moment : StoreMoment) (targets : List StoredTarget) :
    Except String Unit × Option StoreText :=
  match moment.fault with
  | some (message, left) => (.error ("write integration store failed: " ++ message), left)
  | none => (.ok (), some (.printed targets))

/-- An operation: the list is held before it is written. -/
def StoreOp.run (moment : StoreMoment) (op : StoreOp) (s : StoreState) :
    Except String StoreAnswer × StoreState :=
  match op.change moment s.targets with
  | .error e => (.error e, s)
  | .ok change =>
    if change.persists then
      match persist moment change.targets with
      | (.ok (), file) => (.ok change.answer, ⟨change.targets, file⟩)
      | (.error e, file) => (.error e, ⟨change.targets, file⟩)
    else (.ok change.answer, ⟨change.targets, s.file⟩)

/-- `persist(&[])`, for a store that holds nothing. -/
def persistNothing (moment : StoreMoment) : Except String Unit × StoreState :=
  ((persist moment []).1, ⟨[], (persist moment []).2⟩)

/-- `initialize`, on a store that holds nothing. -/
def initializeStore (moment : StoreMoment) (file : Option StoreText) :
    Except String Unit × StoreState :=
  match file with
  | none => persistNothing moment
  | some .blank => persistNothing moment
  | some (.invalid e) => (.error ("parse integration store failed: " ++ e), ⟨[], file⟩)
  | some (.printed parsed) => (.ok (), ⟨parsed, file⟩)

/-- A call changes the store, whatever it answers. -/
def step (s : StoreState) (call : StoreMoment × StoreOp) : Option StoreState :=
  some (call.2.run call.1 s).2

/-! ### What an operation does to the list -/

variable {targets : List StoredTarget} {s : StoreState} {call : StoreMoment × StoreOp}
  {located : Located} {target : StoredTarget} {moment : StoreMoment}

theorem position_eq_some {id : String} (h : position id targets = some located) :
    targets = located.replace located.target ∧ located.target.id = id := by
  induction targets generalizing located with
  | nil => cases h
  | cons item targets ih =>
    rw [position] at h
    split at h
    case isTrue hid =>
      cases h
      exact ⟨rfl, hid⟩
    case isFalse =>
      obtain ⟨inner, hinner, rfl⟩ := Option.map_eq_some_iff.1 h
      obtain ⟨hlist, hid⟩ := ih hinner
      exact ⟨congrArg (item :: ·) hlist, hid⟩

theorem position_eq_none {id : String} (h : position id targets = none) :
    ∀ item ∈ targets, item.id ≠ id := by
  induction targets with
  | nil =>
    intro item hitem
    cases hitem
  | cons first targets ih =>
    rw [position] at h
    split at h
    case isTrue => cases h
    case isFalse hid =>
      have hrest := ih (Option.map_eq_none_iff.1 h)
      exact List.forall_mem_cons.2 ⟨hid, hrest⟩

theorem locate_eq_ok {targetId : String} (h : locate targets targetId = .ok located) :
    targets = located.replace located.target := by
  obtain ⟨id, -, hid⟩ := bind_eq_ok_iff.1 h
  cases hposition : position id targets with
  | none => simp [hposition] at hid
  | some found =>
    have hfound : found = located := by simpa [hposition] using hid
    exact hfound ▸ (position_eq_some hposition).1

def Apart (a b : StoredTarget) : Prop :=
  a.id ≠ b.id ∧ ¬ (a.kind = b.kind ∧ a.configDir = b.configDir)

instance (a b : StoredTarget) : Decidable (Apart a b) :=
  inferInstanceAs (Decidable (_ ∧ _))

theorem Apart.symm {a b : StoredTarget} (h : Apart a b) : Apart b a :=
  ⟨fun hid => h.1 hid.symm, fun hsame => h.2 ⟨hsame.1.symm, hsame.2.symm⟩⟩

/-- Any two targets of the list are apart. -/
def AllApart (targets : List StoredTarget) : Prop := targets.Pairwise Apart

instance (targets : List StoredTarget) : Decidable (AllApart targets) :=
  inferInstanceAs (Decidable (targets.Pairwise Apart))

theorem hasDir_eq_false_iff {kind : IntegrationClientKind} {configDir : String} :
    hasDir targets kind configDir = false ↔
      ∀ item ∈ targets, ¬ (item.kind = kind ∧ item.configDir = configDir) := by
  simp [hasDir]

theorem allApart_cons_iff (h : AllApart targets) :
    AllApart (target :: targets) ↔
      (∀ item ∈ targets, item.id ≠ target.id) ∧
        hasDir targets target.kind target.configDir = false := by
  rw [AllApart, List.pairwise_cons, hasDir_eq_false_iff]
  constructor
  · rintro ⟨hapart, -⟩
    exact ⟨fun item hitem => (hapart item hitem).symm.1,
      fun item hitem => (hapart item hitem).symm.2⟩
  · rintro ⟨hids, hdirs⟩
    exact ⟨fun item hitem => Apart.symm ⟨hids item hitem, hdirs item hitem⟩, h⟩

theorem allApart_list_iff : AllApart (list targets) ↔ AllApart targets :=
  (List.perm_insertionSort ListedBefore targets).pairwise_iff fun h => h.symm

theorem allApart_replace :
    AllApart (located.replace target) ↔ AllApart (target :: located.others) :=
  List.pairwise_middle fun h => h.symm

theorem allApart_replace_iff (h : AllApart (located.replace located.target))
    (hid : target.id = located.target.id) :
    AllApart (located.replace target) ↔
      hasDir located.others target.kind target.configDir = false := by
  rw [allApart_replace] at h ⊢
  have hothers : AllApart located.others := (List.pairwise_cons.1 h).2
  rw [allApart_cons_iff hothers, hid]
  exact and_iff_right ((allApart_cons_iff hothers).1 h).1

theorem allApart_append (h : AllApart targets) (hid : ∀ item ∈ targets, item.id ≠ target.id)
    (hdir : hasDir targets target.kind target.configDir = false) :
    AllApart (targets ++ [target]) := by
  have hjoined : AllApart (target :: targets) := (allApart_cons_iff h).2 ⟨hid, hdir⟩
  exact (List.pairwise_append_comm fun h => h.symm).1 hjoined

section Changes

variable {moment : StoreMoment} {targets : List StoredTarget} {change : Change}

variable {targetId configDir : String}

theorem addTarget_apart {kind : IntegrationClientKind} (h : AllApart targets)
    (hfresh : ∀ item ∈ targets, item.id ≠ moment.uuid)
    (hchange : addTarget moment kind configDir targets = .ok change) : AllApart change.targets := by
  obtain ⟨dir, -, hadded⟩ := bind_eq_ok_iff.1 hchange
  cases hdir : hasDir targets kind dir with
  | true => simp [hdir] at hadded
  | false =>
    rw [hdir, if_neg Bool.false_ne_true] at hadded
    cases hadded
    exact allApart_append h hfresh hdir

theorem updateTarget_apart (h : AllApart targets)
    (hchange : updateTarget moment targetId configDir targets = .ok change) :
    AllApart change.targets := by
  obtain ⟨dir, -, hmoved⟩ := bind_eq_ok_iff.1 hchange
  obtain ⟨located, hlocated, hmoved⟩ := bind_eq_ok_iff.1 hmoved
  cases hdir : hasDir located.others located.target.kind dir with
  | true => simp [hdir] at hmoved
  | false =>
    rw [hdir, if_neg Bool.false_ne_true] at hmoved
    cases hmoved
    have hheld := locate_eq_ok hlocated ▸ h
    refine (allApart_replace_iff hheld ?_).2 hdir
    rfl

theorem change_apart {located : Located} {target : StoredTarget}
    (h : AllApart (located.replace located.target)) (hid : target.id = located.target.id)
    (hkind : target.kind = located.target.kind)
    (hdir : target.configDir = located.target.configDir) :
    AllApart (located.change target).targets := by
  refine (allApart_replace_iff h hid).2 ?_
  rw [hkind, hdir]
  exact (allApart_replace_iff h rfl).1 h

theorem setTargetGroupId_apart {groupId : Option String} (h : AllApart targets)
    (hchange : setTargetGroupId moment targetId groupId targets = .ok change) :
    AllApart change.targets := by
  obtain ⟨located, hlocated, hbound⟩ := bind_eq_ok_iff.1 hchange
  cases hbound
  exact change_apart (locate_eq_ok hlocated ▸ h) rfl rfl rfl

theorem putTarget_apart {kind : IntegrationClientKind} {config : Option AgentConfig}
    (h : AllApart targets)
    (hchange : putTarget moment targetId kind configDir config targets = .ok change) :
    AllApart change.targets := by
  obtain ⟨id, -, hput⟩ := bind_eq_ok_iff.1 hchange
  obtain ⟨dir, -, hput⟩ := bind_eq_ok_iff.1 hput
  cases hposition : position id targets with
  | none =>
    cases hdir : hasDir targets kind dir with
    | true => simp [hposition, hdir] at hput
    | false =>
      simp only [hposition, hdir, if_neg Bool.false_ne_true] at hput
      cases hput
      exact allApart_append h (position_eq_none hposition) hdir
  | some located =>
    cases hdir : hasDir located.others kind dir with
    | true => simp [hposition, hdir] at hput
    | false =>
      simp only [hposition, hdir, if_neg Bool.false_ne_true] at hput
      cases hput
      have hheld := (position_eq_some hposition).1 ▸ h
      refine (allApart_replace_iff hheld ?_).2 hdir
      rfl

theorem updateTargetConfig_apart_iff {config : Option AgentConfig} (h : AllApart targets) :
    (∀ change, updateTargetConfig moment targetId configDir config targets = .ok change →
      AllApart change.targets) ↔
      ∀ located dir, locate targets targetId = .ok located →
        configuredDir moment configDir located.target = .ok dir →
        hasDir located.others located.target.kind dir = false := by
  constructor
  · intro hkept located dir hlocated hdir
    have hheld := locate_eq_ok hlocated ▸ h
    have happly := hkept _ (bind_eq_ok_iff.2 ⟨located, hlocated,
      bind_eq_ok_iff.2 ⟨dir, hdir, rfl⟩⟩)
    have hdirs := (allApart_replace_iff hheld ?_).1 happly
    · exact hdirs
    · rfl
  · intro hfree change hchange
    obtain ⟨located, hlocated, hchange⟩ := bind_eq_ok_iff.1 hchange
    obtain ⟨dir, hdir, hchange⟩ := bind_eq_ok_iff.1 hchange
    cases hchange
    have hheld := locate_eq_ok hlocated ▸ h
    refine (allApart_replace_iff hheld ?_).2 (hfree located dir hlocated hdir)
    rfl

theorem removeTarget_apart (h : AllApart targets)
    (hchange : removeTarget targetId targets = .ok change) : AllApart change.targets := by
  obtain ⟨id, -, hremoved⟩ := bind_eq_ok_iff.1 hchange
  cases hremoved
  exact h.filter _

end Changes

/-- The id that `add_target` makes is new: no target of the store has it. -/
def FreshId (s : StoreState) (call : StoreMoment × StoreOp) : Prop :=
  match call.2 with
  | .addTarget _ _ => ∀ item ∈ s.targets, item.id ≠ call.1.uuid
  | _ => True

/-- The directory that `update_target_config` gives to a target is not the one of another target of
its kind. -/
def GivesFreeDir (s : StoreState) (call : StoreMoment × StoreOp) : Prop :=
  match call.2 with
  | .updateTargetConfig targetId configDir _ =>
    ∀ located dir, locate s.targets targetId = .ok located →
      configuredDir call.1 configDir located.target = .ok dir →
      hasDir located.others located.target.kind dir = false
  | _ => True

/-- **What an operation makes of targets that are apart.** -/
theorem StoreOp.change_apart_iff (h : AllApart s.targets) (hfresh : FreshId s call) :
    (∀ change, call.2.change call.1 s.targets = .ok change → AllApart change.targets) ↔
      GivesFreeDir s call := by
  obtain ⟨moment, op⟩ := call
  cases op with
  | addTarget kind configDir =>
    exact iff_of_true (fun change hchange => addTarget_apart h hfresh hchange) trivial
  | updateTarget targetId configDir =>
    exact iff_of_true (fun change hchange => updateTarget_apart h hchange) trivial
  | setTargetGroupId targetId groupId =>
    exact iff_of_true (fun change hchange => setTargetGroupId_apart h hchange) trivial
  | updateTargetConfig targetId configDir config => exact updateTargetConfig_apart_iff h
  | putTarget targetId kind configDir config =>
    exact iff_of_true (fun change hchange => putTarget_apart h hchange) trivial
  | removeTarget targetId =>
    exact iff_of_true (fun change hchange => removeTarget_apart h hchange) trivial

theorem StoreOp.run_targets {op : StoreOp} {change : Change}
    (hchange : op.change moment s.targets = .ok change) :
    (op.run moment s).2.targets = change.targets := by
  rw [StoreOp.run, hchange]
  cases hpersists : change.persists with
  | false => simp [hpersists]
  | true =>
    cases hfault : moment.fault with
    | none => simp [hpersists, persist, hfault]
    | some fault => simp [hpersists, persist, hfault]

theorem step_apart_iff (h : AllApart s.targets) (hfresh : FreshId s call) :
    (∀ s', step s call = some s' → AllApart s'.targets) ↔ GivesFreeDir s call := by
  rw [← StoreOp.change_apart_iff h hfresh]
  constructor
  · intro hkept change hchange
    have hnext := hkept _ rfl
    rwa [StoreOp.run_targets hchange] at hnext
  · intro hkept s' hstep
    cases hstep
    cases hchange : call.2.change call.1 s.targets with
    | error e =>
      rw [StoreOp.run, hchange]
      exact h
    | ok change =>
      rw [StoreOp.run_targets hchange]
      exact hkept change hchange

/-- **From an empty store the targets stay apart, in their ids and in their directories, just as
long as `update_target_config` gives no target the directory of another one of its kind.** -/
theorem apart_of_run {file : Option StoreText}
    {calls : List (StoreMoment × StoreOp)}
    (hfresh : EachStep step FreshId ⟨[], file⟩ calls) :
    Along step (fun s => AllApart s.targets) ⟨[], file⟩ calls ↔
      EachStep step GivesFreeDir ⟨[], file⟩ calls :=
  along_iff (fun _ _ => step_apart_iff) List.Pairwise.nil hfresh

/-- A moment at which every directory is there. -/
def openMoment (uuid : String) (fault : Option (String × Option StoreText)) : StoreMoment where
  windowsPath := fun _ => none
  wslExists := fun _ => .ok false
  wslIsDir := fun _ => .ok false
  pathExists := fun _ => true
  isDir := fun _ => true
  canonicalize := fun path => some path
  now := "2026-01-01T00:00:00+00:00"
  uuid := uuid
  fault := fault

/-- A target is added, and another one is put and moved. -/
def twoTargets : List (StoreMoment × StoreOp) :=
  [(openMoment "1" none, .addTarget .claude "/a"),
    (openMoment "2" none, .putTarget "t2" .claude "/b" none),
    (openMoment "3" none, .updateTargetConfig "t2" " /c" none)]

theorem apart_twoTargets :
    Along step (fun s => AllApart s.targets) ⟨[], none⟩ twoTargets := by
  refine (apart_of_run ?_).2 ?_
  · exact .cons rfl (fun _ h => nomatch h) (.cons rfl trivial (.cons rfl trivial trivial))
  · refine .cons rfl trivial (.cons rfl trivial (.cons rfl ?_ trivial))
    intro located dir hlocated hdir
    cases hlocated
    cases hdir
    rfl

/-- The second target is given the directory of the first one. -/
theorem not_apart_sameDir :
    ∃ s, run step ⟨[], none⟩
        [(openMoment "1" none, .putTarget "t1" .claude "/a" none),
          (openMoment "2" none, .putTarget "t2" .claude "/b" none),
          (openMoment "3" none, .updateTargetConfig "t2" "/a" none)] = some s ∧
      ¬ AllApart s.targets :=
  ⟨_, rfl, by decide⟩

/-! ### Operations that fail -/

/-- Memory and file hold the same list. -/
def Synced (s : StoreState) : Prop := s.file = some (.printed s.targets)

/-- What fails changes neither memory nor file. -/
def KeepsOnError (s : StoreState) (call : StoreMoment × StoreOp) : Prop :=
  ∀ e, (call.2.run call.1 s).1 = .error e → (call.2.run call.1 s).2 = s

/-- The write does not fail, unless it would change nothing and leaves the file as it is. -/
def WritesOrKeeps (s : StoreState) (call : StoreMoment × StoreOp) : Prop :=
  ∀ change, call.2.change call.1 s.targets = .ok change → change.persists = true →
    ∀ fault, call.1.fault = some fault → change.targets = s.targets ∧ fault.2 = s.file

/-- **Exactly then a failed operation keeps both copies.** -/
theorem keepsOnError_iff : KeepsOnError s call ↔ WritesOrKeeps s call := by
  rw [KeepsOnError, WritesOrKeeps, StoreOp.run]
  cases hchange : call.2.change call.1 s.targets with
  | error e => exact iff_of_true (fun _ _ => rfl) (fun _ h => nomatch h)
  | ok change =>
    cases hpersists : change.persists with
    | false => simp [hpersists]
    | true =>
      cases hfault : call.1.fault with
      | none => simp [hpersists, persist, hfault]
      | some fault =>
        obtain ⟨message, left⟩ := fault
        have hstate : (⟨change.targets, left⟩ : StoreState) = s ↔
            change.targets = s.targets ∧ left = s.file := by
          cases s
          simp
        simp [hpersists, persist, hfault, hstate]

theorem StoreOp.change_eq_self {op : StoreOp} {change : Change}
    (hchange : op.change moment targets = .ok change) (hpersists : change.persists = false) :
    change.targets = targets := by
  cases op with
  | addTarget kind configDir =>
    obtain ⟨dir, -, hadded⟩ := bind_eq_ok_iff.1 hchange
    split at hadded <;> cases hadded
    cases hpersists
  | updateTarget targetId configDir =>
    obtain ⟨dir, -, hmoved⟩ := bind_eq_ok_iff.1 hchange
    obtain ⟨located, -, hmoved⟩ := bind_eq_ok_iff.1 hmoved
    split at hmoved <;> cases hmoved
    cases hpersists
  | setTargetGroupId targetId groupId =>
    obtain ⟨located, -, hbound⟩ := bind_eq_ok_iff.1 hchange
    cases hbound
    cases hpersists
  | updateTargetConfig targetId configDir config =>
    obtain ⟨located, -, hconfigured⟩ := bind_eq_ok_iff.1 hchange
    obtain ⟨dir, -, hconfigured⟩ := bind_eq_ok_iff.1 hconfigured
    cases hconfigured
    cases hpersists
  | putTarget targetId kind configDir config =>
    obtain ⟨id, -, hput⟩ := bind_eq_ok_iff.1 hchange
    obtain ⟨dir, -, hput⟩ := bind_eq_ok_iff.1 hput
    split at hput <;> split at hput <;> cases hput <;> cases hpersists
  | removeTarget targetId =>
    obtain ⟨id, -, hremoved⟩ := bind_eq_ok_iff.1 hchange
    cases hremoved
    have hlength := of_not_not (of_decide_eq_false hpersists)
    exact List.filter_eq_self.2 (List.length_filter_eq_length_iff.1 hlength)

theorem Synced.step {s' : StoreState} (hsynced : Synced s) (hkeeps : KeepsOnError s call)
    (hstep : step s call = some s') : Synced s' := by
  cases hstep
  cases hresult : (call.2.run call.1 s).1 with
  | error e => rwa [hkeeps e hresult]
  | ok answer =>
    rw [StoreOp.run] at hresult ⊢
    cases hchange : call.2.change call.1 s.targets with
    | error e =>
      rw [hchange] at hresult
      cases hresult
    | ok change =>
      cases hpersists : change.persists with
      | false =>
        have hsame := StoreOp.change_eq_self hchange hpersists
        simpa [hpersists, Synced, hsame] using hsynced
      | true =>
        cases hfault : call.1.fault with
        | none => simp [hpersists, persist, hfault, Synced]
        | some fault => simp [hchange, hpersists, persist, hfault] at hresult

theorem initializeStore_synced {file : Option StoreText}
    (hinit : initializeStore moment file = (.ok (), s)) : Synced s := by
  have hempty : ∀ {s}, persistNothing moment = (.ok (), s) → Synced s := by
    intro s hnothing
    rw [persistNothing] at hnothing
    cases hfault : moment.fault with
    | none =>
      simp only [persist, hfault] at hnothing
      cases hnothing
      rfl
    | some fault => simp [persist, hfault] at hnothing
  cases file with
  | none => exact hempty hinit
  | some text =>
    cases text with
    | blank => exact hempty hinit
    | invalid e => cases hinit
    | printed parsed =>
      cases hinit
      rfl

/-- **From a store that is initialized, what fails changes nothing and memory and file hold the
same list, just as long as the writes go well (or would change nothing and leave the file).** -/
theorem keeps_of_run {moment : StoreMoment} {file : Option StoreText} {s : StoreState}
    {calls : List (StoreMoment × StoreOp)}
    (hinit : initializeStore moment file = (.ok (), s)) :
    EachStep step KeepsOnError s calls ∧ Along step Synced s calls ↔
      EachStep step WritesOrKeeps s calls := by
  constructor
  · rintro ⟨hkeeps, -⟩
    exact hkeeps.imp fun _ _ => keepsOnError_iff.1
  · intro hwrites
    have hkeeps : EachStep step KeepsOnError s calls :=
      hwrites.imp fun _ _ => keepsOnError_iff.2
    exact ⟨hkeeps, Along.of_invariant (fun _ _ _ => Synced.step) (initializeStore_synced hinit)
      hkeeps⟩

/-- The second call finds its directory taken, and changes nothing. -/
theorem keeps_twoTargets :
    EachStep step KeepsOnError ⟨[], some (.printed [])⟩
        [(openMoment "1" none, .addTarget .claude "/a"),
          (openMoment "2" none, .addTarget .claude "/a")] ∧
      Along step Synced ⟨[], some (.printed [])⟩
        [(openMoment "1" none, .addTarget .claude "/a"),
          (openMoment "2" none, .addTarget .claude "/a")] := by
  have hinit : initializeStore (openMoment "0" none) none = (.ok (), ⟨[], some (.printed [])⟩) :=
    rfl
  refine (keeps_of_run hinit).2 ?_
  refine .cons rfl ?_ (.cons rfl ?_ trivial)
  · intro change hchange hpersists fault hfault
    cases hfault
  · intro change hchange hpersists fault hfault
    cases hfault

/-- The disk is full: the target that was refused is held, and the file is cut off. -/
theorem not_keeps_diskFull :
    initializeStore (openMoment "0" none) none = (.ok (), ⟨[], some (.printed [])⟩) ∧
      ¬ (EachStep step KeepsOnError ⟨[], some (.printed [])⟩
          [(openMoment "1" (some ("disk full", some .blank)), .addTarget .claude "/a")] ∧
        Along step Synced ⟨[], some (.printed [])⟩
          [(openMoment "1" (some ("disk full", some .blank)), .addTarget .claude "/a")]) := by
  refine ⟨rfl, fun h => ?_⟩
  have hkept := h.1.1 _ rfl
  cases hkept

end IntegrationStore

end AiOpenRouter
