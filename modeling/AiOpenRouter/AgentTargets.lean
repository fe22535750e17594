/-
The targets that the integration service lists, and what its calls make of the store
(`integration_service.rs`).

Each kind has a default target, which is listed in front of the stored ones unless one
of these has its id, or its directory.

* `listed_apart_of_run`: two targets of the list never have one id, and never one
  directory of a kind, whatever calls of the service have run.
-/
import AiOpenRouter.AgentFiles
import AiOpenRouter.IntegrationStore
import Mathlib.Data.List.Pairwise

namespace AiOpenRouter

namespace TargetService

open IntegrationStore

/-! ### The list -/

/-- What the service finds of the home directory: for a kind, the directory that
`preferred_client_config_dir_with_root_paths` prefers in it, if there is a home directory. -/
structure HomeView where
  preferredDir : Option (IntegrationClientKind → String)
  now : String

/-- `integration_kind_slug` -/
def integrationKindSlug : IntegrationClientKind → String
  | .claude => "claude"
  | .codex => "codex"
  | .openclaw => "openclaw"
  | .opencode => "opencode"

/-- `headless_default_id` -/
def headlessDefaultId (kind : IntegrationClientKind) : String :=
  "default:" ++ integrationKindSlug kind

/-- `build_default_target` -/
def buildDefaultTarget (now : String) (kind : IntegrationClientKind) (configDir : String) :
    StoredTarget where
  id := headlessDefaultId kind
  kind := kind
  configDir := configDir
  config := none
  updatedAt := now
  groupId := none
  createdAt := now

/-- `list_default_targets_with_home` -/
def listDefaultTargetsWithHome (now : String) (preferredDir : IntegrationClientKind → String) :
    List StoredTarget :=
  [.claude, .codex, .openclaw, .opencode].map fun kind =>
    buildDefaultTarget now kind (preferredDir kind)

/-- `target_kind_dir_key` -/
def targetKindDirKey (target : StoredTarget) : String :=
  integrationKindSlug target.kind ++ "|" ++ trimmed target.configDir

/-- `merge_default_and_saved_targets` -/
def mergeDefaultAndSavedTargets (defaults saved : List StoredTarget) : List StoredTarget :=
  (defaults.filter fun target => decide (target.id ∉ saved.map (·.id)) &&
    decide (targetKindDirKey target ∉ saved.map targetKindDirKey)) ++ saved

/-- `list_targets` -/
def listTargets (view : HomeView) (targets : List StoredTarget) : List StoredTarget :=
  let saved := list targets
  match view.preferredDir with
  | none => saved
  | some preferredDir =>
    mergeDefaultAndSavedTargets (listDefaultTargetsWithHome view.now preferredDir) saved

theorem headlessDefaultId_injective : Function.Injective headlessDefaultId := by
  intro kind kind' h
  cases kind <;> cases kind' <;> first | rfl | exact absurd h (by decide)

theorem allApart_defaults (now : String) (preferredDir : IntegrationClientKind → String) :
    AllApart (listDefaultTargetsWithHome now preferredDir) := by
  have hkinds : [IntegrationClientKind.claude, .codex, .openclaw, .opencode].Nodup := by decide
  rw [AllApart, listDefaultTargetsWithHome, List.pairwise_map]
  exact hkinds.imp fun hne =>
    ⟨fun hid => hne (headlessDefaultId_injective hid), fun hsame => hne hsame.1⟩

theorem allApart_listTargets {targets : List StoredTarget} (hstored : AllApart targets)
    (view : HomeView) : AllApart (listTargets view targets) := by
  have h : AllApart (list targets) := allApart_list_iff.2 hstored
  unfold listTargets
  dsimp only
  split
  · exact h
  · refine List.pairwise_append.2 ⟨(allApart_defaults ..).filter _, h, ?_⟩
    intro target hdefault stored hstored
    obtain ⟨-, hfree⟩ := List.mem_filter.1 hdefault
    rw [Bool.and_eq_true, decide_eq_true_eq, decide_eq_true_eq] at hfree
    refine ⟨fun hid => hfree.1 (hid ▸ List.mem_map_of_mem hstored), fun ⟨hkind, hdir⟩ => ?_⟩
    have hkey : targetKindDirKey target = targetKindDirKey stored := by
      rw [targetKindDirKey, hkind, hdir, targetKindDirKey]
    exact hfree.2 (hkey ▸ List.mem_map_of_mem hstored)

/-! ### The calls -/

/-- `AppError`, displayed. -/
def errorText : AppError → String
  | .validation message | .notFound message | .external message | .internal message => message

/-- `IntegrationWriteItem` -/
structure IntegrationWriteItem where
  targetId : String
  kind : Option IntegrationClientKind
  configDir : String
  filePath : Option String
  ok : Bool
  message : Option String

/-- `IntegrationWriteResult`, without the numbers of the items that are `ok` and that are not. -/
structure IntegrationWriteResult where
  ok : Bool
  groupId : String
  entryUrl : String
  items : List IntegrationWriteItem

/-- What a call of the service meets: the home directory, the moments of the store (for a group
entry one for each target that is put, and one for each that is bound), the groups with their URLs,
and how the files of the agents are written. -/
structure ServiceMoment where
  view : HomeView
  store : StoreMoment
  putAt : String → StoreMoment
  bindAt : String → StoreMoment
  isWslPath : String → Bool
  isThere : String → Bool
  groups : List String
  entryUrl : String → String
  writeTargetEntry : StoredTarget → String → Except AppError String
  writeAgentConfig : IntegrationTarget → AgentConfig → Except AppError String
  writeAgentConfigSource :
    IntegrationTarget → String → Option String → Except AppError (String × Option AgentConfig)

inductive ServiceAnswer where
  | store (answer : StoreAnswer)
  | written (filePath : String)
  | entry (result : IntegrationWriteResult)

abbrev TargetStore := IntegrationStore.StoreState

section

variable (moment : ServiceMoment) (s : TargetStore)

/-- The answer of the store, whose errors are `AppError::validation`. -/
def answered (result : Except String StoreAnswer × TargetStore) :
    Except AppError ServiceAnswer × TargetStore :=
  ((result.1.mapError .validation).map .store, result.2)

def withTarget (targetId : String)
    (next : IntegrationTarget → Except AppError ServiceAnswer × TargetStore) :
    Except AppError ServiceAnswer × TargetStore :=
  match resolveTargetById ((listTargets moment.view s.targets).map (·.toIntegrationTarget))
    targetId with
  | .ok target => next target
  | .error e => (.error e, s)

/-- `add_target` -/
def addTarget (kind : IntegrationClientKind) (configDir : String) :
    Except AppError ServiceAnswer × TargetStore :=
  if hasDir (listTargets moment.view s.targets) kind (trimmed configDir) then
    (.error (.validation sameDir), s)
  else answered ((StoreOp.addTarget kind configDir).run moment.store s)

/-- `update_target` -/
def updateTarget (targetId configDir : String) : Except AppError ServiceAnswer × TargetStore :=
  withTarget moment s targetId fun target =>
    answered ((StoreOp.putTarget targetId target.kind configDir target.config).run moment.store s)

def writeAgent (targetId : String)
    (write : IntegrationTarget → Except AppError (String × Option AgentConfig)) :
    Except AppError ServiceAnswer × TargetStore :=
  withTarget moment s targetId fun target =>
    match write target with
    | .ok (filePath, config) => (.ok (.written filePath),
        ((StoreOp.putTarget targetId target.kind target.configDir config).run moment.store s).2)
    | .error e => (.error e, s)

/-- `write_agent_config` -/
def writeAgentConfig (targetId : String) (config : AgentConfig) :
    Except AppError ServiceAnswer × TargetStore :=
  writeAgent moment s targetId fun target =>
    (moment.writeAgentConfig target config).map fun filePath => (filePath, some config)

/-- `write_agent_config_source` -/
def writeAgentConfigSource (targetId content : String) (sourceId : Option String) :
    Except AppError ServiceAnswer × TargetStore :=
  writeAgent moment s targetId fun target => moment.writeAgentConfigSource target content sourceId

/-- A turn of the loop of `write_group_entry_with_targets_and_base_url`. -/
def writeEntryItem (groupId : String) (targets : List StoredTarget) (id : String) :
    IntegrationWriteItem × TargetStore :=
  match (HashMap.ofEntries (targets.map fun target => (target.id, target))).get id with
  | none => (⟨id, none, "", none, false, some "integration target not found"⟩, s)
  | some target =>
    let item := fun filePath message =>
      (⟨target.id, some target.kind, target.configDir, filePath, Option.isNone message, message⟩ :
        IntegrationWriteItem)
    if "default".toList.isPrefixOf target.id.toList &&
        !moment.isWslPath (trimmed target.configDir) &&
        !moment.isThere (trimmed target.configDir) then
      (item none
        (some "config directory not found. Please confirm the installation path."), s)
    else
      match moment.writeTargetEntry target (moment.entryUrl groupId) with
      | .error e => (item none (some (errorText e)), s)
      | .ok filePath =>
        let unsaved := fun e => item (some filePath)
          (some ("entry written but target binding was not saved: " ++ e))
        let put := (StoreOp.putTarget target.id target.kind target.configDir target.config).run
          (moment.putAt id) s
        match put.1 with
        | .error e => (unsaved e, put.2)
        | .ok _ =>
          let bound := (StoreOp.setTargetGroupId target.id (some groupId)).run
            (moment.bindAt id) put.2
          match bound.1 with
          | .error e => (unsaved e, bound.2)
          | .ok _ => (item (some filePath) none, bound.2)

end

def writeEntryItems (moment : ServiceMoment) (groupId : String) (targets : List StoredTarget) :
    List String → List String → TargetStore → List IntegrationWriteItem × TargetStore
  | [], _, s => ([], s)
  | raw :: ids, seen, s =>
    if trimmed raw = "" ∨ trimmed raw ∈ seen then writeEntryItems moment groupId targets ids seen s
    else
      let first := writeEntryItem moment s groupId targets (trimmed raw)
      let rest := writeEntryItems moment groupId targets ids (trimmed raw :: seen) first.2
      (first.1 :: rest.1, rest.2)

/-- `write_group_entry` -/
def writeGroupEntry (moment : ServiceMoment) (s : TargetStore) (groupId : String)
    (targetIds : List String) : Except AppError IntegrationWriteResult × TargetStore :=
  if trimmed groupId = "" then (.error (.validation "group id is required"), s)
  else if targetIds = [] then (.error (.validation "at least one target is required"), s)
  else if trimmed groupId ∉ moment.groups then
    (.error (.notFound ("group not found: " ++ trimmed groupId)), s)
  else
    let written := writeEntryItems moment (trimmed groupId) (listTargets moment.view s.targets)
      targetIds [] s
    if written.1.isEmpty then (.error (.validation "no valid targets selected"), written.2)
    else
      (.ok ⟨written.1.all (·.ok), trimmed groupId, moment.entryUrl (trimmed groupId), written.1⟩,
        written.2)

/-- A call of the service. -/
inductive ServiceCall where
  | addTarget (kind : IntegrationClientKind) (configDir : String)
  | updateTarget (targetId configDir : String)
  | removeTarget (targetId : String)
  | writeGroupEntry (groupId : String) (targetIds : List String)
  | writeAgentConfig (targetId : String) (config : AgentConfig)
  | writeAgentConfigSource (targetId content : String) (sourceId : Option String)

/-- What a call answers, and the store behind it. -/
def ServiceCall.perform (moment : ServiceMoment) (s : TargetStore) :
    ServiceCall → Except AppError ServiceAnswer × TargetStore
  | .addTarget kind configDir => TargetService.addTarget moment s kind configDir
  | .updateTarget targetId configDir => TargetService.updateTarget moment s targetId configDir
  | .removeTarget targetId => answered ((StoreOp.removeTarget targetId).run moment.store s)
  | .writeGroupEntry groupId targetIds =>
    let result := TargetService.writeGroupEntry moment s groupId targetIds
    (result.1.map .entry, result.2)
  | .writeAgentConfig targetId config => TargetService.writeAgentConfig moment s targetId config
  | .writeAgentConfigSource targetId content sourceId =>
    TargetService.writeAgentConfigSource moment s targetId content sourceId

/-- A call changes the store, whatever it answers. -/
def step (s : TargetStore) (call : ServiceMoment × ServiceCall) : Option TargetStore :=
  some (call.2.perform call.1 s).2

/-! ### What a store operation keeps -/

section

variable {moment : StoreMoment} {s : TargetStore} {target : StoredTarget} {id : String}

theorem apart_run {op : StoreOp} {result : Except String StoreAnswer × TargetStore}
    (h : AllApart s.targets) (hrun : op.run moment s = result) (hfresh : FreshId s (moment, op))
    (hfree : GivesFreeDir s (moment, op)) : AllApart result.2.targets :=
  hrun ▸ (step_apart_iff h hfresh).2 hfree _ rfl

theorem apart_put {kind : IntegrationClientKind} {dir : String} {config : Option AgentConfig}
    {result : Except String StoreAnswer × TargetStore} (h : AllApart s.targets)
    (hrun : (StoreOp.putTarget id kind dir config).run moment s = result) :
    AllApart result.2.targets :=
  apart_run h hrun trivial trivial

/-- **A turn of the loop keeps the targets apart.** -/
theorem apart_writeEntryItem {moment : ServiceMoment} (h : AllApart s.targets) (groupId : String)
    (targets : List StoredTarget) :
    AllApart (writeEntryItem moment s groupId targets id).2.targets := by
  unfold writeEntryItem
  cases (HashMap.ofEntries (targets.map fun target => (target.id, target))).get id with
  | none => exact h
  | some target =>
    dsimp only
    split_ifs
    · exact h
    · cases moment.writeTargetEntry target (moment.entryUrl groupId) with
      | error e => exact h
      | ok filePath =>
        dsimp only
        rcases hput : (StoreOp.putTarget target.id target.kind target.configDir target.config).run
          (moment.putAt id) s with ⟨_ | answer, s'⟩
        · exact apart_put h hput
        · dsimp only
          rcases hset : (StoreOp.setTargetGroupId target.id (some groupId)).run (moment.bindAt id)
            s' with ⟨_ | answer, s''⟩ <;>
          exact apart_run (apart_put h hput) hset trivial trivial

theorem apart_writeEntryItems {moment : ServiceMoment} (groupId : String)
    (targets : List StoredTarget) (ids seen : List String) (h : AllApart s.targets) :
    AllApart (writeEntryItems moment groupId targets ids seen s).2.targets := by
  induction ids generalizing seen s with
  | nil => exact h
  | cons raw ids ih =>
    rw [writeEntryItems]
    split_ifs
    · exact ih seen h
    · exact ih _ (apart_writeEntryItem h groupId targets)

theorem apart_writeGroupEntry {moment : ServiceMoment} {groupId : String} {targetIds : List String}
    (h : AllApart s.targets) :
    AllApart (writeGroupEntry moment s groupId targetIds).2.targets := by
  unfold writeGroupEntry
  split_ifs
  · exact h
  · exact h
  · dsimp only
    split_ifs <;> exact apart_writeEntryItems _ _ targetIds [] h
  · exact h

end

/-! ### Runs -/

section

variable {s : TargetStore}

/-- The id that `add_target` makes is new. -/
def FreshTarget (s : TargetStore) (call : ServiceMoment × ServiceCall) : Prop :=
  match call.2 with
  | .addTarget _ _ => ∀ item ∈ s.targets, item.id ≠ call.1.store.uuid
  | _ => True

theorem apart_withTarget {moment : ServiceMoment} {targetId : String}
    {next : IntegrationTarget → Except AppError ServiceAnswer × TargetStore}
    (h : AllApart s.targets) (hnext : ∀ target, AllApart (next target).2.targets) :
    AllApart (withTarget moment s targetId next).2.targets := by
  unfold withTarget
  split
  · exact hnext _
  · exact h

theorem apart_writeAgent {moment : ServiceMoment} {targetId : String}
    {write : IntegrationTarget → Except AppError (String × Option AgentConfig)}
    (h : AllApart s.targets) : AllApart (writeAgent moment s targetId write).2.targets := by
  unfold writeAgent
  refine apart_withTarget h fun target => ?_
  cases write target with
  | error e => exact h
  | ok written =>
    dsimp only
    exact apart_put h rfl

theorem apart_perform {moment : ServiceMoment} {call : ServiceCall} (h : AllApart s.targets)
    (hfresh : FreshTarget s (moment, call)) : AllApart (call.perform moment s).2.targets := by
  cases call with
  | addTarget kind configDir =>
    rw [ServiceCall.perform, TargetService.addTarget]
    split_ifs
    · exact h
    · dsimp only [answered]
      exact apart_run h rfl hfresh trivial
  | updateTarget targetId configDir =>
    rw [ServiceCall.perform, TargetService.updateTarget]
    refine apart_withTarget h fun target => ?_
    dsimp only [answered]
    exact apart_put h rfl
  | removeTarget targetId =>
    dsimp only [ServiceCall.perform, answered]
    exact apart_run h rfl trivial trivial
  | writeGroupEntry groupId targetIds =>
    dsimp only [ServiceCall.perform]
    exact apart_writeGroupEntry h
  | writeAgentConfig targetId config =>
    rw [ServiceCall.perform, TargetService.writeAgentConfig]
    exact apart_writeAgent h
  | writeAgentConfigSource targetId content sourceId =>
    rw [ServiceCall.perform, TargetService.writeAgentConfigSource]
    exact apart_writeAgent h

/-- **No call of the service makes two listed targets meet**: whatever has run, and whatever the
home directory holds, the ids of the list are distinct, and so are the directories of a kind. -/
theorem listed_apart_of_run {calls : List (ServiceMoment × ServiceCall)} (h : AllApart s.targets)
    (hfresh : Machine.EachStep step FreshTarget s calls) :
    Machine.Along step (fun s => ∀ view, AllApart (listTargets view s.targets)) s calls := by
  refine Machine.Along.of_invariant (fun s call s' hlisted hnew hstep view => ?_)
    (allApart_listTargets h) hfresh
  -- without a home directory the list is the stored targets
  have hstored : AllApart s.targets := allApart_list_iff.1 (hlisted ⟨none, ""⟩)
  cases hstep
  exact allApart_listTargets (apart_perform hstored hnew) view

/-- A moment at which every directory is there and every file can be written. -/
def openService : ServiceMoment where
  view := ⟨some fun kind => "/home/me/." ++ integrationKindSlug kind, "2026-01-01T00:00:00+00:00"⟩
  store := openMoment "1" none
  putAt := fun _ => openMoment "" none
  bindAt := fun _ => openMoment "" none
  isWslPath := fun _ => false
  isThere := fun _ => true
  groups := ["team"]
  entryUrl := fun groupId => "http://127.0.0.1:8899/oc/" ++ groupId
  writeTargetEntry := fun target _ => .ok target.configDir
  writeAgentConfig := fun target _ => .ok target.configDir
  writeAgentConfigSource := fun target _ _ => .ok (target.configDir, none)

theorem listed_apart_addAndWrite :
    Machine.Along step (fun s => ∀ view, AllApart (listTargets view s.targets)) ⟨[], none⟩
      [(openService, .addTarget .claude "/a"),
        (openService, .writeGroupEntry "team" ["1", "default:codex"])] :=
  listed_apart_of_run List.Pairwise.nil
    ⟨fun _ hmem => (nomatch hmem), fun _ _ => ⟨trivial, fun _ _ => trivial⟩⟩

end

end TargetService

end AiOpenRouter
