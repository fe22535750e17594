/-
The copy of the configuration that the renderer keeps (`store/proxyActions.ts`).

A save sends the whole copy back, with an edit; every answer that carries a
configuration replaces the copy, whichever request it is the answer of.

* `UiState.step` sends a request, applies it on the server, or delivers its answer;
* `UiState.InTurn`: no answer is delivered behind that of a request applied later;
* `UiState.follows_of_run`: then the copy is that of the server, once every request
  has been answered.
-/
import AiOpenRouter.HeadlessSaves
import AiOpenRouter.ImportModes
import AiOpenRouter.Machines
import AiOpenRouter.RemoteRules
import AiOpenRouter.UneditedSaves

namespace AiOpenRouter

/-! ### The server -/

/-- A request that may change the configuration. Of the text of an import there is its value, if
it is JSON. -/
inductive UiRequest where
  | saveConfig (nextConfig : Json)
  | importGroupsFromJson (parsed : Option Json)
  | remoteRulesPull (force : Option Bool)

structure Moment where
  env : SyncEnv
  now : ℕ
  timeKnown : Bool
  branch : RemoteBranch

abbrev UiAnswer := Except String (Option ProxyConfig)

/-- The handler of a request; without an application window the port is fixed. -/
def UiRequest.perform (headless : Bool) (moment : Moment) (inst : Installation) :
    UiRequest → UiAnswer × Installation
  | .saveConfig nextConfig =>
    if headless && changesPort inst.store.config nextConfig then
      (.error "Headless mode does not allow changing server port from management UI", inst)
    else
      match inst.store.save moment.env.toRestartEnv nextConfig with
      | (.error message, store) => (.error message, { inst with store := store })
      | (.ok saved, store) => (.ok (some saved), ⟨store, moment.now⟩)
  | .importGroupsFromJson none => (.error "Invalid JSON text", inst)
  | .importGroupsFromJson (some parsed) =>
    match importGroupsWithSource moment.env.toRestartEnv parsed "json" none (some .overwrite)
      inst.store with
    | (.error message, store) => (.error message, { inst with store := store })
    | (.ok result, store) => (.ok (some result.config), ⟨store, moment.now⟩)
  | .remoteRulesPull force =>
    match pullWithDir moment.env moment.now moment.timeKnown force moment.branch inst with
    | (.error message, inst) => (.error message, inst)
    | (.ok result, inst) => (.ok result.config, inst)

/-! ### The renderer -/

/-- `saveConfigAction` with an edited copy, `importGroupsFromJsonAction` and
`remoteRulesPullAction`. -/
inductive UiAction where
  | saveConfig (edit : Json → Json)
  | importGroupsFromJson (parsed : Option Json)
  | remoteRulesPull (force : Option Bool)

/-- What an action sends. -/
def UiAction.request (configState : Json) : UiAction → UiRequest
  | .saveConfig edit =>
    .saveConfig (Renderer.buildSaveConfigPayload (Renderer.normalizeConfig (edit configState)))
  | .importGroupsFromJson parsed => .importGroupsFromJson parsed
  | .remoteRulesPull force => .remoteRulesPull force

/-- The configuration that an answer carries. -/
def UiAnswer.config (answer : UiAnswer) : Option ProxyConfig := answer.toOption.bind id

def receive (configState : Json) : UiAnswer → Json
  | .ok (some config) => Renderer.normalizeConfig config.toJson
  | _ => configState

/-- The copy, the server, and the requests: those that were sent, the answers in the order in which
the requests were applied, and the requests whose answers were delivered. -/
structure UiState where
  configState : Json
  server : Installation
  requests : List UiRequest := []
  answers : List (ℕ × UiAnswer) := []
  delivered : List ℕ := []

inductive UiEvent where
  | act (action : UiAction)
  | apply (i : ℕ) (moment : Moment)
  | deliver (i : ℕ)

namespace UiState

def step (headless : Bool) (s : UiState) : UiEvent → Option UiState
  | .act action => some { s with requests := s.requests ++ [action.request s.configState] }
  | .apply i moment =>
    if i ∈ s.answers.map Prod.fst then none
    else s.requests[i]?.map fun request =>
      let (answer, server) := request.perform headless moment s.server
      { s with server := server, answers := s.answers ++ [(i, answer)] }
  | .deliver i =>
    if i ∈ s.delivered then none
    else (s.answers.lookup i).map fun answer =>
      { s with configState := receive s.configState answer, delivered := s.delivered ++ [i] }

/-- Every request has been answered successfully. -/
def Settled (s : UiState) : Prop :=
  ∀ i < s.requests.length, i ∈ s.delivered ∧ ∃ config, s.answers.lookup i = some (.ok config)

/-- **The copy is that of the server.** -/
def Follows (s : UiState) : Prop :=
  s.configState = Renderer.normalizeConfig s.server.store.config.toJson

def changesOf (answers : List (ℕ × UiAnswer)) : List (ℕ × ProxyConfig) :=
  answers.filterMap fun answer => (UiAnswer.config answer.2).map (Prod.mk answer.1)

def changes (s : UiState) : List (ℕ × ProxyConfig) := changesOf s.answers

/-- A configuration is not delivered behind one that the server had later. -/
def InTurn (s : UiState) : UiEvent → Prop
  | .deliver i => ∀ before config after, s.changes = before ++ (i, config) :: after →
      ∀ change ∈ after, change.1 ∉ s.delivered
  | _ => True

end UiState

/-! ### What the server has -/

theorem config_saveConfig (env : NormalizeEnv) (next : ProxyConfig) (store : ConfigStore) :
    (store.saveConfig env next).2.config =
      (store.saveConfig env next).1.toOption.getD store.config := by
  unfold ConfigStore.saveConfig
  cases acceptConfig env next with
  | error message => rfl
  | ok normalized =>
    dsimp only
    cases store.disk.store normalized <;> rfl

theorem config_save (env : RestartEnv) (next : Json) (store : ConfigStore) :
    (store.save env next).2.config = (store.save env next).1.toOption.getD store.config := by
  unfold ConfigStore.save
  cases (migrateConfig next).bind (normalizeConfig env.read) with
  | error message => rfl
  | ok config => exact config_saveConfig env.normalize config store

theorem config_importGroupsPayload (env : RestartEnv) (parsed : Json) (store : ConfigStore) :
    (importGroupsPayload env parsed store).2.config =
      (importGroupsPayload env parsed store).1.toOption.getD store.config := by
  unfold importGroupsPayload
  cases extractGroupsAndProvidersFromImportPayload env.read parsed with
  | error message => rfl
  | ok payload => exact config_saveConfig env.normalize _ store

theorem config_pullWithDir (env : SyncEnv) (now : ℕ) (timeKnown : Bool) (force : Option Bool)
    (branch : RemoteBranch) (inst : Installation) :
    (pullWithDir env now timeKnown force branch inst).2.store.config =
      ((pullWithDir env now timeKnown force branch inst).1.toOption.bind (·.config)).getD
        inst.store.config := by
  unfold pullWithDir
  split
  · cases pullGroupsJsonFromRemote env inst.store.config.remoteGit branch with
    | error message => rfl
    | ok file =>
      dsimp only
      cases file.value with
      | none => rfl
      | some parsed =>
        dsimp only
        split
        · rfl
        · have hconfig := config_importGroupsPayload env.toRestartEnv parsed inst.store
          unfold importPulled
          revert hconfig
          rcases importGroupsPayload env.toRestartEnv parsed inst.store with
            ⟨message | saved, store⟩
          · exact fun _ => rfl
          · exact fun hconfig => hconfig
  · rfl

/-- **The server has what the answer carries**, and what it had when it carries nothing. -/
theorem config_perform (headless : Bool) (moment : Moment) (inst : Installation)
    (request : UiRequest) :
    (request.perform headless moment inst).2.store.config =
      (UiAnswer.config (request.perform headless moment inst).1).getD inst.store.config := by
  cases request with
  | saveConfig nextConfig =>
    unfold UiRequest.perform
    dsimp only
    split
    · rfl
    · have hconfig := config_save moment.env.toRestartEnv nextConfig inst.store
      revert hconfig
      rcases inst.store.save moment.env.toRestartEnv nextConfig with ⟨message | saved, store⟩
      · exact id
      · exact id
  | importGroupsFromJson parsed =>
    cases parsed with
    | none => rfl
    | some parsed =>
      unfold UiRequest.perform importGroupsWithSource
      dsimp only
      have hconfig := config_importGroupsPayload moment.env.toRestartEnv parsed inst.store
      revert hconfig
      cases extractGroupsAndProvidersFromImportPayload moment.env.read parsed with
      | error message => exact fun _ => rfl
      | ok payload =>
        dsimp only
        rcases importGroupsPayload moment.env.toRestartEnv parsed inst.store with
          ⟨message | saved, store⟩
        · exact id
        · exact id
  | remoteRulesPull force =>
    unfold UiRequest.perform
    dsimp only
    have hconfig := config_pullWithDir moment.env moment.now moment.timeKnown force moment.branch
      inst
    revert hconfig
    rcases pullWithDir moment.env moment.now moment.timeKnown force moment.branch inst with
      ⟨message | result, inst'⟩
    · exact id
    · exact id

namespace UiState

/-! ### Runs -/

theorem mem_changesOf {answers : List (ℕ × UiAnswer)} {i : ℕ} {config : ProxyConfig} :
    (i, config) ∈ changesOf answers ↔ ∃ answer, (i, answer) ∈ answers ∧
      UiAnswer.config answer = some config := by
  unfold changesOf
  rw [List.mem_filterMap]
  constructor
  · rintro ⟨⟨j, answer⟩, hmem, hchange⟩
    obtain ⟨found, hfound, heq⟩ := Option.map_eq_some_iff.1 hchange
    obtain ⟨rfl, rfl⟩ := Prod.mk.inj heq
    exact ⟨answer, hmem, hfound⟩
  · rintro ⟨answer, hmem, hconfig⟩
    exact ⟨(i, answer), hmem, by rw [hconfig]; rfl⟩

/-- What the requests that were applied and delivered have left. -/
structure Inv (start : ProxyConfig) (s : UiState) : Prop where
  nodup : (s.answers.map Prod.fst).Nodup
  applied : ∀ i ∈ s.delivered, i ∈ s.answers.map Prod.fst
  sent : ∀ i ∈ s.answers.map Prod.fst, i < s.requests.length
  server : s.server.store.config = (s.changes.map Prod.snd).getLast?.getD start
  copy : s.configState = Renderer.normalizeConfig
    (((s.changes.filter fun change => change.1 ∈ s.delivered).map Prod.snd).getLast?.getD
      start).toJson

variable {headless : Bool} {start : ProxyConfig} {s s' : UiState} {event : UiEvent}

theorem Inv.act (h : s.Inv start) (action : UiAction)
    (hstep : step headless s (.act action) = some s') :
    s'.Inv start := by
  cases hstep
  refine ⟨h.nodup, h.applied, fun i hmem => ?_, h.server, h.copy⟩
  have hlt := h.sent i hmem
  rw [List.length_append]
  omega

theorem Inv.apply (h : s.Inv start) {i : ℕ} {moment : Moment}
    (hstep : step headless s (.apply i moment) = some s') : s'.Inv start := by
  unfold step at hstep
  dsimp only at hstep
  by_cases hdone : i ∈ s.answers.map Prod.fst
  · rw [if_pos hdone] at hstep
    cases hstep
  rw [if_neg hdone] at hstep
  obtain ⟨request, hrequest, heq⟩ := Option.map_eq_some_iff.1 hstep
  have hlt : i < s.requests.length := (List.getElem?_eq_some_iff.1 hrequest).1
  have hconfig := config_perform headless moment s.server request
  rcases hperform : request.perform headless moment s.server with ⟨answer, server⟩
  rw [hperform] at hconfig heq
  dsimp only at hconfig heq
  subst heq
  -- the list of changes grows by the configuration that the answer carries
  have hchanges : changesOf (s.answers ++ [(i, answer)]) =
      s.changes ++ ((UiAnswer.config answer).map (Prod.mk i)).toList := by
    unfold changesOf
    rw [List.filterMap_append]
    refine congrArg (s.changes ++ ·) ?_
    cases hcarried : UiAnswer.config answer with
    | none => exact List.filterMap_cons_none (by rw [hcarried]; rfl)
    | some config => exact List.filterMap_cons_some (by rw [hcarried]; rfl)
  have hnew : i ∉ s.delivered := fun hmem => hdone (h.applied i hmem)
  refine ⟨?_, fun j hmem => ?_, fun j hmem => ?_, ?_, ?_⟩
  · rw [List.map_append, List.map_singleton, ← List.concat_eq_append, List.nodup_concat]
    exact ⟨hdone, h.nodup⟩
  · rw [List.map_append]
    exact List.mem_append_left _ (h.applied j hmem)
  · rw [List.map_append, List.map_singleton, List.mem_append, List.mem_singleton] at hmem
    rcases hmem with hold | rfl
    · exact h.sent j hold
    · exact hlt
  · show server.store.config = ((changesOf (s.answers ++ [(i, answer)])).map Prod.snd).getLast?.getD
      start
    rw [hconfig, hchanges, List.map_append]
    cases UiAnswer.config answer with
    | none =>
      rw [Option.map_none, Option.toList_none, List.map_nil, List.append_nil]
      exact h.server
    | some config =>
      rw [Option.map_some, Option.toList_some, List.map_singleton, List.getLast?_concat]
      rfl
  · show s.configState = Renderer.normalizeConfig ((((changesOf (s.answers ++ [(i, answer)])).filter
      fun change => change.1 ∈ s.delivered).map Prod.snd).getLast?.getD start).toJson
    -- the answer is not delivered yet, so the copy does not see the change
    have hskip : ((UiAnswer.config answer).map (Prod.mk i)).toList.filter
        (fun change => decide (change.1 ∈ s.delivered)) = [] := by
      cases UiAnswer.config answer with
      | none => rfl
      | some config => exact List.filter_cons_of_neg (by simpa using hnew)
    rw [hchanges, List.filter_append, hskip, List.append_nil]
    exact h.copy

theorem Inv.deliver (h : s.Inv start) {i : ℕ} (hturn : s.InTurn (.deliver i))
    (hstep : step headless s (.deliver i) = some s') : s'.Inv start := by
  unfold step at hstep
  dsimp only at hstep
  by_cases hdone : i ∈ s.delivered
  · rw [if_pos hdone] at hstep
    cases hstep
  rw [if_neg hdone] at hstep
  obtain ⟨answer, hanswer, heq⟩ := Option.map_eq_some_iff.1 hstep
  subst heq
  obtain ⟨before, after, hsplit, -⟩ := List.lookup_eq_some_iff.1 hanswer
  have hnodup := h.nodup
  rw [hsplit, List.map_append, List.map_cons, List.nodup_append'] at hnodup
  obtain ⟨-, hafter, hdisjoint⟩ := hnodup
  have hbefore : ∀ change ∈ changesOf before, change.1 ≠ i := by
    intro change hmem heq
    obtain ⟨other, hother, -⟩ := mem_changesOf.1 (show (change.1, change.2) ∈ _ from hmem)
    rw [heq] at hother
    exact hdisjoint (List.mem_map.2 ⟨_, hother, rfl⟩) List.mem_cons_self
  have hbehind : ∀ change ∈ changesOf after, change.1 ≠ i := by
    intro change hmem heq
    obtain ⟨other, hother, -⟩ := mem_changesOf.1 (show (change.1, change.2) ∈ _ from hmem)
    rw [heq] at hother
    exact (List.nodup_cons.1 hafter).1 (List.mem_map.2 ⟨_, hother, rfl⟩)
  have hsame : ∀ changes : List (ℕ × ProxyConfig), (∀ change ∈ changes, change.1 ≠ i) →
      changes.filter (fun change => decide (change.1 ∈ s.delivered ++ [i])) =
        changes.filter fun change => decide (change.1 ∈ s.delivered) := by
    intro changes hne
    refine List.filter_congr fun change hmem => decide_eq_decide.2 ?_
    rw [List.mem_append, List.mem_singleton, or_iff_left (hne change hmem)]
  have hchanges : s.changes =
      changesOf before ++ (((UiAnswer.config answer).map (Prod.mk i)).toList ++
        changesOf after) := by
    rw [changes, hsplit, changesOf, List.filterMap_append, List.filterMap_cons]
    cases UiAnswer.config answer <;> rfl
  refine ⟨h.nodup, fun j hmem => ?_, h.sent, h.server, ?_⟩
  · rcases List.mem_append.1 hmem with hold | hnew
    · exact h.applied j hold
    · rw [List.mem_singleton.1 hnew, hsplit, List.map_append]
      exact List.mem_append_right _ List.mem_cons_self
  show receive s.configState answer = Renderer.normalizeConfig (((s.changes.filter
    fun change => change.1 ∈ s.delivered ++ [i]).map Prod.snd).getLast?.getD start).toJson
  have hcopy := h.copy
  cases hcarried : UiAnswer.config answer with
  | none =>
    have hreceive : receive s.configState answer = s.configState := by
      rcases answer with message | _ | config
      · rfl
      · rfl
      · cases hcarried
    rw [hcarried] at hchanges
    have hne : ∀ change ∈ s.changes, change.1 ≠ i := by
      intro change hmem
      rw [hchanges] at hmem
      rcases List.mem_append.1 hmem with hmem | hmem
      · exact hbefore change hmem
      · exact hbehind change hmem
    rw [hreceive, hsame s.changes hne]
    exact hcopy
  | some config =>
    have hreceive : receive s.configState answer = Renderer.normalizeConfig config.toJson := by
      rcases answer with message | _ | found
      · cases hcarried
      · cases hcarried
      · cases hcarried
        rfl
    rw [hcarried] at hchanges
    -- of the configurations behind this one, none has been delivered
    have hlater := hturn (changesOf before) config (changesOf after) hchanges
    have hrest : (changesOf after).filter (fun change => decide (change.1 ∈ s.delivered ++ [i])) =
        [] := by
      rw [hsame _ hbehind]
      exact List.filter_eq_nil_iff.2 fun change hmem => by simpa using hlater change hmem
    have hlast : s.changes.filter (fun change => decide (change.1 ∈ s.delivered ++ [i])) =
        (changesOf before).filter (fun change => decide (change.1 ∈ s.delivered ++ [i])) ++
          [(i, config)] := by
      rw [hchanges, Option.map_some, Option.toList_some, List.filter_append, List.singleton_append,
        List.filter_cons_of_pos (by simp), hrest]
    rw [hreceive, hlast, List.map_append, List.map_singleton, List.getLast?_concat]
    rfl

theorem Inv.step (h : s.Inv start) (hturn : s.InTurn event)
    (hstep : step headless s event = some s') : s'.Inv start := by
  cases event with
  | act action => exact h.act action hstep
  | apply i moment => exact h.apply hstep
  | deliver i => exact h.deliver hturn hstep

/-- When every request has been answered, the last configuration is the copied one. -/
theorem Inv.follows (h : s.Inv start) (hsettled : s.Settled) : s.Follows := by
  have hall : s.changes.filter (fun change => decide (change.1 ∈ s.delivered)) = s.changes := by
    refine List.filter_eq_self.2 fun change hmem => decide_eq_true ?_
    obtain ⟨answer, hanswer, -⟩ := mem_changesOf.1 (show (change.1, change.2) ∈ _ from hmem)
    exact (hsettled change.1 (h.sent change.1 (List.mem_map_of_mem hanswer))).1
  rw [Follows, h.copy, hall, h.server]

/-- **Once every request has been answered, in turn, the copy is that of the server.** -/
theorem follows_of_run (headless : Bool) (server : Installation) {events : List UiEvent}
    {s : UiState}
    (hturn : Machine.EachStep (step headless) InTurn
      { configState := Renderer.normalizeConfig server.store.config.toJson, server := server }
      events)
    (hrun : Machine.run (step headless)
      { configState := Renderer.normalizeConfig server.store.config.toJson, server := server }
      events = some s)
    (hsettled : s.Settled) : s.Follows := by
  have hstart : Inv server.store.config
      { configState := Renderer.normalizeConfig server.store.config.toJson, server := server } :=
    ⟨List.nodup_nil, fun _ hmem => (nomatch hmem), fun _ hmem => (nomatch hmem), rfl, rfl⟩
  have hinv := Machine.run_invariant (fun _ _ _ hinv hturn hstep => Inv.step hinv hturn hstep)
    hstart hturn hrun
  exact hinv.follows hsettled

/-- The renderer and a server without groups. -/
def fresh : UiState where
  configState := Renderer.normalizeConfig emptyStore.config.toJson
  server := ⟨emptyStore, 0⟩

def capturing (config : Json) : Json :=
  .obj (spread (fieldsOf (some config)) [("logging", .obj [("captureBody", .bool true)])])

/-- An import of one group, and a save that is sent before its answer; the server applies them in
this order. -/
def importAndSave : List UiEvent :=
  [.act (.importGroupsFromJson (some (createGroupsBackupPayload "2026-01-01T00:00:00Z"
      (oneRouteConfig "p1").groups (oneRouteConfig "p1").providers).toJson)),
    .act (.saveConfig capturing), .apply 0 ⟨SyncEnv.plain, 1, true, none⟩,
    .apply 1 ⟨SyncEnv.plain, 2, true, none⟩]

theorem served_importAndSave : ∃ s imported saved,
    Machine.run (step false) fresh importAndSave = some s ∧ s.requests.length = 2 ∧
      s.answers = [(0, .ok (some imported)), (1, .ok (some saved))] ∧ s.delivered = [] ∧
      s.server.store.config = saved ∧
      (itemsOf ((Renderer.normalizeConfig imported.toJson).get "groups")).length = 1 ∧
      (itemsOf ((Renderer.normalizeConfig saved.toJson).get "groups")).length = 0 :=
  ⟨_, _, _, rfl, rfl, rfl, rfl, rfl, rfl, rfl⟩

theorem settled_of_delivered {s : UiState} {imported saved : ProxyConfig}
    (hrequests : s.requests.length = 2)
    (hanswers : s.answers = [(0, .ok (some imported)), (1, .ok (some saved))])
    (hdelivered : s.delivered = [0, 1] ∨ s.delivered = [1, 0]) : s.Settled := by
  intro i hlt
  rw [hrequests] at hlt
  have hmem : i ∈ s.delivered := by
    rcases hdelivered with h | h <;> rw [h] <;> simp <;> omega
  rw [hanswers]
  obtain rfl | rfl : i = 0 ∨ i = 1 := by omega
  · exact ⟨hmem, _, rfl⟩
  · exact ⟨hmem, _, rfl⟩

theorem follows_importAndSave : ∃ s, Machine.run (step false) fresh
    (importAndSave ++ [.deliver 0, .deliver 1]) = some s ∧ s.Follows := by
  obtain ⟨⟨copy, server, requests, answers, delivered⟩, imported, saved, hserved, hrequests, rfl,
    rfl, -⟩ := served_importAndSave
  have hrun : Machine.run (step false) fresh (importAndSave ++ [.deliver 0, .deliver 1]) =
      some ⟨Renderer.normalizeConfig saved.toJson, server, requests,
        [(0, .ok (some imported)), (1, .ok (some saved))], [0, 1]⟩ := by
    rw [Machine.run_append, hserved]
    rfl
  refine ⟨_, hrun, follows_of_run false ⟨emptyStore, 0⟩ ?_ hrun
    (settled_of_delivered hrequests rfl (.inl rfl))⟩
  have hsent : Machine.EachStep (step false) InTurn fresh importAndSave :=
    ⟨trivial, fun _ _ => ⟨trivial, fun _ _ => ⟨trivial, fun _ _ => ⟨trivial, fun _ _ => trivial⟩⟩⟩⟩
  refine hsent.append fun s hs => ?_
  rw [hserved] at hs
  cases hs
  refine .cons rfl (fun _ _ _ _ _ _ h => nomatch h) ⟨?_, fun _ _ => trivial⟩
  intro before config after heq change hmem hin
  have hkeys : [0, 1] = before.map Prod.fst ++ 1 :: after.map Prod.fst := by
    have hmap := congrArg (List.map Prod.fst) heq
    rw [List.map_append, List.map_cons] at hmap
    exact hmap
  have hzero : change.1 = 0 := List.mem_singleton.1 hin
  have hafter : 0 ∈ after.map Prod.fst := hzero ▸ List.mem_map_of_mem hmem
  rcases before with _ | ⟨first, _ | ⟨second, rest⟩⟩
  · cases hkeys
  · obtain ⟨-, hnone⟩ := List.cons.inj (List.cons.inj hkeys).2
    rw [← hnone] at hafter
    cases hafter
  · have hlength := congrArg List.length hkeys
    simp at hlength

/-- The answer of the import is delivered last, and the copy has a group that the server has not. -/
theorem not_follows_importAndSave : ∃ s, Machine.run (step false) fresh
    (importAndSave ++ [.deliver 1, .deliver 0]) = some s ∧ s.Settled ∧ ¬ s.Follows := by
  obtain ⟨⟨copy, server, requests, answers, delivered⟩, imported, saved, hserved, hrequests, rfl,
    rfl, hserver, himported, hsaved⟩ := served_importAndSave
  have hrun : Machine.run (step false) fresh (importAndSave ++ [.deliver 1, .deliver 0]) =
      some ⟨Renderer.normalizeConfig imported.toJson, server, requests,
        [(0, .ok (some imported)), (1, .ok (some saved))], [1, 0]⟩ := by
    rw [Machine.run_append, hserved]
    rfl
  refine ⟨_, hrun, settled_of_delivered hrequests rfl (.inr rfl), fun h => ?_⟩
  have hsame : Renderer.normalizeConfig imported.toJson =
      Renderer.normalizeConfig saved.toJson := by
    rw [← hserver]
    exact h
  rw [hsame, hsaved] at himported
  cases himported

end UiState

end AiOpenRouter
