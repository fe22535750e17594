/-
The route index (`build_route_index`) and the resolver
(`resolve_runtime_active_route`).

A request goes to the entry of its group whose pattern is the longest one that
the request model contains, the last of these, and to the first `default` entry
when the model contains no pattern.

* `Wins` says which entries are chosen for some model (`wins_of_select`,
  `exists_select_of_wins`);
* `routed_iff`: a ready group routes every request exactly when the provider of
  each entry that wins is stored.
-/
import AiOpenRouter.ConfigValidation
import Mathlib.Data.List.Infix

namespace AiOpenRouter

/-! ### The longest of the last -/

section MaxByKey

variable {α : Type*} (key : α → ℕ)

/-- `Iterator::max_by_key`: the last of the elements whose key is largest. -/
def maxByKey (xs : List α) : Option α :=
  xs.foldl (fun best x => if best.any (fun y => key x < key y) then best else some x) none

theorem maxByKey_concat (xs : List α) (x : α) :
    maxByKey key (xs ++ [x]) =
      if (maxByKey key xs).any (fun y => key x < key y) then maxByKey key xs else some x := by
  rw [maxByKey, List.foldl_append]
  rfl

variable {key}

theorem maxByKey_eq_none_iff {xs : List α} : maxByKey key xs = none ↔ xs = [] := by
  refine ⟨fun h => ?_, fun h => h ▸ rfl⟩
  induction xs using List.reverseRecOn with
  | nil => rfl
  | append_singleton xs x _ =>
    rw [maxByKey_concat] at h
    split_ifs at h with hany
    rw [h] at hany
    cases hany

/-- The keys before the chosen element are not larger, those behind it smaller. -/
theorem split_of_maxByKey {xs : List α} {x : α} (h : maxByKey key xs = some x) :
    ∃ before after, xs = before ++ x :: after ∧ (∀ y ∈ before, key y ≤ key x) ∧
      ∀ y ∈ after, key y < key x := by
  induction xs using List.reverseRecOn generalizing x with
  | nil => cases h
  | append_singleton xs z ih =>
    rw [maxByKey_concat] at h
    by_cases hlarger : (maxByKey key xs).any (fun y => key z < key y) = true
    · rw [if_pos hlarger] at h
      obtain ⟨before, after, rfl, hbefore, hafter⟩ := ih h
      rw [h, Option.any_some, decide_eq_true_eq] at hlarger
      refine ⟨before, after ++ [z], by simp, hbefore, fun y hy => ?_⟩
      rcases List.mem_append.1 hy with hy | hy
      · exact hafter y hy
      · rw [List.mem_singleton.1 hy]
        exact hlarger
    · rw [if_neg hlarger, Option.some_inj] at h
      subst h
      refine ⟨xs, [], rfl, fun y hy => ?_, fun _ hy => (nomatch hy)⟩
      cases hmax : maxByKey key xs with
      | none =>
        rw [maxByKey_eq_none_iff.1 hmax] at hy
        cases hy
      | some best =>
        obtain ⟨before, after, rfl, hbefore, hafter⟩ := ih hmax
        rw [hmax, Option.any_some, decide_eq_true_eq, not_lt] at hlarger
        rcases List.mem_append.1 hy with hy | hy
        · exact (hbefore y hy).trans hlarger
        · rcases List.mem_cons.1 hy with rfl | hy
          · exact hlarger
          · exact (hafter y hy).le.trans hlarger

theorem maxByKey_of_split {before after : List α} {x : α} (hbefore : ∀ y ∈ before, key y ≤ key x)
    (hafter : ∀ y ∈ after, key y < key x) : maxByKey key (before ++ x :: after) = some x := by
  induction after using List.reverseRecOn with
  | nil =>
    rw [maxByKey_concat]
    cases hmax : maxByKey key before with
    | none => rfl
    | some best =>
      obtain ⟨_, _, rfl, -⟩ := split_of_maxByKey hmax
      rw [Option.any_some, if_neg]
      simpa using hbefore best (by simp)
  | append_singleton after z ih =>
    rw [← List.cons_append, ← List.append_assoc, maxByKey_concat,
      ih fun y hy => hafter y (List.mem_append_left _ hy), Option.any_some,
      if_pos (decide_eq_true (hafter z (by simp)))]

end MaxByKey

/-! ### The index -/

/-- `ActiveRoute`. -/
structure ActiveRoute where
  groupId : String
  groupName : String
  routingTable : List RouteEntry
  rule : Rule

/-- `RouteResolution`. -/
inductive RouteResolution where
  | ready (route : ActiveRoute)
  | noRoutingTable (groupName : String)
  | noDefaultRoute (groupName : String)

def blankRule : Rule where
  id := ""
  name := ""
  protocol := .anthropic
  token := ""
  apiAddress := ""
  website := ""
  models := []
  defaultModel := none
  modelMappings := none
  headerPassthroughAllow := []
  headerPassthroughDeny := []
  quota := defaultRuleQuotaConfig
  cost := defaultRuleCostConfig
  modelCosts := HashMap.empty

def routeResolution (group : Group) : RouteResolution :=
  if group.routingTable = [] then .noRoutingTable group.name
  else if group.routingTable.any (·.requestModel = "default") then
    .ready { groupId := group.id, groupName := group.name
             routingTable := group.routingTable, rule := blankRule }
  else .noDefaultRoute group.name

/-- `build_route_index`: the last group of an id stays. -/
def buildRouteIndex (config : ProxyConfig) : HashMap RouteResolution :=
  config.groups.foldl (fun index group => index.insert group.id (routeResolution group))
    HashMap.empty

/-! ### The resolver -/

/-- `str::contains` of a `String`. -/
def containsText (text pattern : String) : Bool := decide (pattern.toList <:+: text.toList)

def selectEntry (routingTable : List RouteEntry) (requestModel : String) : Option RouteEntry :=
  let found := routingTable.filter fun entry => containsText requestModel entry.requestModel
  if found = [] then routingTable.find? (·.requestModel = "default")
  else maxByKey (fun entry => entry.requestModel.utf8ByteSize) found

/-- `resolve_runtime_active_route`. -/
def resolveRuntimeActiveRoute (config : ProxyConfig) (route : ActiveRoute) (requestModel : String) :
    Except String ActiveRoute :=
  match selectEntry route.routingTable requestModel with
  | none => .error "No default route found in routing table"
  | some entry =>
    match config.providers.find? (·.id = entry.providerId) with
    | none => .error ("Provider " ++ entry.providerId ++ " not found")
    | some provider => .ok { route with routingTable := [entry], rule := provider }

/-! ### The entries that are chosen -/

variable {entry : RouteEntry} {routingTable : List RouteEntry} {pattern : String}

theorem containsText_iff {text : String} :
    containsText text pattern = true ↔ ∃ before after, text = before ++ pattern ++ after := by
  rw [containsText, decide_eq_true_eq]
  constructor
  · rintro ⟨before, after, h⟩
    refine ⟨String.ofList before, String.ofList after, String.toList_injective ?_⟩
    simp [← h]
  · rintro ⟨before, after, rfl⟩
    exact ⟨before.toList, after.toList, by simp⟩

theorem eq_of_containsText {text : String} (h : containsText text pattern = true)
    (hsize : text.utf8ByteSize ≤ pattern.utf8ByteSize) : pattern = text := by
  obtain ⟨before, after, rfl⟩ := containsText_iff.1 h
  rw [String.utf8ByteSize_append, String.utf8ByteSize_append] at hsize
  have hbefore : before = "" := String.utf8ByteSize_eq_zero_iff.1 (by omega)
  have hafter : after = "" := String.utf8ByteSize_eq_zero_iff.1 (by omega)
  rw [hbefore, hafter, String.empty_append, String.append_empty]

theorem containsText_empty_iff : containsText "" pattern = true ↔ pattern = "" := by
  refine ⟨fun h => eq_of_containsText h (Nat.zero_le _), ?_⟩
  rintro rfl
  rfl

theorem containsText_self (text : String) : containsText text text = true :=
  containsText_iff.2 ⟨"", "", by simp⟩

theorem containsText_empty_right (text : String) : containsText text "" = true :=
  containsText_iff.2 ⟨text, "", by simp⟩

/-- The entries that are chosen for some model: the last entry of each pattern, and the first
`default` entry when no pattern is empty. -/
def Wins (routingTable : List RouteEntry) (entry : RouteEntry) : Prop :=
  (∃ before after, routingTable = before ++ entry :: after ∧
      ∀ other ∈ after, other.requestModel ≠ entry.requestModel) ∨
    ((∀ other ∈ routingTable, other.requestModel ≠ "") ∧
      routingTable.find? (·.requestModel = "default") = some entry)

theorem mem_of_wins (h : Wins routingTable entry) : entry ∈ routingTable := by
  rcases h with ⟨before, after, rfl, -⟩ | ⟨-, hfind⟩
  · exact List.mem_append_right _ List.mem_cons_self
  · exact List.mem_of_find?_eq_some hfind

theorem wins_of_select {requestModel : String}
    (h : selectEntry routingTable requestModel = some entry) : Wins routingTable entry := by
  unfold selectEntry at h
  dsimp only at h
  split_ifs at h with hfound
  · refine .inr ⟨fun other hmem hempty => ?_, h⟩
    have hother := List.filter_eq_nil_iff.1 hfound other hmem
    rw [hempty] at hother
    exact hother (containsText_empty_right requestModel)
  · obtain ⟨_, after, hsplit, -, hafter⟩ := split_of_maxByKey h
    obtain ⟨_, rest, rfl, -, hrest⟩ := List.filter_eq_append_iff.1 hsplit
    obtain ⟨before, behind, rfl, -, hentry, rfl⟩ := List.filter_eq_cons_iff.1 hrest
    refine .inl ⟨_ ++ before, behind, (List.append_assoc ..).symm, fun other hmem heq => ?_⟩
    have hother := hafter other (List.mem_filter.2 ⟨hmem, by rw [heq]; exact hentry⟩)
    rw [heq] at hother
    exact lt_irrefl _ hother

theorem exists_select_of_wins (h : Wins routingTable entry) :
    ∃ requestModel, selectEntry routingTable requestModel = some entry := by
  rcases h with ⟨before, after, rfl, hafter⟩ | ⟨hnonempty, hdefault⟩
  · refine ⟨entry.requestModel, ?_⟩
    have hsize : ∀ other : RouteEntry, containsText entry.requestModel other.requestModel = true →
        other.requestModel.utf8ByteSize ≤ entry.requestModel.utf8ByteSize := by
      intro other hother
      obtain ⟨left, right, heq⟩ := containsText_iff.1 hother
      rw [heq, String.utf8ByteSize_append, String.utf8ByteSize_append]
      omega
    have hfound : (before ++ entry :: after).filter
          (fun other => containsText entry.requestModel other.requestModel) =
        before.filter (fun other => containsText entry.requestModel other.requestModel) ++
          entry :: after.filter fun other =>
            containsText entry.requestModel other.requestModel := by
      rw [List.filter_append, List.filter_cons]
      simp [containsText_self]
    unfold selectEntry
    rw [hfound, if_neg (by simp)]
    refine maxByKey_of_split (fun other hmem => hsize other (List.mem_filter.1 hmem).2)
      fun other hmem => ?_
    obtain ⟨hmem, hother⟩ := List.mem_filter.1 hmem
    by_contra hle
    exact hafter other hmem (eq_of_containsText hother (not_lt.1 hle))
  · refine ⟨"", ?_⟩
    have hfound : (routingTable.filter fun other => containsText "" other.requestModel) = [] := by
      rw [List.filter_eq_nil_iff]
      intro other hmem hother
      exact hnonempty other hmem (containsText_empty_iff.1 hother)
    unfold selectEntry
    rw [hfound, if_pos rfl]
    exact hdefault

theorem exists_select (h : routingTable.any (·.requestModel = "default") = true)
    (requestModel : String) : ∃ entry, selectEntry routingTable requestModel = some entry := by
  rw [← Option.isSome_iff_exists]
  unfold selectEntry
  dsimp only
  split_ifs with hfound
  · rw [List.find?_isSome]
    simpa using h
  · exact Option.isSome_iff_ne_none.2 fun hnone => hfound (maxByKey_eq_none_iff.1 hnone)

theorem resolves_iff {config : ProxyConfig} {route : ActiveRoute} {requestModel : String}
    (h : selectEntry route.routingTable requestModel = some entry) :
    (∃ resolved, resolveRuntimeActiveRoute config route requestModel = .ok resolved ∧
        resolved.rule ∈ config.providers) ↔
      ∃ provider ∈ config.providers, provider.id = entry.providerId := by
  unfold resolveRuntimeActiveRoute
  simp only [h]
  cases hfind : config.providers.find? (·.id = entry.providerId) with
  | none =>
    rw [List.find?_eq_none] at hfind
    constructor
    · rintro ⟨_, hok, -⟩
      cases hok
    · rintro ⟨provider, hmem, hid⟩
      exact absurd (decide_eq_true hid) (hfind provider hmem)
  | some provider =>
    have hmem := List.mem_of_find?_eq_some hfind
    have hid := List.find?_some hfind
    exact ⟨fun _ => ⟨provider, hmem, of_decide_eq_true hid⟩, fun _ => ⟨_, rfl, hmem⟩⟩

/-! ### Accepted configurations -/

theorem exists_group_of_index {config : ProxyConfig} {groupId : String}
    {resolution : RouteResolution} (h : (buildRouteIndex config).get groupId = some resolution) :
    ∃ group ∈ config.groups, group.id = groupId ∧ routeResolution group = resolution := by
  have hfold : ∀ (groups : List Group) (index : HashMap RouteResolution),
      (groups.foldl (fun index group => index.insert group.id (routeResolution group)) index).get
          groupId = some resolution →
        index.get groupId = some resolution ∨
          ∃ group ∈ groups, group.id = groupId ∧ routeResolution group = resolution := by
    intro groups
    induction groups with
    | nil => exact fun index hget => .inl hget
    | cons group groups ih =>
      intro index hget
      rcases ih _ hget with hindex | ⟨other, hmem, heq⟩
      · rw [HashMap.get_insert] at hindex
        split_ifs at hindex with hid
        · exact .inr ⟨group, List.mem_cons_self, hid.symm, Option.some.inj hindex⟩
        · exact .inl hindex
      · exact .inr ⟨other, List.mem_cons_of_mem _ hmem, heq⟩
  rcases hfold config.groups HashMap.empty h with hempty | hgroup
  · cases hempty
  · exact hgroup

theorem ready_iff {group : Group} {route : ActiveRoute}
    (h : routeResolution group = .ready route) :
    route.routingTable = group.routingTable ∧
      route.routingTable.any (·.requestModel = "default") = true := by
  unfold routeResolution at h
  split_ifs at h with hempty hdefault
  cases h
  exact ⟨rfl, hdefault⟩

/-- **A ready group of an accepted configuration has the routing table it was given, and routes
every request exactly when the provider of each entry that wins is stored.** -/
theorem routed_iff {env : NormalizeEnv} {config saved : ProxyConfig} {groupId : String}
    {route : ActiveRoute} (haccept : acceptConfig env config = .ok saved)
    (hready : (buildRouteIndex saved).get groupId = some (.ready route)) :
    (∃ group ∈ config.groups, group.id = groupId ∧ group.routingTable = route.routingTable) ∧
    ((∀ requestModel, ∃ resolved,
        resolveRuntimeActiveRoute saved route requestModel = .ok resolved ∧
          resolved.rule ∈ saved.providers) ↔
      ∀ entry, Wins route.routingTable entry →
        ∃ provider ∈ saved.providers, provider.id = entry.providerId) := by
  obtain ⟨group, hmem, hid, hresolution⟩ := exists_group_of_index hready
  obtain ⟨htable, hdefault⟩ := ready_iff hresolution
  constructor
  · rw [← (acceptConfig_eq_ok_iff.1 haccept).1] at hmem
    obtain ⟨given, hgiven, heq, -, htables⟩ := exists_group_of_mem_normalized hmem
    exact ⟨given, hgiven, heq.symm.trans hid, htables.symm.trans htable.symm⟩
  · constructor
    · intro h entry hwins
      obtain ⟨requestModel, hselect⟩ := exists_select_of_wins hwins
      exact (resolves_iff hselect).1 (h requestModel)
    · intro h requestModel
      obtain ⟨entry, hselect⟩ := exists_select hdefault requestModel
      exact (resolves_iff hselect).2 (h entry (wins_of_select hselect))

def sampleProvider (id : String) : Rule :=
  { blankRule with
    id := id, name := id, apiAddress := "https://api.example.com", models := ["gpt"]
    defaultModel := some "gpt" }

/-- A configuration with one provider and one group, whose default entry names a provider. -/
def oneRouteConfig (providerId : String) : ProxyConfig :=
  { defaultConfig with
    providers := [sampleProvider "p1"]
    groups := [{ id := "dev", name := "Dev"
                 routingTable := [⟨"default", providerId, "gpt"⟩], models := none
                 providerIds := some ["p1"], activeProviderId := none, providers := none
                 failover := none }] }

theorem routed_oneRoute :
    ∃ saved route, acceptConfig NormalizeEnv.plain (oneRouteConfig "p1") = .ok saved ∧
      (buildRouteIndex saved).get "dev" = some (.ready route) ∧
        ∀ requestModel, ∃ resolved,
          resolveRuntimeActiveRoute saved route requestModel = .ok resolved ∧
            resolved.rule ∈ saved.providers := by
  refine ⟨_, _, rfl, rfl, ?_⟩
  refine (@routed_iff NormalizeEnv.plain (oneRouteConfig "p1") _ "dev" _ rfl rfl).2.2
    fun entry hwins => ?_
  rw [List.mem_singleton.1 (mem_of_wins hwins)]
  exact ⟨_, List.mem_cons_self, rfl⟩

/-- A provider that does not exist is accepted in a routing table. -/
theorem not_routed_ghost :
    ∃ saved route, acceptConfig NormalizeEnv.plain (oneRouteConfig "ghost") = .ok saved ∧
      (buildRouteIndex saved).get "dev" = some (.ready route) ∧
        resolveRuntimeActiveRoute saved route "gpt" = .error "Provider ghost not found" :=
  ⟨_, _, rfl, rfl, rfl⟩

end AiOpenRouter
