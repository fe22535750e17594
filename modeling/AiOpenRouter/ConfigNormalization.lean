/-
The normal form of a configuration (`normalize_config_for_storage`).

Providers are stored once, under their trimmed ids; a group keeps the ids of its
providers, and copies of them.  An embedded provider that prints differently from
the stored one with its id is stored under a new id.

* `NormalizeEnv` is what normalisation takes from outside: printing, the iteration
  order of the hash maps it builds, and random ids;
* `normalizeGroupsAndProviders` is the loop over the providers and the groups;
* `exists_group_of_mem_normalized`: a group keeps its id, its name and its routes.
-/
import AiOpenRouter.ConfigEntities
import AiOpenRouter.Sse
import Mathlib.Algebra.Ring.Nat

namespace AiOpenRouter

/-- `str::trim` of a `String`. -/
def trimmed (s : String) : String := String.ofList (Text.trim s.toList)

/-- What normalisation takes from outside: `serde_json::to_string`, the iteration order of the
cost map it builds for each provider (of the configuration, or of a group), and a random id that
is in use nowhere yet. -/
structure NormalizeEnv where
  toStr : Json → String
  order : ℕ → ℕ → HashMap RuleCostConfig → HashMap RuleCostConfig
  order_sameAs : ∀ place i costs, (order place i costs).SameAs costs
  newUuid : List String → String
  newUuid_not_mem : ∀ keys, newUuid keys ∉ keys
  trimmed_newUuid : ∀ keys, trimmed (newUuid keys) = newUuid keys

theorem trimmed_of_forall {s : String} (h : ∀ c ∈ s.toList, Text.isWhitespace c = false) :
    trimmed s = s := by
  have hdrop : ∀ cs : List Char, (∀ c ∈ cs, Text.isWhitespace c = false) →
      cs.dropWhile Text.isWhitespace = cs := by
    intro cs hcs
    cases cs with
    | nil => rfl
    | cons c cs =>
      rw [List.dropWhile_cons_of_neg]
      rw [hcs c List.mem_cons_self]
      decide
  rw [trimmed, Text.trim, Text.trimStart, hdrop _ h, Text.trimEndMatches,
    hdrop _ (by simpa using h), List.reverse_reverse, String.ofList_toList]

def longId (keys : List String) : String :=
  String.ofList (List.replicate ((keys.map String.length).sum + 1) 'u')

theorem length_le_sum {key : String} {keys : List String} (h : key ∈ keys) :
    key.length ≤ (keys.map String.length).sum := by
  induction keys with
  | nil => cases h
  | cons other keys ih =>
    rw [List.map_cons, List.sum_cons]
    rcases List.mem_cons.1 h with rfl | h
    · omega
    · have := ih h
      omega

theorem longId_not_mem (keys : List String) : longId keys ∉ keys := by
  intro hmem
  have hle := length_le_sum hmem
  have hlength : (longId keys).length = (keys.map String.length).sum + 1 := by simp [longId]
  omega

theorem trimmed_longId (keys : List String) : trimmed (longId keys) = longId keys := by
  refine trimmed_of_forall fun c hmem => ?_
  rw [longId, String.toList_ofList] at hmem
  rw [List.eq_of_mem_replicate hmem]
  decide

/-- An environment that prints compactly and keeps the order of the maps it builds. -/
def NormalizeEnv.plain : NormalizeEnv where
  toStr := Json.compact
  order _ _ costs := costs
  order_sameAs _ _ _ := List.Perm.refl _
  newUuid := longId
  newUuid_not_mem := longId_not_mem
  trimmed_newUuid := trimmed_longId

/-! ### One provider -/

/-- `is_meaningfully_configured_legacy_cost`. -/
def isMeaningfullyConfiguredLegacyCost (cost : RuleCostConfig) : Bool :=
  cost.enabled || !cost.inputPricePerM.isZero || !cost.outputPricePerM.isZero
    || !cost.cacheInputPricePerM.isZero || !cost.cacheOutputPricePerM.isZero
    || cost.currency ≠ "USD" || cost.template.isSome

def declaredCosts (models : List String) (costs : HashMap RuleCostConfig) :
    HashMap RuleCostConfig :=
  let validModels := (models.map trimmed).filter (· ≠ "")
  costs.entries.foldl
    (fun normalized entry =>
      let model := trimmed entry.1
      if model = "" ∨ model ∉ validModels then normalized else normalized.insertNew model entry.2)
    HashMap.empty

def legacyCosts (models : List String) (cost : RuleCostConfig) : HashMap RuleCostConfig :=
  models.foldl
    (fun normalized model =>
      if trimmed model = "" then normalized else normalized.insert (trimmed model) cost)
    HashMap.empty

/-- `normalize_provider_for_storage`. -/
def normalizeProviderForStorage (order : HashMap RuleCostConfig → HashMap RuleCostConfig)
    (provider : Rule) : Rule :=
  let declared := declaredCosts provider.models provider.modelCosts
  let costs :=
    if declared.isEmpty ∧ isMeaningfullyConfiguredLegacyCost provider.cost then
      legacyCosts provider.models provider.cost
    else declared
  { provider with modelCosts := order costs }

/-! ### The stored providers -/

def addProvider (env : NormalizeEnv) (stored : HashMap Rule) (provider : Rule × ℕ) : HashMap Rule :=
  let rule := normalizeProviderForStorage (env.order 0 provider.2) provider.1
  if trimmed rule.id = "" then stored else stored.insertNew (trimmed rule.id) rule

/-- `alloc_unique_provider_id`. -/
def allocUniqueProviderId (env : NormalizeEnv) (providerId : String) (stored : HashMap Rule) :
    String :=
  let base := trimmed providerId
  let candidates := if base = "" then []
    else (List.range 999).map fun i => base ++ "-" ++ toString (i + 2)
  (candidates.find? fun candidate => !stored.contains candidate).getD (env.newUuid stored.keys)

/-- The ids that belong to a group: those it lists, once there are providers of the configuration,
and those of its embedded providers otherwise. -/
def groupIds (hasGlobal : Bool) (group : Group) : List String :=
  match hasGlobal, group.providerIds with
  | true, some ids => ids
  | _, _ => (group.providers.getD []).map Rule.id

/-- What the loop over the embedded providers of a group has built: the stored providers, and the
new id of each that conflicted. -/
structure EmbeddedState where
  stored : HashMap Rule
  remap : List (String × String) := []

def addEmbedded (env : NormalizeEnv) (place : ℕ) (scope : List String) (st : EmbeddedState)
    (provider : Rule × ℕ) : EmbeddedState :=
  let rule := normalizeProviderForStorage (env.order place provider.2) provider.1
  let id := trimmed rule.id
  if id = "" ∨ id ∉ scope then st
  else
    match st.stored.get id with
    | some existing =>
      if env.toStr existing.toJson ≠ env.toStr rule.toJson then
        let nextId := allocUniqueProviderId env id st.stored
        { stored := st.stored.insertNew nextId { rule with id := nextId }
          remap := (id, nextId) :: st.remap }
      else st
    | none => { st with stored := st.stored.insertNew id rule }

def addEmbeddedProviders (env : NormalizeEnv) (hasGlobal : Bool) (place : ℕ)
    (stored : HashMap Rule) (group : Group) : EmbeddedState :=
  let scope := ((groupIds hasGlobal group).map trimmed).filter (· ≠ "")
  (group.providers.getD []).zipIdx.foldl (addEmbedded env place scope) { stored := stored }

def linkedIds (st : EmbeddedState) (ids : List String) : List String :=
  ids.foldl
    (fun linked id =>
      let id := (st.remap.lookup (trimmed id)).getD (trimmed id)
      if id = "" ∨ id ∈ linked then linked
      else if st.stored.contains id then linked ++ [id] else linked)
    []

def normalizeGroup (env : NormalizeEnv) (hasGlobal : Bool) (place : ℕ) (stored : HashMap Rule)
    (group : Group) : HashMap Rule × Group :=
  let st := addEmbeddedProviders env hasGlobal place stored group
  let providerIds := linkedIds st (groupIds hasGlobal group)
  (st.stored,
    { group with
      providerIds := some providerIds
      activeProviderId := group.activeProviderId.filter (· ∈ providerIds)
      providers := some (providerIds.filterMap st.stored.get) })

def normalizeGroups (env : NormalizeEnv) (hasGlobal : Bool) :
    ℕ → HashMap Rule → List Group → HashMap Rule × List Group
  | _, stored, [] => (stored, [])
  | place, stored, group :: groups =>
    let (stored, group) := normalizeGroup env hasGlobal place stored group
    let (stored, groups) := normalizeGroups env hasGlobal (place + 1) stored groups
    (stored, group :: groups)

/-- `normalize_groups_and_providers`. -/
def normalizeGroupsAndProviders (env : NormalizeEnv) (groups : List Group) (providers : List Rule) :
    List Group × List Rule :=
  let global := providers.zipIdx.foldl (addProvider env) HashMap.empty
  let (stored, groups) := normalizeGroups env (!global.isEmpty) 1 global groups
  (groups, stored.entries.map Prod.snd)

/-! ### The whole configuration -/

def Group.isConfigured (group : Group) : Bool :=
  group.routingTable ≠ [] || group.providerIds.any (· ≠ [])
    || group.providers.any fun providers => !providers.isEmpty

def Rule.hasModels (provider : Rule) : Bool :=
  provider.models ≠ [] || provider.defaultModel.isSome
    || provider.modelMappings.any fun mappings => !mappings.isEmpty

/-- `normalize_config_for_storage`, which never fails. -/
def normalizeConfigForStorage (env : NormalizeEnv) (config : ProxyConfig) : ProxyConfig :=
  let (groups, providers) := normalizeGroupsAndProviders env config.groups config.providers
  { config with
    groups := groups.filter Group.isConfigured
    providers := providers.filter Rule.hasModels }

/-! ### What normalisation leaves alone -/

theorem exists_group_of_mem_normalizeGroups {env : NormalizeEnv} {hasGlobal : Bool} {place : ℕ}
    {stored : HashMap Rule} {groups : List Group} {normalized : Group}
    (h : normalized ∈ (normalizeGroups env hasGlobal place stored groups).2) :
    ∃ group ∈ groups, normalized.id = group.id ∧ normalized.name = group.name ∧
      normalized.routingTable = group.routingTable := by
  induction groups generalizing place stored with
  | nil => cases h
  | cons group groups ih =>
    rcases List.mem_cons.1 h with rfl | h
    · exact ⟨group, List.mem_cons_self, rfl, rfl, rfl⟩
    · obtain ⟨other, hmem, heq⟩ := ih h
      exact ⟨other, List.mem_cons_of_mem _ hmem, heq⟩

theorem exists_group_of_mem_normalized {env : NormalizeEnv} {config : ProxyConfig}
    {normalized : Group} (h : normalized ∈ (normalizeConfigForStorage env config).groups) :
    ∃ group ∈ config.groups, normalized.id = group.id ∧ normalized.name = group.name ∧
      normalized.routingTable = group.routingTable :=
  exists_group_of_mem_normalizeGroups (List.mem_of_mem_filter h)

end AiOpenRouter
