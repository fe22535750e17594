/-
What normalisation leaves, normalised again.

* `Rule.IsNormal`: a provider that normalisation leaves as it is, but for the order of its
  costs;
* `Settled`: a configuration that normalisation has made, with the store it comes from;
* `normalizeGroups_settled`: the loop over the groups leaves them as they are, when what
  they embed is new or equals what is stored.
-/
import AiOpenRouter.ConfigStore
import AiOpenRouter.IterationOrder

namespace AiOpenRouter

/-! ### One provider -/

/-- The costs are those of declared models, under their names, and there is no legacy cost. -/
structure Rule.IsNormal (rule : Rule) : Prop where
  keys : ∀ entry ∈ rule.modelCosts.entries,
    trimmed entry.1 = entry.1 ∧ entry.1 ∈ validModels rule.models
  legacy : rule.modelCosts.isEmpty = true → isMeaningfullyConfiguredLegacyCost rule.cost = true →
    validModels rule.models = []

theorem trimmed_of_mem_validModels {models : List String} {model : String}
    (h : model ∈ validModels models) : trimmed model = model ∧ model ≠ "" := by
  obtain ⟨hmem, hne⟩ := List.mem_filter.1 h
  obtain ⟨name, -, rfl⟩ := List.mem_map.1 hmem
  exact ⟨trimmed_trimmed name, of_decide_eq_true hne⟩

theorem get_legacyCosts (models : List String) (cost : RuleCostConfig) (key : String) :
    (legacyCosts models cost).get key = if key ∈ validModels models then some cost else none := by
  unfold legacyCosts validModels
  induction models using List.reverseRecOn with
  | nil => rfl
  | append_singleton models model ih =>
    rw [List.foldl_append, List.foldl_cons, List.foldl_nil, List.map_append, List.filter_append]
    by_cases hblank : trimmed model = ""
    · have hnone : ([model].map trimmed).filter (· ≠ "") = [] := by simp [hblank]
      rw [if_pos hblank, ih, hnone, List.append_nil]
    · have hone : ([model].map trimmed).filter (· ≠ "") = [trimmed model] := by simp [hblank]
      rw [if_neg hblank, HashMap.get_insert, ih, hone]
      by_cases hkey : key = trimmed model
      · rw [if_pos hkey, if_pos (by simp [hkey])]
      · rw [if_neg hkey]
        refine if_congr ?_ rfl rfl
        simp [hkey]

theorem mem_validModels_of_normalCosts {rule : Rule} {entry : String × RuleCostConfig}
    (h : entry ∈ (normalCosts rule).entries) : entry.1 ∈ validModels rule.models := by
  have hget : (normalCosts rule).get entry.1 = some entry.2 := HashMap.get_eq_some_iff.2 h
  by_contra hnot
  rw [normalCosts_eq] at hget
  split_ifs at hget with hlegacy
  · rw [get_legacyCosts, if_neg hnot] at hget
    cases hget
  · rw [get_declaredCosts, if_neg hnot] at hget
    cases hget

section Normal

variable {rule rule' : Rule} {order : HashMap RuleCostConfig → HashMap RuleCostConfig}

theorem Rule.IsNormal.sameAs (h : rule.IsNormal) (hsame : rule.SameAs rule') : rule'.IsNormal := by
  refine ⟨fun entry hentry => ?_, fun hempty hlegacy => ?_⟩
  · rw [← hsame.models_eq]
    exact h.keys entry (hsame.modelCosts.mem_iff.2 hentry)
  · rw [← hsame.models_eq]
    refine h.legacy ?_ (hsame.cost_eq ▸ hlegacy)
    rw [HashMap.isEmpty, List.Perm.isEmpty_eq hsame.modelCosts]
    exact hempty

/-- **What normalisation makes is normal.** -/
theorem isNormal_normalize (horder : ∀ costs, (order costs).SameAs costs) (rule : Rule) :
    (normalizeProviderForStorage order rule).IsNormal := by
  have hcosts : (normalizeProviderForStorage order rule).modelCosts =
      order (normalCosts rule) := rfl
  refine ⟨fun entry hentry => ?_, fun hempty hlegacy => ?_⟩
  · rw [hcosts] at hentry
    have hvalid := mem_validModels_of_normalCosts ((horder _).mem_iff.1 hentry)
    exact ⟨(trimmed_of_mem_validModels hvalid).1, hvalid⟩
  · rw [hcosts, HashMap.isEmpty, List.Perm.isEmpty_eq (horder _), ← HashMap.isEmpty,
      normalCosts_eq] at hempty
    by_cases hdeclared : (declaredCosts rule.models rule.modelCosts).isEmpty = true
    · rw [if_pos ⟨hdeclared, hlegacy⟩] at hempty
      -- the legacy cost belongs to every declared model
      refine List.eq_nil_iff_forall_not_mem.2 fun model hmodel => ?_
      have hvalid : model ∈ validModels rule.models := hmodel
      have hget := get_legacyCosts rule.models rule.cost model
      rw [if_pos hvalid] at hget
      have hmem := HashMap.get_eq_some_iff.1 hget
      rw [List.isEmpty_iff.1 hempty] at hmem
      cases hmem
    · rw [if_neg fun h => hdeclared h.1] at hempty
      exact absurd hempty hdeclared

theorem Rule.IsNormal.normalCosts_sameAs (h : rule.IsNormal) :
    (normalCosts rule).SameAs rule.modelCosts := by
  have hdeclared : (declaredCosts rule.models rule.modelCosts).SameAs rule.modelCosts := by
    refine HashMap.sameAs_iff.2 fun key => ?_
    rw [get_declaredCosts]
    cases hget : rule.modelCosts.get key with
    | none =>
      have hnot : rule.modelCosts.entries.find? (fun entry => trimmed entry.1 = key) = none := by
        rw [List.find?_eq_none]
        intro entry hentry
        rw [(h.keys entry hentry).1, decide_eq_true_eq]
        rintro rfl
        rw [HashMap.get_eq_some_iff.2 hentry] at hget
        cases hget
      rw [hnot, Option.map_none, ite_self]
    | some cost =>
      have hentry := HashMap.get_eq_some_iff.1 hget
      rw [if_pos (h.keys _ hentry).2]
      cases hfound : rule.modelCosts.entries.find? (fun entry => trimmed entry.1 = key) with
      | none =>
        rw [List.find?_eq_none] at hfound
        exact absurd (decide_eq_true (h.keys _ hentry).1) (hfound _ hentry)
      | some entry =>
        have hmem := List.mem_of_find?_eq_some hfound
        have hkey : trimmed entry.1 = key := by simpa using List.find?_some hfound
        rw [(h.keys entry hmem).1] at hkey
        rw [Option.map_some, ← hget, ← hkey, HashMap.get_eq_some_iff.2 hmem]
  rw [normalCosts_eq]
  split_ifs with hlegacy
  · -- then there are no models, and no costs either way
    have hempty : rule.modelCosts.isEmpty = true := by
      rw [HashMap.isEmpty, ← List.Perm.isEmpty_eq hdeclared]
      exact hlegacy.1
    have hnone := h.legacy hempty hlegacy.2
    refine HashMap.sameAs_iff.2 fun key => ?_
    rw [get_legacyCosts, hnone, if_neg List.not_mem_nil, HashMap.get, List.isEmpty_iff.1 hempty]
    rfl
  · exact hdeclared

theorem Rule.IsNormal.normalize_sameAs (h : rule.IsNormal)
    (horder : ∀ costs, (order costs).SameAs costs) :
    (normalizeProviderForStorage order rule).SameAs rule where
  rest := rfl
  modelMappings := (Rule.SameAs.refl rule).modelMappings
  customHeaders := (Rule.SameAs.refl rule).customHeaders
  modelCosts := (horder _).trans h.normalCosts_sameAs

theorem Rule.HasSingleMaps.sameAs (h : rule.HasSingleMaps) (hsame : rule.SameAs rule') :
    rule'.HasSingleMaps := by
  rw [← hsame.eq_of_hasSingleMaps h]
  exact h

end Normal

/-! ### The store of a normalised configuration -/

def NormalStore (stored : HashMap Rule) : Prop := ∀ entry ∈ stored.entries, entry.2.IsNormal

section Store

variable {env : NormalizeEnv} {stored : HashMap Rule}

theorem NormalStore.insertNew (h : NormalStore stored) {id : String} {rule : Rule}
    (hrule : rule.IsNormal) : NormalStore (stored.insertNew id rule) := by
  intro entry hmem
  rcases HashMap.mem_entries_insertNew hmem with hold | rfl
  · exact h entry hold
  · exact hrule

theorem NormalStore.turn (h : NormalStore stored) (provider : Rule × ℕ) :
    NormalStore (addProvider env stored provider) := by
  unfold addProvider
  dsimp only
  split_ifs
  · exact h
  · exact h.insertNew (isNormal_normalize (env.order_sameAs 0 provider.2) provider.1)

theorem NormalStore.embeddedTurn {place : ℕ} {scope : List String} {st : EmbeddedState}
    (h : NormalStore st.stored) (provider : Rule × ℕ) :
    NormalStore (addEmbedded env place scope st provider).stored := by
  have hrule : (embeddedRule env place provider).IsNormal :=
    isNormal_normalize (env.order_sameAs place provider.2) provider.1
  by_cases hscope : trimmed provider.1.id ≠ "" ∧ trimmed provider.1.id ∈ scope
  · cases hget : st.stored.get (trimmed provider.1.id) with
    | none =>
      rw [addEmbedded_of_none provider hscope.1 hscope.2 hget]
      exact h.insertNew hrule
    | some existing =>
      rw [addEmbedded_of_some provider hscope.1 hscope.2 hget]
      split_ifs
      · exact h.insertNew ⟨hrule.keys, hrule.legacy⟩
      · exact h
  · have hskip : trimmed provider.1.id = "" ∨ trimmed provider.1.id ∉ scope := by
      rwa [not_and_or, not_ne_iff] at hscope
    have hstays : addEmbedded env place scope st provider = st := if_pos hskip
    rw [hstays]
    exact h

theorem NormalStore.groups (h : NormalStore stored) (hasGlobal : Bool) (place : ℕ)
    (groups : List Group) : NormalStore (normalizeGroups env hasGlobal place stored groups).1 := by
  induction groups generalizing place stored with
  | nil => exact h
  | cons group groups ih =>
    refine ih ?_ (place + 1)
    exact @List.foldlRecOn _ _ (fun st : EmbeddedState => NormalStore st.stored)
      (group.providers.getD []).zipIdx _ { stored := stored } h
      fun st hst provider _ => hst.embeddedTurn provider

theorem normalStore_globalProviders (env : NormalizeEnv) (providers : List Rule) :
    NormalStore (globalProviders env providers) :=
  @List.foldlRecOn _ _ NormalStore providers.zipIdx (addProvider env) HashMap.empty
    (fun _ hmem => nomatch hmem) fun _ hst provider _ => hst.turn provider

theorem nodup_linkedIds (st : EmbeddedState) (ids : List String) : (linkedIds st ids).Nodup := by
  unfold linkedIds
  refine @List.foldlRecOn _ _ List.Nodup ids _ [] List.nodup_nil fun linked hlinked id _ => ?_
  dsimp only
  split_ifs with hskip hstored
  · exact hlinked
  · rw [← List.concat_eq_append]
    exact hlinked.concat fun hmem => hskip (.inr hmem)
  · exact hlinked

end Store

structure Group.SettledIn (stored : HashMap Rule) (group : Group) (ids : List String) : Prop where
  providerIds : group.providerIds = some ids
  providers : group.providers = some (ids.filterMap stored.get)
  stored : ∀ id ∈ ids, id ∈ stored.keys
  nodup : ids.Nodup
  nonBlank : ∀ id ∈ ids, id ≠ ""
  active : ∀ id ∈ group.activeProviderId, id ∈ ids

/-- A configuration that normalisation has made of a store. -/
structure Settled (stored : HashMap Rule) (config : ProxyConfig) : Prop where
  isStore : IsStore stored
  normal : NormalStore stored
  providers : config.providers = (stored.entries.map Prod.snd).filter Rule.hasModels
  groups : ∀ group ∈ config.groups, ∃ ids, group.SettledIn stored ids
  configured : ∀ group ∈ config.groups, group.isConfigured = true

theorem Group.SettledIn.step {stored stored' : HashMap Rule} {group : Group} {ids : List String}
    (h : group.SettledIn stored ids) (hstep : StoreStep stored stored') :
    group.SettledIn stored' ids := by
  have hget : ∀ id ∈ ids, stored'.get id = stored.get id := by
    intro id hmem
    obtain ⟨rule, hrule⟩ :=
      Option.isSome_iff_exists.1 (HashMap.get_isSome_iff.2 (h.stored id hmem))
    rw [hrule]
    exact hstep.stays id rule hrule
  refine { h with providers := ?_, stored := fun id hmem => ?_ }
  · rw [h.providers, List.filterMap_congr hget]
  · rw [← HashMap.get_isSome_iff, hget id hmem, HashMap.get_isSome_iff]
    exact h.stored id hmem

variable (env : NormalizeEnv)

theorem exists_settledIn (hasGlobal : Bool) (place : ℕ) (stored : HashMap Rule)
    (groups : List Group) :
    ∀ group ∈ (normalizeGroups env hasGlobal place stored groups).2,
      ∃ ids, group.SettledIn (normalizeGroups env hasGlobal place stored groups).1 ids := by
  induction groups generalizing place stored with
  | nil => exact fun _ hmem => nomatch hmem
  | cons group groups ih =>
    intro other hmem
    rcases List.mem_cons.1 hmem with rfl | hmem
    · obtain ⟨hstep, -⟩ := normalizeGroups_spec env hasGlobal (place + 1)
        (normalizeGroup env hasGlobal place stored group).1 groups
      refine ⟨_, Group.SettledIn.step ⟨rfl, rfl, mem_keys_of_mem_linkedIds, nodup_linkedIds _ _,
        fun id hid => (mem_linkedIds_iff.1 hid).1, fun id hid => ?_⟩ hstep⟩
      have hfilter : group.activeProviderId.filter (· ∈ linkedIds
          (addEmbeddedProviders env hasGlobal place stored group) (groupIds hasGlobal group)) =
            some id := hid
      exact of_decide_eq_true (Option.filter_eq_some_iff.1 hfilter).2
    · exact ih (place + 1) (normalizeGroup env hasGlobal place stored group).1 other hmem

theorem exists_settled (config : ProxyConfig) :
    ∃ stored, Settled stored (normalizeConfigForStorage env config) := by
  have hglobal := StoreStep.foldl id (storeStep_addProvider env)
    config.providers.zipIdx HashMap.empty
  obtain ⟨hstep, -⟩ := normalizeGroups_spec env
    (!(globalProviders env config.providers).isEmpty) 1 (globalProviders env config.providers)
    config.groups
  exact ⟨(normalizeGroups env (!(globalProviders env config.providers).isEmpty) 1
      (globalProviders env config.providers) config.groups).1,
    (hglobal.trans hstep).isStore isStore_empty,
    (normalStore_globalProviders env config.providers).groups _ _ _, rfl,
    fun group hmem => exists_settledIn env _ _ _ _ group (List.mem_of_mem_filter hmem),
    fun group hmem => (List.mem_filter.1 hmem).2⟩

/-! ### The providers of the configuration -/

def storedEntry (env : NormalizeEnv) (place : ℕ) (provider : Rule × ℕ) : String × Rule :=
  (trimmed provider.1.id, embeddedRule env place provider)

theorem map_fst_storedEntry (place : ℕ) (providers : List (Rule × ℕ)) :
    (providers.map (storedEntry env place)).map Prod.fst =
      providers.map fun provider => trimmed provider.1.id := by
  rw [List.map_map]
  rfl

/-- **Providers with distinct ids are all stored.** -/
theorem entries_globalProviders (env : NormalizeEnv) {providers : List Rule}
    (hne : ∀ provider ∈ providers, trimmed provider.id ≠ "")
    (hnodup : (providers.map fun provider => trimmed provider.id).Nodup) :
    (globalProviders env providers).entries = providers.zipIdx.map (storedEntry env 0) := by
  induction providers using List.reverseRecOn with
  | nil => rfl
  | append_singleton providers provider ih =>
    rw [List.map_append, List.map_singleton, ← List.concat_eq_append, List.nodup_concat] at hnodup
    have hbefore := ih (fun other hmem => hne other (List.mem_append_left _ hmem)) hnodup.2
    have hkeys : (globalProviders env providers).keys =
        providers.map fun provider => trimmed provider.id := by
      rw [HashMap.keys, hbefore, map_fst_storedEntry]
      conv_rhs => rw [← List.zipIdx_map_fst 0 providers]
      rw [List.map_map]
      rfl
    have hturn : globalProviders env (providers ++ [provider]) =
        (globalProviders env providers).insertNew (trimmed provider.id)
          (embeddedRule env 0 (provider, providers.length)) := by
      rw [globalProviders, List.zipIdx_append, List.foldl_append, Nat.zero_add,
        List.zipIdx_singleton, List.foldl_cons, List.foldl_nil]
      exact addProvider_of_ne env _ _ (hne provider (List.mem_append_right _ List.mem_cons_self))
    rw [hturn, HashMap.entries_insertNew _ (by rw [hkeys]; exact hnodup.1), hbefore,
      List.zipIdx_append, List.map_append, Nat.zero_add]
    rfl

theorem globalProviders_normal {providers sources : List Rule}
    (hsame : List.Forall₂ Rule.SameAs providers sources)
    (hnormal : ∀ source ∈ sources, source.IsNormal)
    (hne : ∀ source ∈ sources, trimmed source.id ≠ "")
    (hnodup : (sources.map fun source => trimmed source.id).Nodup) :
    (globalProviders env providers).entries = providers.zipIdx.map (storedEntry env 0) ∧
      List.Forall₂ Rule.SameAs ((globalProviders env providers).entries.map Prod.snd) sources ∧
        (globalProviders env providers).keys = sources.map fun source => trimmed source.id := by
  have hids : (providers.map fun provider => trimmed provider.id) =
      sources.map fun source => trimmed source.id := by
    have hmap := congrArg (List.map trimmed) (map_id_of_sameAs hsame)
    rwa [List.map_map, List.map_map] at hmap
  have hentries := @entries_globalProviders env providers (fun provider hmem => by
    obtain ⟨source, hsource, hrel⟩ := exists_mem_of_forall₂ hsame hmem
    rw [hrel.id_eq]
    exact hne source hsource) (hids ▸ hnodup)
  refine ⟨hentries, ?_, ?_⟩
  · rw [hentries, List.map_map]
    have hfrom : ∀ (xs ys : List Rule) (k : ℕ), List.Forall₂ Rule.SameAs xs ys →
        (∀ y ∈ ys, y.IsNormal) →
          List.Forall₂ Rule.SameAs ((xs.zipIdx k).map (Prod.snd ∘ storedEntry env 0)) ys := by
      intro xs ys k hrel
      induction hrel generalizing k with
      | nil => exact fun _ => .nil
      | @cons x y xs ys hhead _ ih =>
        intro hin
        rw [List.zipIdx_cons, List.map_cons]
        have hy := hin y List.mem_cons_self
        exact .cons (((hy.sameAs hhead.symm).normalize_sameAs (env.order_sameAs _ _)).trans hhead)
          (ih (k + 1) fun z hz => hin z (List.mem_cons_of_mem _ hz))
    exact hfrom _ _ 0 hsame hnormal
  · rw [HashMap.keys, hentries, map_fst_storedEntry, ← hids]
    conv_rhs => rw [← List.zipIdx_map_fst 0 providers]
    rw [List.map_map]
    rfl

/-! ### The embedded providers of a group -/

def TurnsFit (env : NormalizeEnv) (place : ℕ) (stored : HashMap Rule) (turns : List (Rule × ℕ)) :
    Prop :=
  ∀ provider ∈ turns, ∀ existing, stored.get (trimmed provider.1.id) = some existing →
    existing = embeddedRule env place provider

section Turns

variable {env : NormalizeEnv} {place : ℕ} {scope : List String} {stored : HashMap Rule}
  {turns : List (Rule × ℕ)}

def newEntries (env : NormalizeEnv) (place : ℕ) (stored : HashMap Rule) (turns : List (Rule × ℕ)) :
    List (String × Rule) :=
  (turns.filter fun provider => trimmed provider.1.id ∉ stored.keys).map (storedEntry env place)

/-- **Providers that fit are stored under their ids, without a copy.** -/
theorem addEmbedded_fit (hscope : ∀ provider ∈ turns, trimmed provider.1.id ∈ scope)
    (hne : ∀ provider ∈ turns, trimmed provider.1.id ≠ "")
    (hnodup : (turns.map fun provider => trimmed provider.1.id).Nodup)
    (hfit : TurnsFit env place stored turns) :
    ∃ st, turns.foldl (addEmbedded env place scope) { stored := stored } = st ∧ st.remap = [] ∧
      st.stored.entries = stored.entries ++ newEntries env place stored turns ∧
      ∀ provider ∈ turns, st.stored.get (trimmed provider.1.id) =
        some (embeddedRule env place provider) := by
  refine ⟨_, rfl, ?_⟩
  unfold newEntries
  -- on the turns, from the last one
  induction turns using List.reverseRecOn with
  | nil => exact ⟨rfl, (List.append_nil _).symm, fun _ hmem => nomatch hmem⟩
  | append_singleton before provider ih =>
    rw [List.map_append, List.map_singleton, ← List.concat_eq_append, List.nodup_concat] at hnodup
    have hold : ∀ other ∈ before, other ∈ before ++ [provider] :=
      fun other hmem => List.mem_append_left _ hmem
    have hthis : provider ∈ before ++ [provider] := List.mem_append_right _ List.mem_cons_self
    obtain ⟨hremap, hentries, hget⟩ := ih (fun other hmem => hscope other (hold other hmem))
      (fun other hmem => hne other (hold other hmem)) hnodup.2
      fun other hmem => hfit other (hold other hmem)
    have hstep : StoreStep stored (before.foldl (addEmbedded env place scope)
        { stored := stored }).stored :=
      StoreStep.foldl EmbeddedState.stored (storeStep_addEmbedded env place scope) before
        { stored := stored }
    rw [List.foldl_append, List.foldl_cons, List.foldl_nil, List.filter_append, List.map_append]
    generalize before.foldl (addEmbedded env place scope) { stored := stored } = st at *
    cases hkey : stored.get (trimmed provider.1.id) with
    | some existing =>
      have hmem : trimmed provider.1.id ∈ stored.keys := HashMap.mem_keys_of_get hkey
      -- the id is stored, and the turn changes nothing
      have hfound := hstep.stays _ _ hkey
      have hsame := hfit provider hthis existing hkey
      have hstays : addEmbedded env place scope st provider = st := by
        rw [addEmbedded_of_some provider (hne provider hthis) (hscope provider hthis) hfound, hsame]
        exact if_neg fun h => h rfl
      have hskip : [provider].filter (fun provider => trimmed provider.1.id ∉ stored.keys) =
          [] := by
        simp [hmem]
      rw [hstays, hskip, List.map_nil, List.append_nil]
      refine ⟨hremap, hentries, fun other hother => ?_⟩
      rcases List.mem_append.1 hother with hother | hother
      · exact hget other hother
      · rw [List.mem_singleton.1 hother, hfound, hsame]
    | none =>
      have hmem : trimmed provider.1.id ∉ stored.keys := HashMap.get_eq_none_iff.1 hkey
      -- the id is new, for the store and for the turns before
      have hnew : trimmed provider.1.id ∉ st.stored.keys := by
        rw [HashMap.keys, hentries, List.map_append, map_fst_storedEntry, List.mem_append]
        rintro (hin | hin)
        · exact hmem hin
        · obtain ⟨other, hother, heq⟩ := List.mem_map.1 hin
          exact hnodup.1 (List.mem_map.2 ⟨other, List.mem_of_mem_filter hother, heq⟩)
      have hturn := @addEmbedded_of_none env place scope st provider (hne provider hthis)
        (hscope provider hthis) (HashMap.get_eq_none_iff.2 hnew)
      have htake : [provider].filter (fun provider => trimmed provider.1.id ∉ stored.keys) =
          [provider] := by
        simp [hmem]
      rw [hturn, htake]
      dsimp only
      refine ⟨hremap, ?_, fun other hother => ?_⟩
      · rw [HashMap.entries_insertNew _ hnew, hentries, List.append_assoc]
        rfl
      · rcases List.mem_append.1 hother with hother | hother
        · exact HashMap.get_insertNew_of_get _ (hget other hother)
        · rw [List.mem_singleton.1 hother]
          exact HashMap.get_insertNew_self _ hnew

theorem linkedIds_self {st : EmbeddedState} (hremap : st.remap = []) {ids : List String}
    (htrimmed : ∀ id ∈ ids, trimmed id = id) (hne : ∀ id ∈ ids, id ≠ "")
    (hstored : ∀ id ∈ ids, id ∈ st.stored.keys) (hnodup : ids.Nodup) : linkedIds st ids = ids := by
  unfold linkedIds
  rw [hremap]
  induction ids using List.reverseRecOn with
  | nil => rfl
  | append_singleton ids id ih =>
    have hold : ∀ other ∈ ids, other ∈ ids ++ [id] := fun other hmem => List.mem_append_left _ hmem
    have hthis : id ∈ ids ++ [id] := List.mem_append_right _ List.mem_cons_self
    rw [← List.concat_eq_append, List.nodup_concat] at hnodup
    have hbefore := ih (fun other hmem => htrimmed other (hold other hmem))
      (fun other hmem => hne other (hold other hmem))
      (fun other hmem => hstored other (hold other hmem)) hnodup.2
    rw [List.foldl_append, List.foldl_cons, List.foldl_nil, hbefore]
    dsimp only [List.lookup_nil, Option.getD_none]
    rw [htrimmed id hthis, if_neg (not_or.2 ⟨hne id hthis, hnodup.1⟩),
      if_pos (show st.stored.contains id = true from decide_eq_true (hstored id hthis))]

end Turns

/-! ### A settled group again -/

def Reflects (final stored : HashMap Rule) : Prop :=
  ∀ key rule, stored.get key = some rule → ∃ source, final.get key = some source ∧
    rule.SameAs source

section Group

variable {env : NormalizeEnv} {place : ℕ} {hasGlobal : Bool} {final stored : HashMap Rule}
  {group group' : Group} {ids : List String}

theorem Group.SettledIn.map_id (h : group.SettledIn final ids)
    (hexact : ∀ id ∈ ids, ∀ rule, final.get id = some rule → rule.id = id) :
    (group.providers.getD []).map Rule.id = ids := by
  rw [h.providers, Option.getD_some]
  have hstored := h.stored
  clear h
  induction ids with
  | nil => rfl
  | cons id ids ih =>
    obtain ⟨rule, hrule⟩ := Option.isSome_iff_exists.1
      (HashMap.get_isSome_iff.2 (hstored id List.mem_cons_self))
    rw [List.filterMap_cons_some hrule, List.map_cons, hexact id List.mem_cons_self rule hrule,
      ih (fun other hmem => hexact other (List.mem_cons_of_mem _ hmem))
        fun other hmem => hstored other (List.mem_cons_of_mem _ hmem)]

theorem Group.SettledIn.groupIds_eq (h : group.SettledIn final ids)
    (hexact : ∀ id ∈ ids, ∀ rule, final.get id = some rule → rule.id = id)
    (hsame : group'.SameAs group) : groupIds hasGlobal group' = ids := by
  have hembedded : (group'.providers.getD []).map Rule.id = ids :=
    (map_id_of_sameAs hsame.providers_getD).trans (h.map_id hexact)
  have hlisted : group'.providerIds = some ids := hsame.providerIds_eq.trans h.providerIds
  unfold groupIds
  rw [hlisted, hembedded]
  cases hasGlobal <;> rfl

variable (h : group.SettledIn final ids)
  (hexact : ∀ id ∈ ids, ∀ rule, final.get id = some rule → rule.id = id)
  (hsame : group'.SameAs group)

include h hexact hsame in
theorem Group.SettledIn.turn {provider : Rule × ℕ}
    (hmem : provider ∈ (group'.providers.getD []).zipIdx) :
    provider.1.id ∈ ids ∧ ∃ source ∈ group.providers.getD [], provider.1.SameAs source ∧
      final.get provider.1.id = some source := by
  have hprovider : provider.1 ∈ group'.providers.getD [] := by
    obtain ⟨-, -, heq⟩ := List.mem_zipIdx hmem
    exact heq ▸ List.getElem_mem _
  have hmap : (group'.providers.getD []).map Rule.id = ids :=
    (map_id_of_sameAs hsame.providers_getD).trans (h.map_id hexact)
  obtain ⟨source, hsource, hrel⟩ := exists_mem_of_forall₂ hsame.providers_getD hprovider
  refine ⟨hmap ▸ List.mem_map_of_mem hprovider, source, hsource, hrel, ?_⟩
  rw [h.providers, Option.getD_some] at hsource
  obtain ⟨id, hid, hget⟩ := List.mem_filterMap.1 hsource
  rw [hrel.id_eq, hexact id hid source hget, hget]

include h hexact hsame in
theorem Group.SettledIn.turnIds (htrimmed : ∀ id ∈ ids, trimmed id = id) :
    (group'.providers.getD []).zipIdx.map (fun provider => trimmed provider.1.id) = ids := by
  have hmap : (group'.providers.getD []).map Rule.id = ids :=
    (map_id_of_sameAs hsame.providers_getD).trans (h.map_id hexact)
  have hfst : (group'.providers.getD []).zipIdx.map (fun provider => trimmed provider.1.id) =
      ((group'.providers.getD []).map Rule.id).map trimmed := by
    conv_rhs => rw [← List.zipIdx_map_fst 0 (group'.providers.getD [])]
    rw [List.map_map, List.map_map]
    rfl
  rw [hfst, hmap]
  conv_rhs => rw [← List.map_id ids]
  exact List.map_congr_left htrimmed

theorem embeddedRule_sameAs_source (hnormal : NormalStore final) {provider : Rule × ℕ}
    {source : Rule} {id : String} (hget : final.get id = some source)
    (hrel : provider.1.SameAs source) : (embeddedRule env place provider).SameAs source := by
  have hrule : source.IsNormal := hnormal _ (HashMap.get_eq_some_iff.1 hget)
  exact ((hrule.sameAs hrel.symm).normalize_sameAs (env.order_sameAs _ _)).trans hrel

include h hexact hsame in
theorem addEmbeddedProviders_settled (hstore : IsStore final) (hnormal : NormalStore final)
    (hfit : TurnsFit env place stored (group'.providers.getD []).zipIdx) :
    ∃ st, addEmbeddedProviders env hasGlobal place stored group' = st ∧ linkedIds st ids = ids ∧
      st.stored.entries =
        stored.entries ++ newEntries env place stored (group'.providers.getD []).zipIdx ∧
      ∀ id ∈ ids, ∃ rule source, st.stored.get id = some rule ∧ final.get id = some source ∧
        rule.SameAs source := by
  have htrimmed : ∀ id ∈ ids, trimmed id = id :=
    fun id hmem => hstore.trimmed_key (h.stored id hmem)
  have hzip := h.turnIds hexact hsame htrimmed
  have hscope : ∀ provider ∈ (group'.providers.getD []).zipIdx,
      trimmed provider.1.id ∈ groupScope hasGlobal group' := by
    intro provider hmem
    obtain ⟨hid, -⟩ := h.turn hexact hsame hmem
    rw [groupScope, h.groupIds_eq hexact hsame]
    refine List.mem_filter.2 ⟨List.mem_map_of_mem hid, ?_⟩
    rw [htrimmed _ hid]
    exact decide_eq_true (h.nonBlank _ hid)
  obtain ⟨st, hst, hremap, hentries, hget⟩ := addEmbedded_fit hscope
    (fun provider hmem => mem_groupScope (hscope provider hmem)) (hzip ▸ h.nodup) hfit
  have hstored : ∀ id ∈ ids, ∃ rule source, st.stored.get id = some rule ∧
      final.get id = some source ∧ rule.SameAs source := by
    intro id hmem
    rw [← hzip] at hmem
    obtain ⟨provider, hprovider, rfl⟩ := List.mem_map.1 hmem
    obtain ⟨hid, source, -, hrel, hsource⟩ := h.turn hexact hsame hprovider
    exact ⟨_, source, hget provider hprovider, by rw [htrimmed _ hid, hsource],
      embeddedRule_sameAs_source hnormal hsource hrel⟩
  refine ⟨st, hst, linkedIds_self hremap htrimmed h.nonBlank (fun id hmem => ?_) h.nodup, hentries,
    hstored⟩
  obtain ⟨rule, -, hrule, -⟩ := hstored id hmem
  exact HashMap.mem_keys_of_get hrule

include h hexact hsame in
/-- **A settled group stays as it is**, when what it embeds is new or equals what is stored. -/
theorem normalizeGroup_settled (hstore : IsStore final) (hnormal : NormalStore final)
    (hfit : TurnsFit env place stored (group'.providers.getD []).zipIdx) :
    (normalizeGroup env hasGlobal place stored group').2.SameAs group ∧
      (normalizeGroup env hasGlobal place stored group').1.entries =
        stored.entries ++ newEntries env place stored (group'.providers.getD []).zipIdx := by
  obtain ⟨st, hadded, hlinked, hentries, hstored⟩ :=
    @addEmbeddedProviders_settled env place hasGlobal final stored group group' ids h hexact hsame
      hstore hnormal hfit
  have hactive : group'.activeProviderId = group.activeProviderId := by
    have hparts := congrArg Group.activeProviderId hsame.rest
    exact hparts
  have hkept : group'.activeProviderId.filter (· ∈ ids) = group'.activeProviderId := by
    rw [hactive]
    cases hset : group.activeProviderId with
    | none => rfl
    | some active => exact Option.filter_some_pos (decide_eq_true (h.active active hset))
  have hgroup : normalizeGroup env hasGlobal place stored group' = (st.stored, { group' with
      providerIds := some ids
      activeProviderId := group'.activeProviderId
      providers := some (ids.filterMap st.stored.get) }) := by
    unfold normalizeGroup
    dsimp only
    rw [hadded, h.groupIds_eq hexact hsame, hlinked, hkept]
  rw [hgroup]
  refine ⟨⟨?_, ?_⟩, hentries⟩
  · show ({ group' with providerIds := some ids, providers := none } : Group) =
      { group with providers := none }
    rw [← hsame.rest, ← hsame.providerIds_eq.trans h.providerIds]
  · rw [h.providers]
    exact .some (forall₂_filterMap hstored)

end Group

/-! ### Settled groups again -/

/-- What the loop over the groups has stored after some of them: what was there, and providers that
these embed. -/
structure Reached (final start stored : HashMap Rule) (before : List Group) : Prop where
  step : StoreStep start stored
  entries : ∃ new, stored.entries = start.entries ++ new ∧ ∀ entry ∈ new, entry.1 ∉ start.keys ∧
    (∃ group ∈ before, ∃ provider ∈ group.providers.getD [], trimmed provider.id = entry.1) ∧
      ∃ source, final.get entry.1 = some source ∧ entry.2.SameAs source

section Run

variable {env : NormalizeEnv} {place : ℕ} {hasGlobal : Bool} {final start stored : HashMap Rule}
  {before : List Group} {group group' : Group} {ids : List String}

theorem Reached.refl (final start : HashMap Rule) (before : List Group) :
    Reached final start start before :=
  ⟨.refl start, [], (List.append_nil _).symm, fun _ hmem => nomatch hmem⟩

theorem Reached.reflects (h : Reached final start stored before) (hstart : Reflects final start) :
    Reflects final stored := by
  obtain ⟨new, hentries, hnew⟩ := h.entries
  intro key rule hget
  have hmem := HashMap.get_eq_some_iff.1 hget
  rw [hentries] at hmem
  rcases List.mem_append.1 hmem with hmem | hmem
  · exact hstart key rule (HashMap.get_eq_some_iff.2 hmem)
  · exact (hnew _ hmem).2.2

theorem Reached.embedded (h : Reached final start stored before) {key : String}
    (hmem : key ∈ stored.keys) (hnot : key ∉ start.keys) :
    ∃ group ∈ before, ∃ provider ∈ group.providers.getD [], trimmed provider.id = key := by
  obtain ⟨new, hentries, hnew⟩ := h.entries
  rw [HashMap.keys, hentries, List.map_append] at hmem
  obtain ⟨entry, hentry, rfl⟩ := List.mem_map.1 ((List.mem_append.1 hmem).resolve_left hnot)
  exact (hnew entry hentry).2.1

/-- **One group more.** -/
theorem Reached.next (h : Reached final start stored before) (hstore : IsStore final)
    (hnormal : NormalStore final) (hsettled : group.SettledIn final ids)
    (hexact : ∀ id ∈ ids, ∀ rule, final.get id = some rule → rule.id = id)
    (hsame : group'.SameAs group)
    (hfit : TurnsFit env place stored (group'.providers.getD []).zipIdx) :
    Reached final start (normalizeGroup env hasGlobal place stored group').1
      (before ++ [group']) := by
  have hstep := (normalizeGroup_spec env hasGlobal place stored group').1
  obtain ⟨-, hentries'⟩ := @normalizeGroup_settled env place hasGlobal final stored group group' ids
    hsettled hexact hsame hstore hnormal hfit
  obtain ⟨new, hentries, hnew⟩ := h.entries
  refine ⟨h.step.trans hstep, new ++ newEntries env place stored (group'.providers.getD []).zipIdx,
    by rw [hentries', hentries, List.append_assoc], fun entry hentry => ?_⟩
  rcases List.mem_append.1 hentry with hentry | hentry
  · obtain ⟨hkey, ⟨other, hother, hprovider⟩, hsource⟩ := hnew entry hentry
    exact ⟨hkey, ⟨other, List.mem_append_left _ hother, hprovider⟩, hsource⟩
  · obtain ⟨provider, hmem, rfl⟩ := List.mem_map.1 hentry
    obtain ⟨hprovider, hfresh⟩ := List.mem_filter.1 hmem
    have hin : provider.1 ∈ group'.providers.getD [] := by
      obtain ⟨-, -, heq⟩ := List.mem_zipIdx hprovider
      exact heq ▸ List.getElem_mem _
    obtain ⟨hid, source, -, hrel, hget⟩ := hsettled.turn hexact hsame hprovider
    have htrimmed : trimmed provider.1.id = provider.1.id :=
      hstore.trimmed_key (hsettled.stored _ hid)
    have hfound : final.get (trimmed provider.1.id) = some source := by rw [htrimmed, hget]
    refine ⟨fun hkey => of_decide_eq_true hfresh ?_, ⟨group', List.mem_append_right _
      List.mem_cons_self, provider.1, hin, rfl⟩, source, hfound,
        embeddedRule_sameAs_source hnormal hget hrel⟩
    rw [HashMap.keys, hentries, List.map_append]
    exact List.mem_append_left _ hkey

/-- **Settled groups stay as they are**, when what they embed is new or equals what is stored. -/
theorem normalizeGroups_settled {rest rest' : List Group} (hstore : IsStore final)
    (hnormal : NormalStore final) (hstart : Reflects final start)
    (hsettled : ∀ group ∈ rest, ∃ ids, group.SettledIn final ids ∧
      ∀ id ∈ ids, ∀ rule, final.get id = some rule → rule.id = id)
    (hsame : List.Forall₂ Group.SameAs rest' rest)
    (hfit : ∀ more group' after stored, rest' = more ++ group' :: after →
      Reached final start stored (before ++ more) → Reflects final stored →
        TurnsFit env (place + more.length) stored (group'.providers.getD []).zipIdx)
    (h : Reached final start stored before) :
    List.Forall₂ Group.SameAs (normalizeGroups env hasGlobal place stored rest').2 rest ∧
      Reached final start (normalizeGroups env hasGlobal place stored rest').1
        (before ++ rest') := by
  induction hsame generalizing place stored before with
  | nil => exact ⟨.nil, by rw [List.append_nil]; exact h⟩
  | @cons group' group rest' rest hhead hrest ih =>
    obtain ⟨ids, hids, hexact⟩ := hsettled group List.mem_cons_self
    have hthis : TurnsFit env place stored (group'.providers.getD []).zipIdx :=
      hfit [] group' rest' stored rfl (by rwa [List.append_nil]) (h.reflects hstart)
    obtain ⟨hsame', -⟩ := @normalizeGroup_settled env place hasGlobal final stored group group' ids
      hids hexact hhead hstore hnormal hthis
    have hnext := @Reached.next env place hasGlobal final start stored before group group' ids h
      hstore hnormal hids hexact hhead hthis
    obtain ⟨hothers, hreached⟩ := ih
      (fun other hmem => hsettled other (List.mem_cons_of_mem _ hmem))
      (fun more other after stored' heq hreached hreflects => by
        have hmore := hfit (group' :: more) other after stored' (by rw [heq]; rfl)
          (by rwa [List.append_cons]) hreflects
        rwa [List.length_cons, Nat.add_comm more.length, ← Nat.add_assoc] at hmore) hnext
    exact ⟨.cons hsame' hothers, by rw [List.append_cons]; exact hreached⟩

end Run

/-! ### A settled configuration again -/

theorem Group.SameAs.isConfigured_eq {group group' : Group} (h : group.SameAs group') :
    group.isConfigured = group'.isConfigured := by
  have htable : group.routingTable = group'.routingTable := by
    have hparts := congrArg Group.routingTable h.rest
    exact hparts
  have hproviders : (group.providers.any fun providers => !providers.isEmpty) =
      group'.providers.any fun providers => !providers.isEmpty := by
    have hrel := h.providers
    generalize group.providers = providers at hrel ⊢
    generalize group'.providers = providers' at hrel ⊢
    cases hrel with
    | none => rfl
    | some hrules =>
      cases hrules with
      | nil => rfl
      | cons => rfl
  rw [Group.isConfigured, Group.isConfigured, htable, h.providerIds_eq, hproviders]

theorem forall₂_filter {α : Type} {R : α → α → Prop} {p : α → Bool} {xs ys : List α}
    (h : List.Forall₂ R xs ys) (hp : ∀ x y, R x y → p x = p y) (hall : ∀ y ∈ ys, p y = true) :
    List.Forall₂ R (xs.filter p) ys := by
  have hkeep : ∀ x ∈ xs, p x = true := by
    intro x hx
    obtain ⟨y, hy, hR⟩ := exists_mem_of_forall₂ h hx
    rw [hp x y hR, hall y hy]
  rwa [List.filter_eq_self.2 hkeep]

section Config

variable {env : NormalizeEnv} {final : HashMap Rule} {config settled : ProxyConfig}

theorem Settled.exact (h : Settled final settled) (hvalid : Valid settled) {group : Group}
    (hmem : group ∈ settled.groups) : ∃ ids, group.SettledIn final ids ∧
      ∀ id ∈ ids, ∀ rule, final.get id = some rule → rule.id = id := by
  obtain ⟨ids, hids⟩ := h.groups group hmem
  have hfrom : ComesFrom final settled := ⟨h.isStore, h.providers, fun other hother => by
    obtain ⟨ids, hids⟩ := h.groups other hother
    exact ⟨ids, hids.providerIds, hids.stored, hids.providers⟩⟩
  exact ⟨ids, hids, fun id hid rule hget =>
    hvalid.id_of_get hfrom hmem hids.providerIds hids.providers hid hget⟩

/-- **A settled configuration stays as it is**, when its providers are stored first, and what the
groups embed is new or equals what is stored. -/
theorem normalizeConfig_settled (h : Settled final settled) (hvalid : Valid settled)
    (hgroups : List.Forall₂ Group.SameAs config.groups settled.groups)
    (hstart : Reflects final (globalProviders env config.providers))
    (hproviders : List.Forall₂ Rule.SameAs
      (((globalProviders env config.providers).entries.map Prod.snd).filter Rule.hasModels)
        settled.providers)
    (hkeys : ∀ provider ∈ settled.providers,
      trimmed provider.id ∈ (globalProviders env config.providers).keys)
    (hfit : ∀ before group' after stored, config.groups = before ++ group' :: after →
      Reached final (globalProviders env config.providers) stored before →
        Reflects final stored →
          TurnsFit env (1 + before.length) stored (group'.providers.getD []).zipIdx) :
    List.Forall₂ Group.SameAs (normalizeConfigForStorage env config).groups settled.groups ∧
      List.Forall₂ Rule.SameAs (normalizeConfigForStorage env config).providers
        settled.providers := by
  obtain ⟨hsame, hreached⟩ := @normalizeGroups_settled env 1
    (!(globalProviders env config.providers).isEmpty) final _ _ [] _ _ h.isStore h.normal hstart
    (fun group hmem => h.exact hvalid hmem) hgroups hfit (.refl final _ [])
  constructor
  · exact forall₂_filter hsame (fun _ _ hR => hR.isConfigured_eq) h.configured
  · obtain ⟨new, hentries, hnew⟩ := hreached.entries
    have hnone : (new.map Prod.snd).filter Rule.hasModels = [] := by
      rw [List.filter_eq_nil_iff]
      intro rule hrule hmodels
      obtain ⟨entry, hentry, rfl⟩ := List.mem_map.1 hrule
      obtain ⟨hkey, -, source, hget, hrel⟩ := hnew entry hentry
      -- a source with models is a provider of the configuration, which is stored already
      have hprovider : source ∈ settled.providers := by
        rw [h.providers]
        exact List.mem_filter.2 ⟨mem_values_of_get hget, hrel.hasModels_eq ▸ hmodels⟩
      exact hkey (h.isStore.id hget ▸ hkeys source hprovider)
    have hresult : (normalizeConfigForStorage env config).providers =
        ((globalProviders env config.providers).entries.map Prod.snd).filter Rule.hasModels := by
      have hvalues : (normalizeConfigForStorage env config).providers =
          ((normalizeGroups env (!(globalProviders env config.providers).isEmpty) 1
            (globalProviders env config.providers) config.groups).1.entries.map Prod.snd).filter
              Rule.hasModels := rfl
      rw [hvalues, hentries, List.map_append, List.filter_append, hnone, List.append_nil]
    rw [hresult]
    exact hproviders

theorem Settled.nodup_trimmed (h : Settled final settled) :
    (settled.providers.map fun provider => trimmed provider.id).Nodup := by
  rw [h.providers]
  refine List.Nodup.sublist (List.filter_sublist.map _) ?_
  rw [List.map_map]
  have hkeys : final.entries.map ((fun provider => trimmed provider.id) ∘ Prod.snd) =
      final.entries.map Prod.fst := List.map_congr_left h.isStore
  rw [hkeys]
  exact final.nodup

theorem Settled.get_of_mem (h : Settled final settled) {provider : Rule}
    (hmem : provider ∈ settled.providers) :
    final.get (trimmed provider.id) = some provider ∧ provider.hasModels = true := by
  rw [h.providers] at hmem
  obtain ⟨hvalue, hmodels⟩ := List.mem_filter.1 hmem
  exact ⟨get_of_mem_values h.isStore hvalue, hmodels⟩

/-- **The providers of a settled configuration are stored as they are.** -/
theorem globalProviders_settled (h : Settled final settled) (hvalid : Valid settled)
    {providers : List Rule} (hsame : List.Forall₂ Rule.SameAs providers settled.providers) :
    Reflects final (globalProviders env providers) ∧
      List.Forall₂ Rule.SameAs
        (((globalProviders env providers).entries.map Prod.snd).filter Rule.hasModels)
          settled.providers ∧
      ∀ provider ∈ settled.providers,
        trimmed provider.id ∈ (globalProviders env providers).keys := by
  have hnormal : ∀ source ∈ settled.providers, source.IsNormal := fun source hmem =>
    h.normal _ (HashMap.get_eq_some_iff.1 (h.get_of_mem hmem).1)
  obtain ⟨hentries, hvalues, hkeys⟩ := globalProviders_normal env hsame hnormal
    (fun source hmem => hvalid.providers.id source hmem) h.nodup_trimmed
  refine ⟨fun key rule hget => ?_, forall₂_filter hvalues (fun _ _ hR => hR.hasModels_eq)
    fun provider hmem => (h.get_of_mem hmem).2, fun provider hmem => ?_⟩
  · have hmem := HashMap.get_eq_some_iff.1 hget
    obtain ⟨source, hsource, hrel⟩ := exists_mem_of_forall₂ hvalues
      (List.mem_map.2 ⟨(key, rule), hmem, rfl⟩)
    rw [hentries] at hmem
    obtain ⟨provider, -, heq⟩ := List.mem_map.1 hmem
    have hkey : key = trimmed source.id := by
      rw [← hrel.id_eq]
      obtain ⟨rfl, rfl⟩ := Prod.mk.inj heq
      rfl
    exact ⟨source, hkey ▸ (h.get_of_mem hsource).1, hrel⟩
  · rw [hkeys]
    exact List.mem_map.2 ⟨provider, hmem, rfl⟩

end Config

end AiOpenRouter
