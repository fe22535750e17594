/-
Normalisation in two iteration orders of the hash maps.

A run of the loops is compared with the runs on the same input in other orders.

* `OrderIndependent` says that they all have the same outcome, and that no copy is
  made of a provider that equals the stored one;
* `OrderFree` is the condition on the turns of the loops;
* `orderIndependent_iff`: the outcome is independent of the order exactly when it
  holds.
-/
import AiOpenRouter.JsonText
import AiOpenRouter.ProviderForms
import AiOpenRouter.ProviderReferences

namespace AiOpenRouter

/-! ### Outcomes in every order -/

def hasGlobalProviders (env : NormalizeEnv) (providers : List Rule) : Bool :=
  !(globalProviders env providers).isEmpty

def globalBefore (env : NormalizeEnv) (providers : List Rule) (i : ℕ) : HashMap Rule :=
  (providers.zipIdx.take i).foldl (addProvider env) HashMap.empty

def groupsBefore (env : NormalizeEnv) (groups : List Group) (providers : List Rule) (n : ℕ) :
    HashMap Rule × List Group :=
  normalizeGroups env (hasGlobalProviders env providers) 1 (globalProviders env providers)
    (groups.take n)

def stateBefore (env : NormalizeEnv) (groups : List Group) (providers : List Rule) (n : ℕ)
    (group : Group) (i : ℕ) : EmbeddedState :=
  ((group.providers.getD []).zipIdx.take i).foldl
    (addEmbedded env (n + 1) (groupScope (hasGlobalProviders env providers) group))
    { stored := (groupsBefore env groups providers n).1 }

structure Embeds (hasGlobal : Bool) (groups : List Group) (n : ℕ) (group : Group) (i : ℕ)
    (provider : Rule) : Prop where
  atGroup : groups[n]? = some group
  atProvider : (group.providers.getD [])[i]? = some provider
  inScope : trimmed provider.id ∈ groupScope hasGlobal group

def NoEqualCopied (env : NormalizeEnv) (groups : List Group) (providers : List Rule) : Prop :=
  ∀ n group i provider, Embeds (hasGlobalProviders env providers) groups n group i provider →
    ∀ existing normal, (stateBefore env groups providers n group i).stored.get
      (trimmed provider.id) = some existing → provider.HasForm normal → existing.SameAs normal →
        stateBefore env groups providers n group (i + 1) =
          stateBefore env groups providers n group i

/-- **The outcome is the same in every order**, by content, and nothing equal is copied. -/
def OrderIndependent (env : NormalizeEnv) (groups : List Group) (providers : List Rule) : Prop :=
  ∀ (env' : NormalizeEnv) (groups' : List Group) (providers' : List Rule),
    env'.toStr = env.toStr → env'.newUuid = env.newUuid →
      List.Forall₂ Group.SameAs groups groups' → List.Forall₂ Rule.SameAs providers providers' →
        List.Forall₂ Group.SameAs (normalizeGroupsAndProviders env groups providers).1
          (normalizeGroupsAndProviders env' groups' providers').1 ∧
        List.Forall₂ Rule.SameAs (normalizeGroupsAndProviders env groups providers).2
          (normalizeGroupsAndProviders env' groups' providers').2 ∧
        NoEqualCopied env' groups' providers'

/-- What the turns meet: the costs of a provider that is stored or compared agree, and a stored
provider that equals an embedded one has at most one entry in each of its hash maps. -/
structure OrderFree (env : NormalizeEnv) (groups : List Group) (providers : List Rule) : Prop where
  global : ∀ i provider, providers[i]? = some provider → trimmed provider.id ≠ "" →
    trimmed provider.id ∉ (providers.take i).map (fun other => trimmed other.id) →
      provider.CostsAgree
  embedded : ∀ n group i provider,
    Embeds (hasGlobalProviders env providers) groups n group i provider →
      provider.CostsAgree ∧
        ∀ existing, (stateBefore env groups providers n group i).stored.get
          (trimmed provider.id) = some existing →
            existing.SameAs (embeddedRule env (n + 1) (provider, i)) → existing.HasSingleMaps

/-! ### One turn after the other -/

variable {α β : Type} {i : ℕ} {group group' : Group} {provider : Rule} (env : NormalizeEnv)

theorem foldl_take_succ {f : β → α → β} {xs : List α} {x : α} (init : β) (h : xs[i]? = some x) :
    (xs.take (i + 1)).foldl f init = f ((xs.take i).foldl f init) x := by
  rw [List.take_add_one, h, List.foldl_append]
  rfl

theorem zipIdx_getElem? {xs : List α} {x : α} (h : xs[i]? = some x) :
    xs.zipIdx[i]? = some (x, i) := by
  rw [List.getElem?_zipIdx, h, Option.map_some, Nat.zero_add]

theorem rel_getElem? {R : α → β → Prop} {xs : List α} {ys : List β} (h : List.Forall₂ R xs ys)
    (i : ℕ) : Option.Rel R xs[i]? ys[i]? := by
  induction h generalizing i with
  | nil => exact .none
  | cons hR _ ih =>
    cases i with
    | zero => exact .some hR
    | succ i => exact ih i

theorem none_or_some_of_rel {R : α → β → Prop} {x : Option α} {y : Option β}
    (h : Option.Rel R x y) :
    (x = none ∧ y = none) ∨ ∃ a b, x = some a ∧ y = some b ∧ R a b := by
  cases h with
  | none => exact .inl ⟨rfl, rfl⟩
  | some hR => exact .inr ⟨_, _, rfl, rfl, hR⟩

theorem exists_left_of_rel {R : α → β → Prop} {x : Option α} {y : β} (h : Option.Rel R x (some y)) :
    ∃ a, x = some a ∧ R a y := by
  cases h with
  | some hR => exact ⟨_, rfl, hR⟩

section Turns

variable (env : NormalizeEnv) (groups : List Group) (providers : List Rule)

theorem globalBefore_succ {i : ℕ} {provider : Rule} (h : providers[i]? = some provider) :
    globalBefore env providers (i + 1) =
      addProvider env (globalBefore env providers i) (provider, i) :=
  foldl_take_succ _ (zipIdx_getElem? h)

theorem stateBefore_succ {n i : ℕ} {group : Group} {provider : Rule}
    (h : (group.providers.getD [])[i]? = some provider) :
    stateBefore env groups providers n group (i + 1) =
      addEmbedded env (n + 1) (groupScope (hasGlobalProviders env providers) group)
        (stateBefore env groups providers n group i) (provider, i) :=
  foldl_take_succ _ (zipIdx_getElem? h)

theorem normalizeGroups_append (hasGlobal : Bool) (place : ℕ) (stored : HashMap Rule)
    (before after : List Group) :
    normalizeGroups env hasGlobal place stored (before ++ after) =
      ((normalizeGroups env hasGlobal (place + before.length)
          (normalizeGroups env hasGlobal place stored before).1 after).1,
        (normalizeGroups env hasGlobal place stored before).2 ++
          (normalizeGroups env hasGlobal (place + before.length)
            (normalizeGroups env hasGlobal place stored before).1 after).2) := by
  induction before generalizing place stored with
  | nil => rfl
  | cons group before ih =>
    rw [List.cons_append, normalizeGroups]
    dsimp only
    rw [ih, List.length_cons, Nat.add_assoc, Nat.add_comm 1]
    rfl

theorem groupsBefore_succ {n : ℕ} {group : Group} (h : groups[n]? = some group) :
    groupsBefore env groups providers (n + 1) =
      ((normalizeGroup env (hasGlobalProviders env providers) (n + 1)
          (groupsBefore env groups providers n).1 group).1,
        (groupsBefore env groups providers n).2 ++
          [(normalizeGroup env (hasGlobalProviders env providers) (n + 1)
            (groupsBefore env groups providers n).1 group).2]) := by
  obtain ⟨hlt, -⟩ := List.getElem?_eq_some_iff.1 h
  have hlength : (groups.take n).length = n := List.length_take_of_le (Nat.le_of_lt hlt)
  rw [groupsBefore, List.take_add_one, h, Option.toList_some, normalizeGroups_append, hlength,
    Nat.add_comm 1]
  rfl

theorem stateBefore_length (n : ℕ) (group : Group) :
    stateBefore env groups providers n group (group.providers.getD []).zipIdx.length =
      addEmbeddedProviders env (hasGlobalProviders env providers) (n + 1)
        (groupsBefore env groups providers n).1 group := by
  rw [stateBefore, List.take_length]
  rfl

theorem normalized_eq :
    normalizeGroupsAndProviders env groups providers =
      ((groupsBefore env groups providers groups.length).2,
        (groupsBefore env groups providers groups.length).1.entries.map Prod.snd) := by
  rw [groupsBefore, List.take_length]
  rfl

end Turns

/-! ### Stores that are the same by content -/

def StoreRel (stored stored' : HashMap Rule) : Prop :=
  List.Forall₂ (fun entry entry' => entry.1 = entry'.1 ∧ entry.2.SameAs entry'.2)
    stored.entries stored'.entries

section StoreRel

variable {stored stored' : HashMap Rule}

theorem StoreRel.keys_eq (h : StoreRel stored stored') : stored.keys = stored'.keys := by
  have hkeys : List.Forall₂ Eq stored.keys stored'.keys :=
    List.forall₂_map_left_iff.2 (List.forall₂_map_right_iff.2 (h.imp fun _ _ heq => heq.1))
  rwa [List.forall₂_eq_eq_eq] at hkeys

theorem StoreRel.get (h : StoreRel stored stored') (key : String) :
    Option.Rel Rule.SameAs (stored.get key) (stored'.get key) := by
  have hlookup : ∀ {entries entries' : List (String × Rule)},
      List.Forall₂ (fun entry entry' => entry.1 = entry'.1 ∧ entry.2.SameAs entry'.2)
        entries entries' →
        Option.Rel Rule.SameAs (entries.lookup key) (entries'.lookup key) := by
    intro entries entries' hrel
    induction hrel with
    | nil => exact .none
    | cons hentry _ ih =>
      rw [List.lookup_cons, List.lookup_cons, ← hentry.1]
      split
      · exact .some hentry.2
      · exact ih
  exact hlookup h

theorem StoreRel.insertNew (h : StoreRel stored stored') (key : String) {rule rule' : Rule}
    (hsame : rule.SameAs rule') :
    StoreRel (stored.insertNew key rule) (stored'.insertNew key rule') := by
  by_cases hmem : key ∈ stored.keys
  · rwa [HashMap.insertNew_of_mem rule hmem, HashMap.insertNew_of_mem rule' (h.keys_eq ▸ hmem)]
  · rw [StoreRel, HashMap.entries_insertNew rule hmem,
      HashMap.entries_insertNew rule' (h.keys_eq ▸ hmem)]
    exact List.rel_append h (.cons ⟨rfl, hsame⟩ .nil)

theorem StoreRel.isEmpty_eq (h : StoreRel stored stored') : stored.isEmpty = stored'.isEmpty := by
  have hkeys := congrArg List.isEmpty h.keys_eq
  rwa [HashMap.keys, HashMap.keys, List.isEmpty_map, List.isEmpty_map] at hkeys

theorem StoreRel.contains_eq (h : StoreRel stored stored') (key : String) :
    stored.contains key = stored'.contains key := by
  rw [HashMap.contains, HashMap.contains, h.keys_eq]

theorem StoreRel.alloc_eq {env env' : NormalizeEnv} (huuid : env'.newUuid = env.newUuid)
    (h : StoreRel stored stored') (id : String) :
    allocUniqueProviderId env id stored = allocUniqueProviderId env' id stored' := by
  unfold allocUniqueProviderId
  simp only [h.contains_eq, h.keys_eq, huuid]

theorem StoreRel.filterMap_get (h : StoreRel stored stored') (ids : List String) :
    List.Forall₂ Rule.SameAs (ids.filterMap stored.get) (ids.filterMap stored'.get) := by
  induction ids with
  | nil => exact .nil
  | cons id ids ih =>
    have hget := h.get id
    rw [List.filterMap_cons, List.filterMap_cons]
    generalize stored.get id = found at hget ⊢
    generalize stored'.get id = found' at hget ⊢
    cases hget with
    | none => exact ih
    | some hsame => exact .cons hsame ih

theorem StoreRel.values (h : StoreRel stored stored') :
    List.Forall₂ Rule.SameAs (stored.entries.map Prod.snd) (stored'.entries.map Prod.snd) :=
  List.forall₂_map_left_iff.2 (List.forall₂_map_right_iff.2 (h.imp fun _ _ heq => heq.2))

end StoreRel

/-- The same stored providers by content, and the same new ids. -/
structure StateRel (st st' : EmbeddedState) : Prop where
  stored : StoreRel st.stored st'.stored
  remap : st.remap = st'.remap

theorem StateRel.linkedIds_eq {st st' : EmbeddedState} (h : StateRel st st') (ids : List String) :
    linkedIds st ids = linkedIds st' ids := by
  unfold linkedIds
  rw [h.remap]
  simp only [h.stored.contains_eq]

theorem Group.SameAs.groupIds_eq (h : group.SameAs group') (hasGlobal : Bool) :
    groupIds hasGlobal group = groupIds hasGlobal group' := by
  unfold groupIds
  rw [h.providerIds_eq, map_id_of_sameAs h.providers_getD]

theorem Group.SameAs.groupScope_eq (h : group.SameAs group') (hasGlobal : Bool) :
    groupScope hasGlobal group = groupScope hasGlobal group' := by
  rw [groupScope, groupScope, h.groupIds_eq]

theorem Group.SameAs.link (h : group.SameAs group') (ids : List String) {rules rules' : List Rule}
    (hrules : List.Forall₂ Rule.SameAs rules rules') :
    Group.SameAs
      { group with
        providerIds := some ids
        activeProviderId := group.activeProviderId.filter (· ∈ ids)
        providers := some rules }
      { group' with
        providerIds := some ids
        activeProviderId := group'.activeProviderId.filter (· ∈ ids)
        providers := some rules' } where
  rest := congrArg (fun group : Group => { group with
    providerIds := some ids
    activeProviderId := group.activeProviderId.filter (· ∈ ids) }) h.rest
  providers := .some hrules

/-! ### The providers of the configuration in two orders -/

theorem addProvider_of_empty (stored : HashMap Rule) (i : ℕ) (h : trimmed provider.id = "") :
    addProvider env stored (provider, i) = stored := if_pos h

theorem addProvider_of_ne (stored : HashMap Rule) (i : ℕ) (h : trimmed provider.id ≠ "") :
    addProvider env stored (provider, i) =
      stored.insertNew (trimmed provider.id) (embeddedRule env 0 (provider, i)) := if_neg h

theorem globalBefore_of_none {providers : List Rule} (h : providers[i]? = none) :
    globalBefore env providers (i + 1) = globalBefore env providers i := by
  rw [globalBefore, List.take_add_one, List.getElem?_zipIdx, h, Option.map_none, Option.toList_none,
    List.append_nil]
  rfl

theorem mem_keys_globalBefore (providers : List Rule) (i : ℕ) (key : String) :
    key ∈ (globalBefore env providers i).keys ↔
      key ≠ "" ∧ key ∈ (providers.take i).map fun other => trimmed other.id := by
  induction i with
  | zero =>
    rw [List.take_zero, List.map_nil]
    exact iff_of_false (fun h => nomatch h) fun h => nomatch h.2
  | succ i ih =>
    cases hprovider : providers[i]? with
    | none =>
      rw [globalBefore_of_none env hprovider, ih, List.take_add_one, hprovider, Option.toList_none,
        List.append_nil]
    | some provider =>
      rw [globalBefore_succ env providers hprovider, List.take_add_one, hprovider,
        Option.toList_some, List.map_append, List.mem_append, List.map_singleton,
        List.mem_singleton]
      by_cases hempty : trimmed provider.id = ""
      · rw [addProvider_of_empty env _ i hempty, ih]
        constructor
        · exact fun h => ⟨h.1, .inl h.2⟩
        · exact fun h => ⟨h.1, h.2.resolve_right fun heq => h.1 (heq.trans hempty)⟩
      · rw [addProvider_of_ne env _ i hempty, HashMap.mem_keys_insertNew, ih]
        constructor
        · rintro (h | rfl)
          · exact ⟨h.1, .inl h.2⟩
          · exact ⟨hempty, .inr rfl⟩
        · rintro ⟨hne, hmem | rfl⟩
          · exact .inl ⟨hne, hmem⟩
          · exact .inr rfl

theorem globalProviders_eq (providers : List Rule) :
    globalProviders env providers = globalBefore env providers providers.length := by
  rw [globalBefore, List.take_of_length_le (by rw [List.length_zipIdx])]
  rfl

theorem embeddedRule_sameAs {provider' : Rule} (hagree : provider.CostsAgree)
    (hsame : provider.SameAs provider') (env env' : NormalizeEnv) (place i : ℕ) :
    (embeddedRule env place (provider, i)).SameAs (embeddedRule env' place (provider', i)) :=
  normalize_sameAs hagree hsame (env.order_sameAs place i) (env'.order_sameAs place i)

section Runs

variable {env env' : NormalizeEnv} {groups groups' : List Group} {providers providers' : List Rule}

theorem globalBefore_rel (hproviders : List.Forall₂ Rule.SameAs providers providers')
    (hfree : OrderFree env groups providers) (i : ℕ) :
    StoreRel (globalBefore env providers i) (globalBefore env' providers' i) := by
  induction i with
  | zero => exact .nil
  | succ i ih =>
    rcases none_or_some_of_rel (rel_getElem? hproviders i) with
      ⟨hprovider, hprovider'⟩ | ⟨provider, provider', hprovider, hprovider', hsame⟩
    · rwa [globalBefore_of_none env hprovider, globalBefore_of_none env' hprovider']
    · rw [globalBefore_succ env providers hprovider, globalBefore_succ env' providers' hprovider']
      have hid : trimmed provider'.id = trimmed provider.id := congrArg trimmed hsame.id_eq.symm
      by_cases hempty : trimmed provider.id = ""
      · rwa [addProvider_of_empty env _ i hempty, addProvider_of_empty env' _ i (hid.trans hempty)]
      · rw [addProvider_of_ne env _ i hempty,
          addProvider_of_ne env' _ i (fun heq => hempty (hid.symm.trans heq)), hid]
        by_cases hmem : trimmed provider.id ∈ (globalBefore env providers i).keys
        · rwa [HashMap.insertNew_of_mem _ hmem, HashMap.insertNew_of_mem _ (ih.keys_eq ▸ hmem)]
        · refine ih.insertNew _ (embeddedRule_sameAs ?_ hsame env env' 0 i)
          refine hfree.global i provider hprovider hempty fun hknown => hmem ?_
          exact (mem_keys_globalBefore env providers i _).2 ⟨hempty, hknown⟩

theorem globalProviders_rel (hproviders : List.Forall₂ Rule.SameAs providers providers')
    (hfree : OrderFree env groups providers) :
    StoreRel (globalProviders env providers) (globalProviders env' providers') := by
  rw [globalProviders_eq, globalProviders_eq, ← hproviders.length_eq]
  exact globalBefore_rel hproviders hfree _

theorem hasGlobalProviders_eq (hproviders : List.Forall₂ Rule.SameAs providers providers')
    (hfree : OrderFree env groups providers) :
    hasGlobalProviders env providers = hasGlobalProviders env' providers' := by
  have hempty := (@globalProviders_rel env env' groups providers providers' hproviders
    hfree).isEmpty_eq
  rw [hasGlobalProviders, hasGlobalProviders, hempty]

/-! ### The embedded providers in two orders -/

variable {group : Group} {rule rule' : Rule}

theorem Rule.SameAs.withId (h : rule.SameAs rule') (id : String) :
    Rule.SameAs { rule with id := id } { rule' with id := id } where
  rest := congrArg (fun rule : Rule => { rule with id := id }) h.rest
  modelMappings := h.modelMappings
  customHeaders := h.customHeaders
  modelCosts := h.modelCosts

theorem Rule.SameAs.of_withId {id : String} (hid : rule.id = rule'.id)
    (h : Rule.SameAs { rule with id := id } { rule' with id := id }) : rule.SameAs rule' := by
  have hback := h.withId rule.id
  have hself : { rule' with id := rule.id } = rule' := by rw [hid]
  exact hself ▸ hback

theorem text_eq_iff (hprint : Function.Injective env.toStr) {rule rule' : Rule} :
    env.toStr rule.toJson = env.toStr rule'.toJson ↔ rule = rule' :=
  ⟨fun h => Rule.toJson_injective (hprint h), fun h => by rw [h]⟩

theorem eq_of_equal {existing existing' : Rule} (hexisting : existing.SameAs existing')
    (hrule : rule.SameAs rule') (hsingle : existing.SameAs rule → existing.HasSingleMaps)
    (hequal : existing'.SameAs rule') : existing = rule ∧ existing' = rule' := by
  have hsame := hexisting.trans (hequal.trans hrule.symm)
  have hone := hsingle hsame
  have hfirst := hexisting.eq_of_hasSingleMaps hone
  exact ⟨hsame.eq_of_hasSingleMaps hone,
    hfirst.symm.trans ((hexisting.trans hequal).eq_of_hasSingleMaps hone)⟩

/-- **A turn keeps the states the same.** -/
theorem StateRel.addEmbedded (hprint : Function.Injective env.toStr)
    (htoStr : env'.toStr = env.toStr) (huuid : env'.newUuid = env.newUuid) {place i : ℕ}
    {hasGlobal : Bool} {group : Group} {st st' : EmbeddedState} {provider provider' : Rule}
    (hrel : StateRel st st') (hsame : provider.SameAs provider')
    (hfree : trimmed provider.id ∈ groupScope hasGlobal group → provider.CostsAgree ∧
      ∀ existing, st.stored.get (trimmed provider.id) = some existing →
        existing.SameAs (embeddedRule env place (provider, i)) → existing.HasSingleMaps) :
    StateRel (addEmbedded env place (groupScope hasGlobal group) st (provider, i))
      (addEmbedded env' place (groupScope hasGlobal group) st' (provider', i)) := by
  have hid : trimmed provider'.id = trimmed provider.id := congrArg trimmed hsame.id_eq.symm
  by_cases hscope : trimmed provider.id ∈ groupScope hasGlobal group
  · obtain ⟨hagree, hsingle⟩ := hfree hscope
    have hne := mem_groupScope hscope
    have hscope' : trimmed provider'.id ∈ groupScope hasGlobal group := hid.symm ▸ hscope
    have hrule := embeddedRule_sameAs hagree hsame env env' place i
    rcases none_or_some_of_rel (hrel.stored.get (trimmed provider.id)) with
      ⟨hget, hget'⟩ | ⟨existing, existing', hget, hget', hexisting⟩
    · rw [addEmbedded_of_none (provider, i) hne hscope hget,
        addEmbedded_of_none (provider', i) (mem_groupScope hscope') hscope' (hid.symm ▸ hget')]
      dsimp only
      rw [hid]
      exact ⟨hrel.stored.insertNew _ hrule, hrel.remap⟩
    · rw [addEmbedded_of_some (provider, i) hne hscope hget,
        addEmbedded_of_some (provider', i) (mem_groupScope hscope') hscope' (hid.symm ▸ hget')]
      dsimp only
      rw [hid, ← hrel.stored.alloc_eq huuid]
      have htext := @text_eq_iff env hprint
      have htext' := @text_eq_iff env' (htoStr ▸ hprint)
      -- the texts are the same in both runs, or in none
      by_cases hequal : existing = embeddedRule env place (provider, i)
      · have hequal' := (eq_of_equal hexisting hrule (hsingle existing hget)
          (hexisting.symm.trans (hequal ▸ hrule))).2
        rwa [if_neg (not_not.2 (htext.2 hequal)), if_neg (not_not.2 (htext'.2 hequal'))]
      · have hequal' : existing' ≠ embeddedRule env' place (provider', i) := fun heq =>
          hequal (eq_of_equal hexisting hrule (hsingle existing hget) (heq ▸ .refl _)).1
        rw [if_pos fun heq => hequal (htext.1 heq), if_pos fun heq => hequal' (htext'.1 heq)]
        exact ⟨hrel.stored.insertNew _ (hrule.withId _), by rw [hrel.remap]⟩
  · rw [addEmbedded_of_notMem (provider, i) hscope,
      addEmbedded_of_notMem (provider', i) (fun hmem => hscope (hid ▸ hmem))]
    exact hrel

theorem stateBefore_of_none (env : NormalizeEnv) (groups : List Group) (providers : List Rule)
    (n : ℕ) {i : ℕ} (h : (group.providers.getD [])[i]? = none) :
    stateBefore env groups providers n group (i + 1) =
      stateBefore env groups providers n group i := by
  rw [stateBefore, List.take_add_one, List.getElem?_zipIdx, h, Option.map_none, Option.toList_none,
    List.append_nil]
  rfl

theorem stateBefore_zero (env : NormalizeEnv) (groups : List Group) (providers : List Rule) (n : ℕ)
    (group : Group) :
    stateBefore env groups providers n group 0 =
      { stored := (groupsBefore env groups providers n).1 } := by
  rw [stateBefore, List.take_zero, List.foldl_nil]

/-- The states of the loop over the embedded providers are the same before every turn. -/
theorem stateBefore_rel (hprint : Function.Injective env.toStr) (htoStr : env'.toStr = env.toStr)
    (huuid : env'.newUuid = env.newUuid)
    (hproviders : List.Forall₂ Rule.SameAs providers providers')
    (hfree : OrderFree env groups providers) {n : ℕ} {group' : Group}
    (hgroup : groups[n]? = some group) (hsame : group.SameAs group')
    (hrel : StoreRel (groupsBefore env groups providers n).1
      (groupsBefore env' groups' providers' n).1)
    (i : ℕ) :
    StateRel (stateBefore env groups providers n group i)
      (stateBefore env' groups' providers' n group' i) := by
  induction i with
  | zero =>
    rw [stateBefore_zero, stateBefore_zero]
    exact ⟨hrel, rfl⟩
  | succ i ih =>
    rcases none_or_some_of_rel (rel_getElem? hsame.providers_getD i) with
      ⟨hprovider, hprovider'⟩ | ⟨provider, provider', hprovider, hprovider', heq⟩
    · rwa [stateBefore_of_none env groups providers n hprovider,
        stateBefore_of_none env' groups' providers' n hprovider']
    · rw [stateBefore_succ env groups providers hprovider,
        stateBefore_succ env' groups' providers' hprovider', ← hsame.groupScope_eq,
        ← @hasGlobalProviders_eq env env' groups providers providers' hproviders hfree]
      exact ih.addEmbedded hprint htoStr huuid heq fun hscope =>
        hfree.embedded n group i provider ⟨hgroup, hprovider, hscope⟩

theorem normalizeGroup_rel {hasGlobal : Bool} {place : ℕ} {stored stored' : HashMap Rule}
    {group' : Group} (hsame : group.SameAs group')
    (hst : StateRel (addEmbeddedProviders env hasGlobal place stored group)
      (addEmbeddedProviders env' hasGlobal place stored' group')) :
    StoreRel (normalizeGroup env hasGlobal place stored group).1
        (normalizeGroup env' hasGlobal place stored' group').1 ∧
      (normalizeGroup env hasGlobal place stored group).2.SameAs
        (normalizeGroup env' hasGlobal place stored' group').2 := by
  have hids := hst.linkedIds_eq (groupIds hasGlobal group)
  unfold normalizeGroup
  dsimp only
  rw [← hsame.groupIds_eq, ← hids]
  exact ⟨hst.stored, hsame.link _ (hst.stored.filterMap_get _)⟩

theorem groupsBefore_of_none (env : NormalizeEnv) {groups : List Group} (providers : List Rule)
    {n : ℕ} (h : groups[n]? = none) :
    groupsBefore env groups providers (n + 1) = groupsBefore env groups providers n := by
  rw [groupsBefore, List.take_add_one, h, Option.toList_none, List.append_nil]
  rfl

theorem groupsBefore_zero (env : NormalizeEnv) (groups : List Group) (providers : List Rule) :
    groupsBefore env groups providers 0 = (globalProviders env providers, []) := by
  rw [groupsBefore, List.take_zero, normalizeGroups]

theorem groupsBefore_rel (hprint : Function.Injective env.toStr) (htoStr : env'.toStr = env.toStr)
    (huuid : env'.newUuid = env.newUuid) (hgroups : List.Forall₂ Group.SameAs groups groups')
    (hproviders : List.Forall₂ Rule.SameAs providers providers')
    (hfree : OrderFree env groups providers) (n : ℕ) :
    StoreRel (groupsBefore env groups providers n).1 (groupsBefore env' groups' providers' n).1 ∧
      List.Forall₂ Group.SameAs (groupsBefore env groups providers n).2
        (groupsBefore env' groups' providers' n).2 := by
  induction n with
  | zero =>
    rw [groupsBefore_zero, groupsBefore_zero]
    exact ⟨globalProviders_rel hproviders hfree, .nil⟩
  | succ n ih =>
    obtain ⟨hstored, hdone⟩ := ih
    rcases none_or_some_of_rel (rel_getElem? hgroups n) with
      ⟨hgroup, hgroup'⟩ | ⟨group, group', hgroup, hgroup', hsame⟩
    · rw [groupsBefore_of_none env providers hgroup, groupsBefore_of_none env' providers' hgroup']
      exact ⟨hstored, hdone⟩
    · have hst := stateBefore_rel hprint htoStr huuid hproviders hfree hgroup hsame hstored
        (group.providers.getD []).zipIdx.length
      have hlength : (group.providers.getD []).zipIdx.length =
          (group'.providers.getD []).zipIdx.length := by
        rw [List.length_zipIdx, List.length_zipIdx, hsame.providers_getD.length_eq]
      rw [stateBefore_length, hlength, stateBefore_length,
        ← @hasGlobalProviders_eq env env' groups providers providers' hproviders hfree] at hst
      obtain ⟨hnext, hnormalized⟩ := normalizeGroup_rel hsame hst
      rw [groupsBefore_succ env groups providers hgroup,
        groupsBefore_succ env' groups' providers' hgroup',
        ← @hasGlobalProviders_eq env env' groups providers providers' hproviders hfree]
      exact ⟨hnext, List.rel_append hdone (.cons hnormalized .nil)⟩

theorem noEqualCopied_of_orderFree (hprint : Function.Injective env.toStr)
    (htoStr : env'.toStr = env.toStr) (huuid : env'.newUuid = env.newUuid)
    (hgroups : List.Forall₂ Group.SameAs groups groups')
    (hproviders : List.Forall₂ Rule.SameAs providers providers')
    (hfree : OrderFree env groups providers) : NoEqualCopied env' groups' providers' := by
  rintro n group' i provider' ⟨hgroup', hprovider', hscope'⟩ existing' normal hget' hform hequal
  obtain ⟨group, hgroup, hsame⟩ := exists_left_of_rel (hgroup' ▸ rel_getElem? hgroups n)
  obtain ⟨provider, hprovider, hrule⟩ :=
    exists_left_of_rel (hprovider' ▸ rel_getElem? hsame.providers_getD i)
  have hid : trimmed provider'.id = trimmed provider.id := congrArg trimmed hrule.id_eq.symm
  have hne := mem_groupScope hscope'
  have hscope : trimmed provider.id ∈ groupScope (hasGlobalProviders env providers) group := by
    rw [hsame.groupScope_eq, ← hid,
      @hasGlobalProviders_eq env env' groups providers providers' hproviders hfree]
    exact hscope'
  obtain ⟨hagree, hsingle⟩ := hfree.embedded n group i provider ⟨hgroup, hprovider, hscope⟩
  have hst := stateBefore_rel hprint htoStr huuid hproviders hfree hgroup hsame
    (groupsBefore_rel hprint htoStr huuid hgroups hproviders hfree n).1 i
  have hfound := hst.stored.get (trimmed provider'.id)
  rw [hget'] at hfound
  obtain ⟨existing, hget, hexisting⟩ := exists_left_of_rel hfound
  rw [hid] at hget
  have hforms := embeddedRule_sameAs hagree hrule env env' (n + 1) i
  have hnormal := (costsAgree_iff (hasForm_normalize (.refl provider)
    (env.order_sameAs (n + 1) i))).1 hagree normal (hform.of_sameAs hrule)
  have hthis := (eq_of_equal hexisting hforms (hsingle existing hget)
    (hequal.trans (hnormal.symm.trans hforms))).2
  rw [stateBefore_succ env' groups' providers' hprovider',
    addEmbedded_of_some (provider', i) hne hscope' hget']
  exact if_neg (not_not.2 (by rw [hthis]))

/-- **The outcome of a run whose turns fit is the same in every order.** -/
theorem orderIndependent_of_orderFree (hprint : Function.Injective env.toStr)
    (hfree : OrderFree env groups providers) : OrderIndependent env groups providers := by
  intro env' groups' providers' htoStr huuid hgroups hproviders
  obtain ⟨hstored, hnormalized⟩ :=
    groupsBefore_rel hprint htoStr huuid hgroups hproviders hfree groups.length
  rw [normalized_eq, normalized_eq, ← hgroups.length_eq]
  exact ⟨hnormalized, hstored.values,
    noEqualCopied_of_orderFree hprint htoStr huuid hgroups hproviders hfree⟩

end Runs

/-! ### One provider in another order -/

def NormalizeEnv.reorder (env : NormalizeEnv) (place i : ℕ)
    (order : HashMap RuleCostConfig → HashMap RuleCostConfig)
    (horder : ∀ costs, (order costs).SameAs costs) : NormalizeEnv :=
  { env with
    order := fun place' i' => if place' = place ∧ i' = i then order else env.order place' i'
    order_sameAs := fun place' i' costs => by
      split_ifs
      · exact horder costs
      · exact env.order_sameAs place' i' costs }

theorem zipIdx_take (xs : List α) (i : ℕ) : xs.zipIdx.take i = (xs.take i).zipIdx := by
  refine List.ext_getElem? fun j => ?_
  rw [List.getElem?_take, List.getElem?_zipIdx, List.getElem?_zipIdx, List.getElem?_take]
  split_ifs <;> rfl

section Reorder

variable {env : NormalizeEnv} {place i : ℕ}
    {order : HashMap RuleCostConfig → HashMap RuleCostConfig}
  {horder : ∀ costs, (order costs).SameAs costs}

theorem embeddedRule_reorder_self (rule : Rule) :
    embeddedRule (env.reorder place i order horder) place (rule, i) =
      normalizeProviderForStorage order rule := by
  have hself : (env.reorder place i order horder).order place i = order := if_pos ⟨rfl, rfl⟩
  rw [embeddedRule, hself]

variable {place' : ℕ}

theorem reorder_order {i' : ℕ} (hne : ¬(place' = place ∧ i' = i)) :
    (env.reorder place i order horder).order place' i' = env.order place' i' := if_neg hne

theorem addProvider_reorder (hplace : place ≠ 0) (stored : HashMap Rule) (provider : Rule × ℕ) :
    addProvider (env.reorder place i order horder) stored provider =
      addProvider env stored provider := by
  unfold addProvider
  rw [reorder_order fun h => hplace h.1.symm]

theorem globalProviders_reorder (hplace : place ≠ 0) (providers : List Rule) :
    globalProviders (env.reorder place i order horder) providers =
      globalProviders env providers :=
  List.foldl_ext _ _ _ fun stored provider _ => addProvider_reorder hplace stored provider

theorem addEmbedded_reorder {provider : Rule × ℕ} (hne : ¬(place' = place ∧ provider.2 = i))
    (scope : List String) (st : EmbeddedState) :
    addEmbedded (env.reorder place i order horder) place' scope st provider =
      addEmbedded env place' scope st provider := by
  unfold addEmbedded
  rw [reorder_order hne]
  rfl

theorem normalizeGroup_reorder (hne : place' ≠ place) (hasGlobal : Bool) (stored : HashMap Rule)
    (group : Group) :
    normalizeGroup (env.reorder place i order horder) hasGlobal place' stored group =
      normalizeGroup env hasGlobal place' stored group := by
  have hturns : addEmbeddedProviders (env.reorder place i order horder) hasGlobal place' stored
      group = addEmbeddedProviders env hasGlobal place' stored group :=
    List.foldl_ext _ _ _ fun st _ _ => addEmbedded_reorder (fun h => hne h.1) _ st
  unfold normalizeGroup
  rw [hturns]

theorem normalizeGroups_reorder (hasGlobal : Bool) (stored : HashMap Rule) {groups : List Group}
    (hlength : place' + groups.length ≤ place) :
    normalizeGroups (env.reorder place i order horder) hasGlobal place' stored groups =
      normalizeGroups env hasGlobal place' stored groups := by
  induction groups generalizing place' stored with
  | nil => rfl
  | cons group groups ih =>
    rw [List.length_cons] at hlength
    rw [normalizeGroups, normalizeGroups, normalizeGroup_reorder (by omega)]
    dsimp only
    rw [ih _ (by omega)]

theorem hasGlobalProviders_reorder (n : ℕ) (providers : List Rule) :
    hasGlobalProviders (env.reorder (n + 1) i order horder) providers =
      hasGlobalProviders env providers := by
  rw [hasGlobalProviders, hasGlobalProviders, globalProviders_reorder (Nat.succ_ne_zero n)]

theorem stateBefore_reorder {n : ℕ} {groups : List Group} {providers : List Rule}
    {group group' : Group} {rule : Rule} (hgroup : groups[n]? = some group)
    (hrules : group'.providers = some ((group.providers.getD []).set i rule))
    (hscope : groupScope (hasGlobalProviders env providers) group' =
      groupScope (hasGlobalProviders env providers) group) :
    stateBefore (env.reorder (n + 1) i order horder) (groups.set n group') providers n group' i =
      stateBefore env groups providers n group i := by
  obtain ⟨hlt, -⟩ := List.getElem?_eq_some_iff.1 hgroup
  have hbefore : groupsBefore (env.reorder (n + 1) i order horder) (groups.set n group')
      providers n = groupsBefore env groups providers n := by
    rw [groupsBefore, groupsBefore, hasGlobalProviders_reorder,
      globalProviders_reorder (Nat.succ_ne_zero n), List.take_set_of_le le_rfl,
      normalizeGroups_reorder _ _ (by rw [List.length_take]; omega)]
  rw [stateBefore, stateBefore, hbefore, hasGlobalProviders_reorder, hscope, zipIdx_take,
    zipIdx_take, hrules, Option.getD_some, List.take_set_of_le le_rfl]
  refine List.foldl_ext _ _ _ fun st turn hturn => addEmbedded_reorder (fun h => ?_) _ st
  have hturnLt := List.snd_lt_of_mem_zipIdx hturn
  rw [List.length_take] at hturnLt
  omega

end Reorder

/-! ### What the outcome shows of a turn -/

section Final

variable (env : NormalizeEnv) (groups : List Group) (providers : List Rule)

theorem storeStep_groupsBefore (n : ℕ) :
    StoreStep (groupsBefore env groups providers n).1
      (groupsBefore env groups providers groups.length).1 := by
  have hall : (groupsBefore env groups providers groups.length).1 =
      (normalizeGroups env (hasGlobalProviders env providers) (1 + (groups.take n).length)
        (groupsBefore env groups providers n).1 (groups.drop n)).1 := by
    rw [groupsBefore, List.take_length]
    conv_lhs => rw [← List.take_append_drop n groups]
    rw [normalizeGroups_append]
    rfl
  rw [hall]
  exact (normalizeGroups_spec env _ _ _ _).1

theorem storeStep_stateBefore {n : ℕ} {group : Group} (hgroup : groups[n]? = some group) (i : ℕ) :
    StoreStep (stateBefore env groups providers n group i).stored
      (groupsBefore env groups providers groups.length).1 := by
  have hrest := StoreStep.foldl EmbeddedState.stored
    (storeStep_addEmbedded env (n + 1) (groupScope (hasGlobalProviders env providers) group))
    ((group.providers.getD []).zipIdx.drop i) (stateBefore env groups providers n group i)
  rw [stateBefore, ← List.foldl_append, List.take_append_drop] at hrest
  have hnext := storeStep_groupsBefore env groups providers (n + 1)
  rw [groupsBefore_succ env groups providers hgroup] at hnext
  exact hrest.trans hnext

theorem storeStep_globalBefore (i : ℕ) :
    StoreStep (globalBefore env providers i)
      (groupsBefore env groups providers groups.length).1 := by
  have hall : globalProviders env providers =
      (providers.zipIdx.drop i).foldl (addProvider env) (globalBefore env providers i) := by
    rw [globalProviders, globalBefore, ← List.foldl_append, List.take_append_drop]
  have hnext := storeStep_groupsBefore env groups providers 0
  rw [groupsBefore_zero, hall] at hnext
  exact (StoreStep.foldl id (storeStep_addProvider env) _ _).trans hnext

theorem isStore_final : IsStore (groupsBefore env groups providers groups.length).1 := by
  have hglobal := storeStep_globalBefore env groups providers 0
  exact hglobal.isStore isStore_empty

end Final

theorem sameAs_of_final {final final' : HashMap Rule} (hfinal : IsStore final)
    (hfinal' : IsStore final')
    (h : List.Forall₂ Rule.SameAs (final.entries.map Prod.snd) (final'.entries.map Prod.snd))
    {key : String} {rule rule' : Rule} (hget : final.get key = some rule)
    (hget' : final'.get key = some rule') : rule.SameAs rule' := by
  obtain ⟨other, hmem, hsame⟩ := exists_mem_of_forall₂ h (mem_values_of_get hget)
  have hother := get_of_mem_values hfinal' hmem
  rw [← hsame.id_eq, hfinal.id hget, hget', Option.some_inj] at hother
  rwa [hother]

theorem forall₂_set {R : α → α → Prop} (hrefl : ∀ x, R x x) {xs : List α} {x y : α}
    (h : xs[i]? = some x) (hR : R x y) : List.Forall₂ R xs (xs.set i y) := by
  induction xs generalizing i with
  | nil => cases h
  | cons first xs ih =>
    cases i with
    | zero =>
      cases h
      exact .cons hR (List.forall₂_same.2 fun other _ => hrefl other)
    | succ i => exact .cons (hrefl first) (ih h)

section Necessary

variable {env : NormalizeEnv} {groups : List Group} {providers : List Rule}

variable {i n : ℕ} {provider : Rule} {group : Group}

theorem final_get_global (env : NormalizeEnv) (groups : List Group)
    (hprovider : providers[i]? = some provider) (hne : trimmed provider.id ≠ "")
    (hnew : trimmed provider.id ∉ (providers.take i).map fun other => trimmed other.id) :
    (groupsBefore env groups providers groups.length).1.get (trimmed provider.id) =
      some (embeddedRule env 0 (provider, i)) := by
  refine (storeStep_globalBefore env groups providers (i + 1)).stays _ _ ?_
  rw [globalBefore_succ env providers hprovider, addProvider_of_ne env _ i hne]
  refine HashMap.get_insertNew_self _ fun hmem => hnew ?_
  exact ((mem_keys_globalBefore env providers i _).1 hmem).2

theorem OrderIndependent.global (h : OrderIndependent env groups providers)
    (hprovider : providers[i]? = some provider) (hne : trimmed provider.id ≠ "")
    (hnew : trimmed provider.id ∉ (providers.take i).map fun other => trimmed other.id) :
    provider.CostsAgree := by
  have hself := hasForm_normalize (Rule.SameAs.refl provider) (env.order_sameAs 0 i)
  refine (costsAgree_iff hself).2 ?_
  rintro _ ⟨rule, order, hsame, horder, rfl⟩
  obtain ⟨hlt, -⟩ := List.getElem?_eq_some_iff.1 hprovider
  have hprovider' : (providers.set i rule)[i]? = some rule := List.getElem?_set_self hlt
  have hid : trimmed rule.id = trimmed provider.id := congrArg trimmed hsame.id_eq
  obtain ⟨-, houtcome, -⟩ := h (env.reorder 0 i order horder) groups (providers.set i rule) rfl rfl
    (List.forall₂_same.2 fun group _ => .refl group)
    (forall₂_set Rule.SameAs.refl hprovider hsame.symm)
  rw [normalized_eq, normalized_eq] at houtcome
  have hget := final_get_global env groups hprovider hne hnew
  have hget' := final_get_global (env.reorder 0 i order horder) groups hprovider' (hid ▸ hne)
    (by rwa [List.take_set_of_le le_rfl, hid])
  rw [hid, embeddedRule_reorder_self] at hget'
  exact sameAs_of_final (isStore_final env groups providers)
    (isStore_final _ groups (providers.set i rule)) houtcome hget hget'

/-- **Any normal form of an embedded provider is met in some run**, in the state of this one. -/
theorem exists_run {normal : Rule}
    (hembeds : Embeds (hasGlobalProviders env providers) groups n group i provider)
    (hform : provider.HasForm normal) :
    ∃ (env' : NormalizeEnv) (groups' : List Group) (group' : Group) (provider' : Rule),
      (env'.toStr = env.toStr ∧ env'.newUuid = env.newUuid ∧
        List.Forall₂ Group.SameAs groups groups') ∧
      Embeds (hasGlobalProviders env' providers) groups' n group' i provider' ∧
        provider'.SameAs provider ∧ embeddedRule env' (n + 1) (provider', i) = normal ∧
          stateBefore env' groups' providers n group' i =
            stateBefore env groups providers n group i := by
  obtain ⟨rule, order, hsame, horder, rfl⟩ := hform
  obtain ⟨hgroup, hprovider, hscope⟩ := hembeds
  obtain ⟨hltGroup, -⟩ := List.getElem?_eq_some_iff.1 hgroup
  obtain ⟨hlt, -⟩ := List.getElem?_eq_some_iff.1 hprovider
  have hset : Group.SameAs group
      { group with providers := some ((group.providers.getD []).set i rule) } := by
    refine ⟨rfl, ?_⟩
    cases hproviders : group.providers with
    | none =>
      rw [hproviders] at hlt
      cases hlt
    | some rules =>
      rw [hproviders, Option.getD_some] at hprovider
      exact .some (forall₂_set Rule.SameAs.refl hprovider hsame.symm)
  have hid : trimmed rule.id = trimmed provider.id := congrArg trimmed hsame.id_eq
  refine ⟨env.reorder (n + 1) i order horder, _, _, rule,
    ⟨rfl, rfl, forall₂_set Group.SameAs.refl hgroup hset⟩,
    ⟨List.getElem?_set_self hltGroup, List.getElem?_set_self hlt, ?_⟩, hsame,
    embeddedRule_reorder_self rule, stateBefore_reorder hgroup rfl (hset.groupScope_eq _).symm⟩
  rw [hasGlobalProviders_reorder, hid, ← hset.groupScope_eq]
  exact hscope

theorem eq_of_stays (hprint : Function.Injective env.toStr) {existing : Rule}
    (hembeds : Embeds (hasGlobalProviders env providers) groups n group i provider)
    (hget : (stateBefore env groups providers n group i).stored.get (trimmed provider.id) =
      some existing)
    (hstays : stateBefore env groups providers n group (i + 1) =
      stateBefore env groups providers n group i) :
    existing = embeddedRule env (n + 1) (provider, i) := by
  by_contra hne
  rw [stateBefore_succ env groups providers hembeds.atProvider,
    addEmbedded_of_some (provider, i) (mem_groupScope hembeds.inScope) hembeds.inScope hget,
    if_pos fun heq => hne ((text_eq_iff hprint).1 heq)] at hstays
  have hremap := congrArg (fun st => st.remap.length) hstays
  exact absurd hremap (Nat.succ_ne_self _)

theorem get_copy (hprint : Function.Injective env.toStr) {existing : Rule}
    (hembeds : Embeds (hasGlobalProviders env providers) groups n group i provider)
    (hget : (stateBefore env groups providers n group i).stored.get (trimmed provider.id) =
      some existing)
    (hne : existing ≠ embeddedRule env (n + 1) (provider, i)) {nextId : String}
    (hnext : allocUniqueProviderId env (trimmed provider.id)
      (stateBefore env groups providers n group i).stored = nextId) :
    (stateBefore env groups providers n group (i + 1)).stored.get nextId =
      some { embeddedRule env (n + 1) (provider, i) with id := nextId } := by
  subst hnext
  rw [stateBefore_succ env groups providers hembeds.atProvider,
    addEmbedded_of_some (provider, i) (mem_groupScope hembeds.inScope) hembeds.inScope hget,
    if_pos fun heq => hne ((text_eq_iff hprint).1 heq)]
  exact HashMap.get_insertNew_self _ (allocUniqueProviderId_notMem env _ _)

theorem OrderIndependent.costsAgree (hprint : Function.Injective env.toStr)
    (h : OrderIndependent env groups providers)
    (hembeds : Embeds (hasGlobalProviders env providers) groups n group i provider) :
    provider.CostsAgree := by
  have hself := hasForm_normalize (Rule.SameAs.refl provider) (env.order_sameAs (n + 1) i)
  refine (costsAgree_iff hself).2 fun normal hform => ?_
  -- a run in which the provider takes its other normal form
  obtain ⟨env', groups', group', provider', ⟨htoStr, huuid, hgroups⟩, hembeds', hsame, hrule,
    hstate⟩ := exists_run hembeds hform
  have hproviders : List.Forall₂ Rule.SameAs providers providers :=
    List.forall₂_same.2 fun rule _ => .refl rule
  obtain ⟨-, houtcome, hcopied'⟩ := h env' groups' providers htoStr huuid hgroups hproviders
  rw [normalized_eq, normalized_eq] at houtcome
  have hid : trimmed provider'.id = trimmed provider.id := congrArg trimmed hsame.id_eq
  have hlater := storeStep_stateBefore env groups providers hembeds.atGroup (i + 1)
  have hlater' := storeStep_stateBefore env' groups' providers hembeds'.atGroup (i + 1)
  have hfinal := isStore_final env groups providers
  have hfinal' := isStore_final env' groups' providers
  cases hget : (stateBefore env groups providers n group i).stored.get (trimmed provider.id) with
  | none =>
    -- nothing is stored under the id, so each run stores its form
    have hstored : (stateBefore env groups providers n group (i + 1)).stored.get
        (trimmed provider.id) = some (embeddedRule env (n + 1) (provider, i)) := by
      rw [stateBefore_succ env groups providers hembeds.atProvider,
        addEmbedded_get (provider, i) (mem_groupScope hembeds.inScope) hembeds.inScope, hget]
      rfl
    have hstored' : (stateBefore env' groups' providers n group' (i + 1)).stored.get
        (trimmed provider.id) = some normal := by
      rw [stateBefore_succ env' groups' providers hembeds'.atProvider, ← hid,
        addEmbedded_get (provider', i) (mem_groupScope hembeds'.inScope) hembeds'.inScope, hstate,
        hrule, hid, hget]
      rfl
    exact sameAs_of_final hfinal hfinal' houtcome (hlater.stays _ _ hstored)
      (hlater'.stays _ _ hstored')
  | some existing =>
    have hget' : (stateBefore env' groups' providers n group' i).stored.get
        (trimmed provider'.id) = some existing := by rw [hstate, hid, hget]
    -- something is stored: the form of a run is kept only where it is this one
    by_cases hfirst : existing = embeddedRule env (n + 1) (provider, i)
    · have hstays := hcopied' n group' i provider' hembeds' existing _ hget'
        (hself.of_sameAs hsame) (hfirst ▸ .refl _)
      have hthis := eq_of_stays (htoStr ▸ hprint) hembeds' hget' hstays
      rw [hrule, hfirst] at hthis
      rw [← hthis]
      exact .refl _
    · by_cases hsecond : existing = normal
      · obtain ⟨-, -, hcopied⟩ := h env groups providers rfl rfl
          (List.forall₂_same.2 fun group _ => .refl group) hproviders
        have hstays := hcopied n group i provider hembeds existing normal hget hform
          (hsecond ▸ .refl _)
        exact absurd (eq_of_stays hprint hembeds hget hstays) hfirst
      · -- a copy is made in both runs, under the same id
        have hnext : allocUniqueProviderId env' (trimmed provider'.id)
            (stateBefore env' groups' providers n group' i).stored =
              allocUniqueProviderId env (trimmed provider.id)
                (stateBefore env groups providers n group i).stored := by
          rw [hstate, hid]
          unfold allocUniqueProviderId
          rw [huuid]
        have hcopy := get_copy hprint hembeds hget hfirst rfl
        have hcopy' := get_copy (htoStr ▸ hprint) hembeds' hget' (by rwa [hrule]) hnext
        rw [hrule] at hcopy'
        have hsameCopies := sameAs_of_final hfinal hfinal' houtcome (hlater.stays _ _ hcopy)
          (hlater'.stays _ _ hcopy')
        have hnormalId : (embeddedRule env (n + 1) (provider, i)).id = normal.id := by
          rw [← hrule]
          exact hsame.id_eq.symm
        exact hsameCopies.of_withId hnormalId

theorem OrderIndependent.hasSingleMaps (hprint : Function.Injective env.toStr)
    (h : OrderIndependent env groups providers) {n i : ℕ} {group : Group}
    {provider existing : Rule}
    (hembeds : Embeds (hasGlobalProviders env providers) groups n group i provider)
    (hget : (stateBefore env groups providers n group i).stored.get (trimmed provider.id) =
      some existing)
    (hequal : existing.SameAs (embeddedRule env (n + 1) (provider, i))) :
    existing.HasSingleMaps := by
  refine @hasSingleMaps_of_forms provider existing fun normal hform => ?_
  obtain ⟨env', groups', group', provider', ⟨htoStr, huuid, hgroups⟩, hembeds', hsame, hrule,
    hstate⟩ := exists_run hembeds hform
  obtain ⟨-, -, hcopied'⟩ := h env' groups' providers htoStr huuid hgroups
    (List.forall₂_same.2 fun rule _ => .refl rule)
  have hget' : (stateBefore env' groups' providers n group' i).stored.get
      (trimmed provider'.id) = some existing := by
    rw [hstate, congrArg trimmed hsame.id_eq, hget]
  have hself := hasForm_normalize (Rule.SameAs.refl provider) (env.order_sameAs (n + 1) i)
  have hstays := hcopied' n group' i provider' hembeds' existing _ hget' (hself.of_sameAs hsame)
    hequal
  rw [← hrule]
  exact eq_of_stays (htoStr ▸ hprint) hembeds' hget' hstays

end Necessary

/-- **The outcome is the same in every order exactly when no turn depends on it.** -/
theorem orderIndependent_iff {env : NormalizeEnv} (hprint : Function.Injective env.toStr)
    (groups : List Group) (providers : List Rule) :
    OrderIndependent env groups providers ↔ OrderFree env groups providers := by
  refine ⟨fun h => ⟨fun i provider hprovider hne hnew => h.global hprovider hne hnew, ?_⟩,
    orderIndependent_of_orderFree hprint⟩
  intro n group i provider hembeds
  exact ⟨h.costsAgree hprint hembeds,
    fun existing hget hequal => h.hasSingleMaps hprint hembeds hget hequal⟩

/-- An environment that prints the hash maps in their order. -/
def NormalizeEnv.printed : NormalizeEnv := { NormalizeEnv.plain with toStr := Json.text }

/-- A group that embeds a provider with an id that it lists. -/
def embeddingGroup (provider : Rule) : Group where
  id := "dev"
  name := "Dev"
  routingTable := [⟨"default", "p1", "gpt"⟩]
  models := none
  providerIds := some ["p1"]
  activeProviderId := none
  providers := some [provider]
  failover := none

/-- A provider with the headers of its quota request. -/
def twoHeadersProvider (headers : HashMap String) : Rule :=
  { sampleProvider "p1" with quota := { defaultRuleQuotaConfig with customHeaders := headers } }

def twoHeaders : HashMap String := ⟨[("x-team", "a"), ("x-trace", "b")], by decide⟩

/-- A provider with one header, and the cost of one model. -/
def oneCostProvider : Rule :=
  { twoHeadersProvider ⟨[("x-team", "a")], by decide⟩ with
    modelCosts := ⟨[("gpt", defaultRuleCostConfig)], by decide⟩ }

/-- It is embedded, too, and the other provider, which has two headers, is not. -/
theorem orderIndependent_oneCost :
    OrderIndependent NormalizeEnv.printed [embeddingGroup oneCostProvider]
      [oneCostProvider, { twoHeadersProvider twoHeaders with id := "p2" }] := by
  have hagree : oneCostProvider.CostsAgree := by
    intro entry hmem entry' hmem' _ _
    rw [List.mem_singleton.1 hmem, List.mem_singleton.1 hmem']
  refine (orderIndependent_iff Json.text_injective _ _).2 ⟨?_, ?_⟩
  · rintro (_ | _ | i) provider hprovider - -
    · cases hprovider
      exact hagree
    · cases hprovider
      exact fun _ hmem => absurd hmem List.not_mem_nil
    · cases hprovider
  · rintro (_ | n) group (_ | i) provider ⟨hgroup, hprovider, -⟩
    · cases hgroup
      cases hprovider
      refine ⟨hagree, fun existing hget _ => ?_⟩
      cases hget
      exact ⟨fun mappings hmem => absurd hmem (Option.not_mem_none mappings), le_refl 1, le_refl 1⟩
    · cases hgroup
      cases hprovider
    · cases hgroup
    · cases hgroup

/-- The stored provider and an equal embedded one, with two headers each: whether a copy is made
depends on the order of the headers. -/
theorem not_orderIndependent_twoHeaders :
    ¬ OrderIndependent NormalizeEnv.printed [embeddingGroup (twoHeadersProvider twoHeaders)]
      [twoHeadersProvider twoHeaders] := by
  intro h
  have hsingle := @OrderIndependent.hasSingleMaps NormalizeEnv.printed
    [embeddingGroup (twoHeadersProvider twoHeaders)] [twoHeadersProvider twoHeaders]
    Json.text_injective h 0 0 (embeddingGroup (twoHeadersProvider twoHeaders))
    (twoHeadersProvider twoHeaders) (twoHeadersProvider twoHeaders) ⟨rfl, rfl, by decide⟩ rfl
    (.refl _)
  exact absurd hsingle.customHeaders (by decide)

end AiOpenRouter
