/-
The stored providers of a normalised configuration.

Normalisation only adds to the stored providers, each under its trimmed id, and a
group has copies of the stored providers that its ids name.

* `IsStore` is the invariant of the stored providers;
* `normalizeGroups_spec`: the loop over the groups only adds, and links to the stored ones;
* `Valid.id_of_get`: once the checks pass, a linked provider has the id that links it.
-/
import AiOpenRouter.ConfigValidation
import Mathlib.Data.List.DropRight

namespace AiOpenRouter

/-! ### Trimmed texts -/

def HasNoEdges (s : List Char) : Prop :=
  (∀ c ∈ s.head?, Text.isWhitespace c = false) ∧ ∀ c ∈ s.getLast?, Text.isWhitespace c = false

theorem trimEndMatches_eq_rdropWhile (p : Char → Bool) (s : List Char) :
    Text.trimEndMatches p s = s.rdropWhile p := rfl

theorem hasNoEdges_trim (s : List Char) : HasNoEdges (Text.trim s) := by
  have hprefix := List.rdropWhile_prefix Text.isWhitespace (Text.trimStart s)
  constructor
  · intro c hc
    obtain ⟨rest, hrest⟩ := hprefix
    have hstart : (Text.trimStart s).head? = some c := by
      rw [← hrest, List.head?_append, show (List.rdropWhile _ _).head? = some c from hc]
      rfl
    have hnot := List.head?_dropWhile_not Text.isWhitespace s
    rw [show (s.dropWhile Text.isWhitespace).head? = some c from hstart] at hnot
    exact hnot
  · intro c hc
    have hlast : (List.rdropWhile Text.isWhitespace (Text.trimStart s)).getLast? = some c := hc
    have hne : List.rdropWhile Text.isWhitespace (Text.trimStart s) ≠ [] := fun hnil => by
      rw [hnil] at hlast
      cases hlast
    have hnot := List.rdropWhile_last_not Text.isWhitespace (Text.trimStart s) hne
    rw [List.getLast?_eq_some_getLast hne, Option.some_inj] at hlast
    rw [hlast] at hnot
    exact Bool.eq_false_iff.2 hnot

theorem trim_of_hasNoEdges {s : List Char} (h : HasNoEdges s) : Text.trim s = s := by
  have hstart : Text.trimStart s = s := by
    cases s with
    | nil => rfl
    | cons c s => exact List.dropWhile_cons_of_neg (Bool.eq_false_iff.1 (h.1 c rfl))
  rw [Text.trim, hstart, trimEndMatches_eq_rdropWhile, List.rdropWhile_eq_self_iff]
  intro hne
  exact Bool.eq_false_iff.1 (h.2 _ (List.getLast?_eq_some_getLast hne))

theorem trimmed_trimmed (s : String) : trimmed (trimmed s) = trimmed s := by
  rw [trimmed, trimmed, String.toList_ofList, trim_of_hasNoEdges (hasNoEdges_trim _)]

theorem trimmed_candidate {base : String} (hbase : trimmed base = base) (hne : base ≠ "") (n : ℕ) :
    trimmed (base ++ "-" ++ toString n) = base ++ "-" ++ toString n := by
  have hedges : HasNoEdges base.toList := by
    have hb := hasNoEdges_trim base.toList
    rw [← String.toList_ofList (l := Text.trim base.toList)] at hb
    rwa [show String.ofList (Text.trim base.toList) = base from hbase] at hb
  have hchars : base.toList ≠ [] := fun h => hne (String.toList_eq_nil_iff.1 h)
  have hdigits : (toString n).toList = Nat.toDigits 10 n := Nat.toList_repr
  have hlist : (base ++ "-" ++ toString n).toList =
      base.toList ++ ('-' :: Nat.toDigits 10 n) := by
    rw [String.toList_append, String.toList_append, hdigits, List.append_assoc]
    rfl
  have hall : HasNoEdges (base ++ "-" ++ toString n).toList := by
    rw [hlist]
    constructor
    · intro c hc
      rw [List.head?_append_of_ne_nil _ hchars] at hc
      exact hedges.1 c hc
    · intro c hc
      rw [List.getLast?_append_of_ne_nil _ (List.cons_ne_nil _ _)] at hc
      rcases List.mem_cons.1 (List.mem_of_getLast? hc) with rfl | hmem
      · decide
      · have hdigit := Nat.isDigit_of_mem_toDigits (by decide) (by decide) hmem
        simp only [Char.isDigit, Bool.and_eq_true, decide_eq_true_eq] at hdigit
        have hlow : 48 ≤ c.toNat := hdigit.1
        have hhigh : c.toNat ≤ 57 := hdigit.2
        simp only [Text.isWhitespace, Bool.or_eq_false_iff, Bool.and_eq_false_iff,
          decide_eq_false_iff_not]
        omega
  rw [trimmed, trim_of_hasNoEdges hall, String.ofList_toList]

/-! ### The stored providers -/

def IsStore (stored : HashMap Rule) : Prop := ∀ entry ∈ stored.entries, trimmed entry.2.id = entry.1

theorem isStore_empty : IsStore HashMap.empty := fun _ h => nomatch h

theorem IsStore.id {stored : HashMap Rule} (h : IsStore stored) {id : String} {rule : Rule}
    (hget : stored.get id = some rule) : trimmed rule.id = id :=
  h (id, rule) (HashMap.get_eq_some_iff.1 hget)

theorem IsStore.trimmed_key {stored : HashMap Rule} (h : IsStore stored) {id : String}
    (hmem : id ∈ stored.keys) : trimmed id = id := by
  obtain ⟨entry, hentry, rfl⟩ := List.mem_map.1 hmem
  rw [← h entry hentry, trimmed_trimmed]

/-- A change of the stored providers: what is stored stays, and what is added is under its trimmed
id. -/
structure StoreStep (stored stored' : HashMap Rule) : Prop where
  isStore : IsStore stored → IsStore stored'
  stays : ∀ id rule, stored.get id = some rule → stored'.get id = some rule

variable (env : NormalizeEnv) (hasGlobal : Bool) (place : ℕ) (stored : HashMap Rule)

theorem StoreStep.refl : StoreStep stored stored := ⟨id, fun _ _ h => h⟩

theorem StoreStep.trans {stored stored' stored'' : HashMap Rule} (h : StoreStep stored stored')
    (h' : StoreStep stored' stored'') : StoreStep stored stored'' :=
  ⟨fun hstore => h'.isStore (h.isStore hstore),
    fun id rule hget => h'.stays id rule (h.stays id rule hget)⟩

theorem StoreStep.insertNew {id : String} {rule : Rule} (h : trimmed rule.id = id) :
    StoreStep stored (stored.insertNew id rule) where
  isStore hstore entry hmem := by
    rcases HashMap.mem_entries_insertNew hmem with hmem | rfl
    · exact hstore entry hmem
    · exact h
  stays _ _ hget := HashMap.get_insertNew_of_get rule hget

theorem StoreStep.foldl {α σ : Type} {turn : σ → α → σ} (stored : σ → HashMap Rule)
    (h : ∀ st x, StoreStep (stored st) (stored (turn st x))) (xs : List α) (st : σ) :
    StoreStep (stored st) (stored (xs.foldl turn st)) := by
  induction xs generalizing st with
  | nil => exact StoreStep.refl _
  | cons x xs ih => exact (h st x).trans (ih (turn st x))

theorem storeStep_addProvider (provider : Rule × ℕ) :
    StoreStep stored (addProvider env stored provider) := by
  unfold addProvider
  dsimp only
  split_ifs
  · exact StoreStep.refl stored
  · exact StoreStep.insertNew stored rfl

theorem allocUniqueProviderId_notMem (providerId : String) (stored : HashMap Rule) :
    allocUniqueProviderId env providerId stored ∉ stored.keys := by
  unfold allocUniqueProviderId
  dsimp only
  generalize (if trimmed providerId = "" then []
    else (List.range 999).map fun i => trimmed providerId ++ "-" ++ toString (i + 2)) = candidates
  cases hfound : candidates.find? fun candidate => !stored.contains candidate with
  | none => exact env.newUuid_not_mem stored.keys
  | some candidate =>
    have hnew := List.find?_some hfound
    rw [Bool.not_eq_true', HashMap.contains, decide_eq_false_iff_not] at hnew
    exact hnew

theorem trimmed_allocUniqueProviderId (providerId : String) (stored : HashMap Rule) :
    trimmed (allocUniqueProviderId env providerId stored) =
      allocUniqueProviderId env providerId stored := by
  unfold allocUniqueProviderId
  dsimp only
  cases hfound : (if trimmed providerId = "" then []
      else (List.range 999).map fun i => trimmed providerId ++ "-" ++ toString (i + 2)).find?
        (fun candidate => !stored.contains candidate) with
  | none => exact env.trimmed_newUuid _
  | some candidate =>
    have hmem := List.mem_of_find?_eq_some hfound
    by_cases hbase : trimmed providerId = ""
    · rw [if_pos hbase] at hmem
      cases hmem
    · rw [if_neg hbase] at hmem
      obtain ⟨i, -, rfl⟩ := List.mem_map.1 hmem
      exact trimmed_candidate (trimmed_trimmed providerId) hbase (i + 2)

theorem storeStep_addEmbedded (scope : List String) (st : EmbeddedState) (provider : Rule × ℕ) :
    StoreStep st.stored (addEmbedded env place scope st provider).stored := by
  unfold addEmbedded
  dsimp only
  generalize normalizeProviderForStorage (env.order place provider.2) provider.1 = rule
  by_cases hskip : trimmed rule.id = "" ∨ trimmed rule.id ∉ scope
  · rw [if_pos hskip]
    exact StoreStep.refl st.stored
  · rw [if_neg hskip]
    cases st.stored.get (trimmed rule.id) with
    | none => exact StoreStep.insertNew st.stored rfl
    | some existing =>
      dsimp only
      by_cases hconflict : env.toStr existing.toJson ≠ env.toStr rule.toJson
      · have hnext := trimmed_allocUniqueProviderId env (trimmed rule.id) st.stored
        rw [if_pos hconflict]
        generalize allocUniqueProviderId env (trimmed rule.id) st.stored = nextId at hnext ⊢
        exact StoreStep.insertNew st.stored hnext
      · rw [if_neg hconflict]
        exact StoreStep.refl st.stored

/-! ### What a group embeds -/

def LinkedTo (stored : HashMap Rule) (group : Group) : Prop :=
  ∃ ids, group.providerIds = some ids ∧ (∀ id ∈ ids, id ∈ stored.keys) ∧
    group.providers = some (ids.filterMap stored.get)

theorem LinkedTo.step {stored stored' : HashMap Rule} {group : Group} (h : LinkedTo stored group)
    (hstep : StoreStep stored stored') : LinkedTo stored' group := by
  obtain ⟨ids, hids, hkeys, hproviders⟩ := h
  have hget : ∀ id ∈ ids, stored'.get id = stored.get id := by
    intro id hmem
    obtain ⟨rule, hrule⟩ :=
      Option.isSome_iff_exists.1 (HashMap.get_isSome_iff.2 (hkeys id hmem))
    rw [hrule]
    exact hstep.stays id rule hrule
  refine ⟨ids, hids, fun id hmem => ?_, ?_⟩
  · rw [← HashMap.get_isSome_iff, hget id hmem, HashMap.get_isSome_iff]
    exact hkeys id hmem
  · rw [hproviders, List.filterMap_congr hget]

theorem mem_keys_of_mem_linkedIds {st : EmbeddedState} {ids : List String} :
    ∀ id ∈ linkedIds st ids, id ∈ st.stored.keys := by
  unfold linkedIds
  induction ids using List.reverseRecOn with
  | nil => exact fun _ h => nomatch h
  | append_singleton ids id ih =>
    rw [List.foldl_append, List.foldl_cons, List.foldl_nil]
    dsimp only
    split_ifs with hskip hstored
    · exact ih
    · intro other hmem
      rcases List.mem_append.1 hmem with hmem | hmem
      · exact ih other hmem
      · rw [List.mem_singleton.1 hmem]
        exact of_decide_eq_true hstored
    · exact ih

theorem normalizeGroup_spec (group : Group) :
    StoreStep stored (normalizeGroup env hasGlobal place stored group).1 ∧
      LinkedTo (normalizeGroup env hasGlobal place stored group).1
        (normalizeGroup env hasGlobal place stored group).2 :=
  ⟨StoreStep.foldl EmbeddedState.stored (storeStep_addEmbedded env place _) _ { stored := stored },
    _, rfl, mem_keys_of_mem_linkedIds, rfl⟩

/-- **The loop over the groups only adds providers, and links every group to the stored ones.** -/
theorem normalizeGroups_spec (groups : List Group) :
    StoreStep stored (normalizeGroups env hasGlobal place stored groups).1 ∧
      ∀ group ∈ (normalizeGroups env hasGlobal place stored groups).2,
        LinkedTo (normalizeGroups env hasGlobal place stored groups).1 group := by
  induction groups generalizing place stored with
  | nil => exact ⟨StoreStep.refl stored, fun _ h => nomatch h⟩
  | cons group groups ih =>
    obtain ⟨hstep, hlinked⟩ := normalizeGroup_spec env hasGlobal place stored group
    obtain ⟨hrest, hall⟩ := ih (place + 1) (normalizeGroup env hasGlobal place stored group).1
    exact ⟨hstep.trans hrest, List.forall_mem_cons.2 ⟨hlinked.step hrest, hall⟩⟩

theorem length_normalizeGroups (groups : List Group) :
    (normalizeGroups env hasGlobal place stored groups).2.length = groups.length := by
  induction groups generalizing place stored with
  | nil => rfl
  | cons group groups ih =>
    rw [normalizeGroups]
    dsimp only
    rw [List.length_cons, List.length_cons, ih]

/-- A configuration whose providers are the stored ones that have models, and whose groups are
linked to the store. -/
structure ComesFrom (stored : HashMap Rule) (config : ProxyConfig) : Prop where
  isStore : IsStore stored
  providers : config.providers = (stored.entries.map Prod.snd).filter Rule.hasModels
  groups : ∀ group ∈ config.groups, LinkedTo stored group

theorem exists_comesFrom (config : ProxyConfig) :
    ∃ stored, ComesFrom stored (normalizeConfigForStorage env config) := by
  have hglobal := StoreStep.foldl id (storeStep_addProvider env)
    config.providers.zipIdx HashMap.empty
  obtain ⟨hstep, hlinked⟩ := normalizeGroups_spec env
    (!(config.providers.zipIdx.foldl (addProvider env) HashMap.empty).isEmpty) 1
    (config.providers.zipIdx.foldl (addProvider env) HashMap.empty) config.groups
  exact ⟨_, (hglobal.trans hstep).isStore isStore_empty, rfl,
    fun group hmem => hlinked group (List.mem_of_mem_filter hmem)⟩

section

variable {stored : HashMap Rule} {config : ProxyConfig}

variable {provider : Rule}

theorem ComesFrom.exists_get (h : ComesFrom stored config) (hmem : provider ∈ config.providers) :
    ∃ id, stored.get id = some provider := by
  rw [h.providers] at hmem
  obtain ⟨entry, hentry, rfl⟩ := List.mem_map.1 (List.mem_of_mem_filter hmem)
  exact ⟨entry.1, HashMap.get_eq_some_iff.2 hentry⟩

theorem ComesFrom.mem_providers (h : ComesFrom stored config) {id : String}
    (hget : stored.get id = some provider) (hmodels : provider.hasModels = true) :
    provider ∈ config.providers := by
  rw [h.providers]
  exact List.mem_filter.2
    ⟨List.mem_map.2 ⟨(id, provider), HashMap.get_eq_some_iff.1 hget, rfl⟩, hmodels⟩

theorem ComesFrom.hasModels (h : ComesFrom stored config) (hmem : provider ∈ config.providers) :
    provider.hasModels = true := by
  rw [h.providers] at hmem
  exact (List.mem_filter.1 hmem).2

/-- **Once the checks pass, a linked provider has the id that links it.** -/
theorem Valid.id_of_get (hvalid : Valid config) (hfrom : ComesFrom stored config) {group : Group}
    (hgroup : group ∈ config.groups) {ids : List String} (hids : group.providerIds = some ids)
    (hembedded : group.providers = some (ids.filterMap stored.get)) {id : String} (hmem : id ∈ ids)
    {rule : Rule} (hget : stored.get id = some rule) : rule.id = id := by
  have heffective : id ∈ effectiveProviderIds group := by
    cases ids with
    | nil => cases hmem
    | cons first ids =>
      rw [effectiveProviderIds, hids]
      exact hmem
  obtain ⟨provider, hprovider, hid⟩ := (hvalid.groups group hgroup).provider id heffective
  -- the provider that the checks found is stored, and under this id
  have hentry : ∃ key, stored.get key = some provider := by
    rcases hprovider with hmem | hmem
    · exact hfrom.exists_get hmem
    · rw [hembedded, Option.getD_some] at hmem
      obtain ⟨key, -, hkey⟩ := List.mem_filterMap.1 hmem
      exact ⟨key, hkey⟩
  obtain ⟨key, hkey⟩ := hentry
  have hkeyed : key = id := by
    rw [← hfrom.isStore.id hkey, hid]
    exact hfrom.isStore.trimmed_key (HashMap.mem_keys_of_get hget)
  rw [hkeyed, hget, Option.some_inj] at hkey
  rw [hkey, hid]

end

end AiOpenRouter
