/-
What the references of a group name after normalisation.

An embedded provider that conflicts with the stored one under its id is stored
under a new id; the ids that the group keeps follow it, its routing table and
its active id do not.

* `ReferencesFollow` says that every reference follows;
* `AllFit` is the condition on the turns of the loop;
* `referencesFollow_iff`: the references follow exactly when it holds.
-/
import AiOpenRouter.ConfigReading
import AiOpenRouter.ProviderStore
import AiOpenRouter.Routing

namespace AiOpenRouter

/-! ### References that follow -/

def embeddedRule (env : NormalizeEnv) (place : ℕ) (provider : Rule × ℕ) : Rule :=
  normalizeProviderForStorage (env.order place provider.2) provider.1

def groupScope (hasGlobal : Bool) (group : Group) : List String :=
  ((groupIds hasGlobal group).map trimmed).filter (· ≠ "")

def NamesContent (providers : List Rule) (id : String) (rule : Rule) : Prop :=
  ∃ provider ∈ providers, provider.id = id ∧ { provider with id := rule.id }.SameAs rule

structure GroupFollows (env : NormalizeEnv) (hasGlobal : Bool) (place : ℕ) (providers : List Rule)
    (group normalized : Group) : Prop where
  routes : List.Forall₂ (fun entry entry' => ∀ provider ∈ (group.providers.getD []).zipIdx,
    trimmed provider.1.id ∈ groupScope hasGlobal group → entry.providerId = provider.1.id →
      NamesContent providers entry'.providerId (embeddedRule env place provider))
    group.routingTable normalized.routingTable
  active : ∀ provider ∈ (group.providers.getD []).zipIdx,
    trimmed provider.1.id ∈ groupScope hasGlobal group →
      group.activeProviderId = some provider.1.id →
        ∃ id, normalized.activeProviderId = some id ∧
          NamesContent providers id (embeddedRule env place provider)
  links : ∀ id ∈ normalized.providerIds.getD [], ∃ provider ∈ providers, provider.id = id

/-- The stored providers of the configuration. -/
def globalProviders (env : NormalizeEnv) (providers : List Rule) : HashMap Rule :=
  providers.zipIdx.foldl (addProvider env) HashMap.empty

/-- **Every reference follows**: the ids of the providers are distinct, and the references of every
group follow. -/
def ReferencesFollow (env : NormalizeEnv) (groups : List Group) (providers : List Rule) : Prop :=
  ((normalizeGroupsAndProviders env groups providers).2.map Rule.id).Nodup ∧
    List.Forall₂ (fun (group : Group × ℕ) normalized =>
      GroupFollows env (!(globalProviders env providers).isEmpty) group.2
        (normalizeGroupsAndProviders env groups providers).2 group.1 normalized)
      (groups.zipIdx 1) (normalizeGroupsAndProviders env groups providers).1

/-! ### The turns of the loop -/

def embeddedTurns (env : NormalizeEnv) (hasGlobal : Bool) (place : ℕ) (stored : HashMap Rule)
    (group : Group) (turns : List (Rule × ℕ)) : EmbeddedState :=
  turns.foldl (addEmbedded env place (groupScope hasGlobal group)) { stored := stored }

/-- A route or the active id of a group is the id. -/
def Group.Names (group : Group) (id : String) : Prop :=
  (∃ entry ∈ group.routingTable, entry.providerId = id) ∨ group.activeProviderId = some id

def EmbeddedState.LeadsTo (st : EmbeddedState) (ids : List String) (id : String) : Prop :=
  id ≠ "" ∧ id ∈ st.stored.keys ∧
    ∃ listed ∈ ids, (st.remap.lookup (trimmed listed)).getD (trimmed listed) = id

/-- What the turns of a group meet: an embedded provider that is named finds nothing else stored
under its id; an active id that names one is still led to; and what is stored under an id that is
kept has this very id. -/
structure GroupFits (env : NormalizeEnv) (hasGlobal : Bool) (place : ℕ) (stored : HashMap Rule)
    (group : Group) : Prop where
  turns : ∀ before provider after,
    (group.providers.getD []).zipIdx = before ++ provider :: after →
      trimmed provider.1.id ∈ groupScope hasGlobal group → group.Names provider.1.id →
        ∀ existing, (embeddedTurns env hasGlobal place stored group before).stored.get
          (trimmed provider.1.id) = some existing →
            existing.SameAs (embeddedRule env place provider)
  active : ∀ rule ∈ group.providers.getD [], trimmed rule.id ∈ groupScope hasGlobal group →
    group.activeProviderId = some rule.id →
      (addEmbeddedProviders env hasGlobal place stored group).LeadsTo (groupIds hasGlobal group)
        rule.id
  links : ∀ id, (addEmbeddedProviders env hasGlobal place stored group).LeadsTo
      (groupIds hasGlobal group) id →
    ∀ rule, (addEmbeddedProviders env hasGlobal place stored group).stored.get id = some rule →
      rule.id = id

/-- The turns of all groups, in the order of the loop. -/
def AllFit (env : NormalizeEnv) (hasGlobal : Bool) : ℕ → HashMap Rule → List Group → Prop
  | _, _, [] => True
  | place, stored, group :: groups =>
    GroupFits env hasGlobal place stored group ∧
      AllFit env hasGlobal (place + 1) (normalizeGroup env hasGlobal place stored group).1 groups

/-! ### What a turn stores -/

theorem mem_groupScope {hasGlobal : Bool} {group : Group} {id : String}
    (h : id ∈ groupScope hasGlobal group) : id ≠ "" :=
  of_decide_eq_true (List.mem_filter.1 h).2

section Turn

variable {env : NormalizeEnv} {place : ℕ} {scope : List String} {st : EmbeddedState}
  (provider : Rule × ℕ)

theorem addEmbedded_of_notMem (hscope : trimmed provider.1.id ∉ scope) :
    addEmbedded env place scope st provider = st := if_pos (.inr hscope)

theorem addEmbedded_of_none (hne : trimmed provider.1.id ≠ "")
    (hscope : trimmed provider.1.id ∈ scope)
    (hget : st.stored.get (trimmed provider.1.id) = none) :
    addEmbedded env place scope st provider =
      { st with
        stored := st.stored.insertNew (trimmed provider.1.id)
          (embeddedRule env place provider) } := by
  have hid : (embeddedRule env place provider).id = provider.1.id := rfl
  unfold addEmbedded
  dsimp only
  rw [← embeddedRule, hid, if_neg (not_or.2 ⟨hne, not_not.2 hscope⟩), hget]

theorem addEmbedded_of_some (hne : trimmed provider.1.id ≠ "")
    (hscope : trimmed provider.1.id ∈ scope) {existing : Rule}
    (hget : st.stored.get (trimmed provider.1.id) = some existing) :
    addEmbedded env place scope st provider =
      if env.toStr existing.toJson ≠ env.toStr (embeddedRule env place provider).toJson then
        { stored := st.stored.insertNew
            (allocUniqueProviderId env (trimmed provider.1.id) st.stored)
            { embeddedRule env place provider with
              id := allocUniqueProviderId env (trimmed provider.1.id) st.stored }
          remap := (trimmed provider.1.id,
            allocUniqueProviderId env (trimmed provider.1.id) st.stored) :: st.remap }
      else st := by
  have hid : (embeddedRule env place provider).id = provider.1.id := rfl
  unfold addEmbedded
  dsimp only
  rw [← embeddedRule, hid, if_neg (not_or.2 ⟨hne, not_not.2 hscope⟩), hget]

theorem addEmbedded_get (hne : trimmed provider.1.id ≠ "")
    (hscope : trimmed provider.1.id ∈ scope) :
    (addEmbedded env place scope st provider).stored.get (trimmed provider.1.id) =
      some ((st.stored.get (trimmed provider.1.id)).getD (embeddedRule env place provider)) := by
  cases hget : st.stored.get (trimmed provider.1.id) with
  | none =>
    rw [addEmbedded_of_none provider hne hscope hget]
    exact HashMap.get_insertNew_self _ (HashMap.get_eq_none_iff.1 hget)
  | some existing =>
    rw [addEmbedded_of_some provider hne hscope hget]
    split_ifs
    · exact HashMap.get_insertNew_of_get _ hget
    · exact hget

end Turn

/-- **The ids that a group keeps.** -/
theorem mem_linkedIds_iff {st : EmbeddedState} {ids : List String} {id : String} :
    id ∈ linkedIds st ids ↔ st.LeadsTo ids id := by
  unfold linkedIds EmbeddedState.LeadsTo
  induction ids using List.reverseRecOn with
  | nil => simp
  | append_singleton ids listed ih =>
    rw [List.foldl_append, List.foldl_cons, List.foldl_nil]
    dsimp only
    generalize hnext : (st.remap.lookup (trimmed listed)).getD (trimmed listed) = next
    have hlisted : (∃ other ∈ ids ++ [listed],
        (st.remap.lookup (trimmed other)).getD (trimmed other) = id) ↔
          (∃ other ∈ ids, (st.remap.lookup (trimmed other)).getD (trimmed other) = id) ∨
            next = id := by
      simp [or_and_right, exists_or, hnext]
    rw [hlisted]
    -- an id that is skipped, one that is taken, one that is not stored
    split_ifs with hskip hstored
    · constructor
      · intro hmem
        obtain ⟨hne, hkey, hled⟩ := ih.1 hmem
        exact ⟨hne, hkey, .inl hled⟩
      · rintro ⟨hne, hkey, hled | rfl⟩
        · exact ih.2 ⟨hne, hkey, hled⟩
        · exact hskip.resolve_left hne
    · rw [List.mem_append, List.mem_singleton]
      constructor
      · rintro (hmem | rfl)
        · obtain ⟨hne, hkey, hled⟩ := ih.1 hmem
          exact ⟨hne, hkey, .inl hled⟩
        · exact ⟨fun hempty => hskip (.inl hempty), of_decide_eq_true hstored, .inr rfl⟩
      · rintro ⟨hne, hkey, hled | rfl⟩
        · exact .inl (ih.2 ⟨hne, hkey, hled⟩)
        · exact .inr rfl
    · constructor
      · intro hmem
        obtain ⟨hne, hkey, hled⟩ := ih.1 hmem
        exact ⟨hne, hkey, .inl hled⟩
      · rintro ⟨hne, hkey, hled | rfl⟩
        · exact ih.2 ⟨hne, hkey, hled⟩
        · exact absurd (decide_eq_true hkey) hstored

/-! ### The stored providers in the end -/

section Final

variable {env : NormalizeEnv} {hasGlobal : Bool} {place : ℕ} {stored final : HashMap Rule}
  {group : Group}

theorem get_of_mem_values (hfinal : IsStore final) {provider : Rule}
    (hmem : provider ∈ final.entries.map Prod.snd) :
    final.get (trimmed provider.id) = some provider := by
  obtain ⟨⟨key, rule⟩, hentry, rfl⟩ := List.mem_map.1 hmem
  rw [hfinal (key, rule) hentry]
  exact HashMap.get_eq_some_iff.2 hentry

theorem mem_values_of_get {key : String} {provider : Rule} (hget : final.get key = some provider) :
    provider ∈ final.entries.map Prod.snd :=
  List.mem_map.2 ⟨(key, provider), HashMap.get_eq_some_iff.1 hget, rfl⟩

/-- **The providers of the result have distinct ids.** -/
theorem nodup_ids (hfinal : IsStore final) : ((final.entries.map Prod.snd).map Rule.id).Nodup := by
  have hkeys : ((final.entries.map Prod.snd).map Rule.id).map trimmed =
      final.entries.map Prod.fst := by
    rw [List.map_map, List.map_map]
    exact List.map_congr_left hfinal
  exact List.Nodup.of_map trimmed (hkeys ▸ final.nodup)

theorem namesContent_iff (hfinal : IsStore final) {rule provider : Rule}
    (hget : final.get (trimmed rule.id) = some provider) :
    NamesContent (final.entries.map Prod.snd) rule.id rule ↔ provider.SameAs rule := by
  constructor
  · rintro ⟨other, hmem, hid, hsame⟩
    have hother := get_of_mem_values hfinal hmem
    rw [hid, hget, Option.some_inj] at hother
    subst hother
    rwa [← hid] at hsame
  · intro hsame
    have hid := hsame.id_eq
    refine ⟨provider, mem_values_of_get hget, hid, ?_⟩
    rwa [← hid]

theorem storeStep_turn {before after : List (Rule × ℕ)} {provider : Rule × ℕ}
    (hsplit : (group.providers.getD []).zipIdx = before ++ provider :: after) :
    StoreStep (addEmbedded env place (groupScope hasGlobal group)
        (embeddedTurns env hasGlobal place stored group before) provider).stored
      (normalizeGroup env hasGlobal place stored group).1 := by
  have hall : addEmbeddedProviders env hasGlobal place stored group =
      after.foldl (addEmbedded env place (groupScope hasGlobal group))
        (addEmbedded env place (groupScope hasGlobal group)
          (embeddedTurns env hasGlobal place stored group before) provider) := by
    rw [addEmbeddedProviders, hsplit, List.foldl_append, List.foldl_cons]
    rfl
  have hrest := StoreStep.foldl EmbeddedState.stored
    (storeStep_addEmbedded env place (groupScope hasGlobal group)) after
    (addEmbedded env place (groupScope hasGlobal group)
      (embeddedTurns env hasGlobal place stored group before) provider)
  rw [← hall] at hrest
  exact hrest

/-- **An id that names an embedded provider** names its content in the end exactly when nothing else
was stored under it at the provider's turn. -/
theorem namesContent_turn_iff {before after : List (Rule × ℕ)} {provider : Rule × ℕ}
    (hsplit : (group.providers.getD []).zipIdx = before ++ provider :: after)
    (hscope : trimmed provider.1.id ∈ groupScope hasGlobal group) (hfinal : IsStore final)
    (hstep : StoreStep (normalizeGroup env hasGlobal place stored group).1 final) :
    NamesContent (final.entries.map Prod.snd) provider.1.id (embeddedRule env place provider) ↔
      ∀ existing, (embeddedTurns env hasGlobal place stored group before).stored.get
        (trimmed provider.1.id) = some existing →
          existing.SameAs (embeddedRule env place provider) := by
  have hturn := @addEmbedded_get env place (groupScope hasGlobal group)
    (embeddedTurns env hasGlobal place stored group before) provider (mem_groupScope hscope) hscope
  have hrest := @storeStep_turn env hasGlobal place stored group _ _ _ hsplit
  have hget := hstep.stays _ _ (hrest.stays _ _ hturn)
  have hnames := @namesContent_iff final hfinal (embeddedRule env place provider) _ hget
  refine hnames.trans ?_
  cases (embeddedTurns env hasGlobal place stored group before).stored.get
    (trimmed provider.1.id) with
  | none => exact iff_of_true (Rule.SameAs.refl _) fun _ h => nomatch h
  | some existing =>
    rw [Option.getD_some]
    exact ⟨fun h _ heq => Option.some.inj heq ▸ h, fun h => h existing rfl⟩

theorem link_iff (hfinal : IsStore final)
    (hstep : StoreStep (normalizeGroup env hasGlobal place stored group).1 final) {id : String}
    (hled : (addEmbeddedProviders env hasGlobal place stored group).LeadsTo
      (groupIds hasGlobal group) id) :
    (∃ provider ∈ final.entries.map Prod.snd, provider.id = id) ↔
      ∀ rule, (addEmbeddedProviders env hasGlobal place stored group).stored.get id = some rule →
        rule.id = id := by
  obtain ⟨rule, hrule⟩ := Option.isSome_iff_exists.1 (HashMap.get_isSome_iff.2 hled.2.1)
  have hget := hstep.stays _ _ hrule
  have htrimmed : trimmed id = id := hfinal.trimmed_key (HashMap.mem_keys_of_get hget)
  constructor
  · rintro ⟨provider, hmem, hid⟩ other hother
    have hprovider := get_of_mem_values hfinal hmem
    rw [hid, htrimmed, hget, Option.some_inj] at hprovider
    rw [hrule, Option.some_inj] at hother
    rw [← hother, hprovider, hid]
  · intro h
    exact ⟨rule, mem_values_of_get hget, h rule hrule⟩

/-! ### One group -/

theorem activeProviderId_normalizeGroup {id : String} :
    (normalizeGroup env hasGlobal place stored group).2.activeProviderId = some id ↔
      group.activeProviderId = some id ∧
        (addEmbeddedProviders env hasGlobal place stored group).LeadsTo
          (groupIds hasGlobal group) id := by
  rw [← mem_linkedIds_iff]
  show group.activeProviderId.filter _ = some id ↔ _
  rw [Option.filter_eq_some_iff, decide_eq_true_eq]

/-- **The references of a group follow exactly when its turns fit.** -/
theorem groupFollows_iff (hfinal : IsStore final)
    (hstep : StoreStep (normalizeGroup env hasGlobal place stored group).1 final) :
    GroupFollows env hasGlobal place (final.entries.map Prod.snd) group
        (normalizeGroup env hasGlobal place stored group).2 ↔
      GroupFits env hasGlobal place stored group := by
  have htable : (normalizeGroup env hasGlobal place stored group).2.routingTable =
      group.routingTable := rfl
  have hkept : (normalizeGroup env hasGlobal place stored group).2.providerIds.getD [] =
      linkedIds (addEmbeddedProviders env hasGlobal place stored group)
        (groupIds hasGlobal group) := rfl
  constructor
  · rintro ⟨hroutes, hactive, hlinks⟩
    rw [htable, List.forall₂_same] at hroutes
    refine ⟨fun before provider after hsplit hscope hnamed => ?_, fun rule hrule hscope heq => ?_,
      fun id hled => ?_⟩
    · have hmem : provider ∈ (group.providers.getD []).zipIdx := by
        rw [hsplit]
        exact List.mem_append_right _ List.mem_cons_self
      rw [← namesContent_turn_iff hsplit hscope hfinal hstep]
      -- named by a routing entry, or as the active provider
      rcases hnamed with ⟨entry, hentry, hid⟩ | hid
      · have hnames := hroutes entry hentry provider hmem hscope hid
        rwa [hid] at hnames
      · obtain ⟨id, hnormalized, hnames⟩ := hactive provider hmem hscope hid
        have hgiven := (activeProviderId_normalizeGroup.1 hnormalized).1
        rw [hid, Option.some_inj] at hgiven
        rwa [← hgiven] at hnames
    · obtain ⟨i, hi⟩ := List.mem_iff_getElem?.mp hrule
      obtain ⟨id, hnormalized, -⟩ := hactive (rule, i) (List.mk_mem_zipIdx_iff_getElem?.mpr hi)
        hscope heq
      obtain ⟨hgiven, hled⟩ := activeProviderId_normalizeGroup.1 hnormalized
      rw [heq, Option.some_inj] at hgiven
      rwa [hgiven]
    · rw [← link_iff hfinal hstep hled]
      exact hlinks id (hkept ▸ mem_linkedIds_iff.2 hled)
  · intro hfits
    refine ⟨?_, fun provider hmem hscope hid => ?_, fun id hid => ?_⟩
    · rw [htable, List.forall₂_same]
      intro entry hentry provider hmem hscope hid
      obtain ⟨before, after, hsplit⟩ := List.append_of_mem hmem
      rw [hid, namesContent_turn_iff hsplit hscope hfinal hstep]
      exact hfits.turns before provider after hsplit hscope (.inl ⟨entry, hentry, hid⟩)
    · obtain ⟨before, after, hsplit⟩ := List.append_of_mem hmem
      have hrule : provider.1 ∈ group.providers.getD [] := List.fst_mem_of_mem_zipIdx hmem
      refine ⟨provider.1.id,
        activeProviderId_normalizeGroup.2 ⟨hid, hfits.active _ hrule hscope hid⟩, ?_⟩
      rw [namesContent_turn_iff hsplit hscope hfinal hstep]
      exact hfits.turns before provider after hsplit hscope (.inr hid)
    · have hled := mem_linkedIds_iff.1 (hkept ▸ hid)
      rw [link_iff hfinal hstep hled]
      exact hfits.links id hled

/-- **The loop over the groups.** -/
theorem forall_groupFollows_iff {groups : List Group} (hfinal : IsStore final)
    (hstep : StoreStep (normalizeGroups env hasGlobal place stored groups).1 final) :
    List.Forall₂ (fun (group : Group × ℕ) normalized =>
      GroupFollows env hasGlobal group.2 (final.entries.map Prod.snd) group.1 normalized)
      (groups.zipIdx place) (normalizeGroups env hasGlobal place stored groups).2 ↔
        AllFit env hasGlobal place stored groups := by
  induction groups generalizing place stored with
  | nil => exact iff_of_true .nil trivial
  | cons group groups ih =>
    have hrest := (normalizeGroups_spec env hasGlobal (place + 1)
      (normalizeGroup env hasGlobal place stored group).1 groups).1
    have hfollows := @groupFollows_iff env hasGlobal place stored final group hfinal
      (hrest.trans hstep)
    have hothers := @ih (place + 1) (normalizeGroup env hasGlobal place stored group).1 hstep
    rw [List.zipIdx_cons]
    exact List.forall₂_cons.trans (and_congr hfollows hothers)

end Final

/-! ### The whole configuration -/

/-- **The references follow exactly when the turns of all groups fit.** -/
theorem referencesFollow_iff (env : NormalizeEnv) (groups : List Group) (providers : List Rule) :
    ReferencesFollow env groups providers ↔
      AllFit env (!(globalProviders env providers).isEmpty) 1 (globalProviders env providers)
        groups := by
  have hglobal := StoreStep.foldl id (storeStep_addProvider env) providers.zipIdx HashMap.empty
  have hgroups := (normalizeGroups_spec env (!(globalProviders env providers).isEmpty) 1
    (globalProviders env providers) groups).1
  have hfinal := (hglobal.trans hgroups).isStore isStore_empty
  have hfollows := @forall_groupFollows_iff env (!(globalProviders env providers).isEmpty) 1
    (globalProviders env providers) _ groups hfinal (StoreStep.refl _)
  exact ⟨fun h => hfollows.1 h.2, fun h => ⟨nodup_ids hfinal, hfollows.2 h⟩⟩

def movedProvider : Rule := { sampleProvider "p1" with apiAddress := "https://team.example.com" }

/-- A group that routes to its embedded provider, which is not the stored one with its id. -/
def movedGroup : Group where
  id := "dev"
  name := "Dev"
  routingTable := [⟨"default", "p1", "gpt"⟩]
  models := none
  providerIds := some ["p1"]
  activeProviderId := some "p1"
  providers := some [movedProvider]
  failover := none

/-- The route of the group names the stored provider afterwards, not the embedded one. -/
theorem not_referencesFollow_movedGroup :
    ¬ ReferencesFollow NormalizeEnv.plain [movedGroup] [sampleProvider "p1"] := by
  rintro ⟨-, hgroups⟩
  obtain ⟨hfollows, -⟩ := List.forall₂_cons.1 hgroups
  obtain ⟨hentry, -⟩ := List.forall₂_cons.1 hfollows.routes
  obtain ⟨provider, hmem, hid, hsame⟩ := hentry
    (movedProvider, 0) List.mem_cons_self (by decide) rfl
  have haddress := congrArg Rule.apiAddress hsame.rest
  have hnot : ∀ provider ∈ (normalizeGroupsAndProviders NormalizeEnv.plain [movedGroup]
      [sampleProvider "p1"]).2, provider.id = "p1" →
        provider.apiAddress ≠ "https://team.example.com" := by
    decide +kernel
  exact hnot provider hmem hid haddress

end AiOpenRouter
