/-
What is found in the files of OpenClaw after a group entry was written.

The writer and the reader do not look for the providers of `models.json` at the same
place: when there are two places, the one writes at the root and the other reads under
`models`.

* `getD_getOpenclawProviderObject_syncProvider` says what the reader finds in `models.json`;
* `getOpenclawProvidersObject_format` does so for `openclaw.json`;
* `resolveOpenclawProviderName_format` is the provider that the reader picks.
-/
import AiOpenRouter.OpenclawConfigs

namespace AiOpenRouter

open Json (Fields)

/-! ### Texts that are not blank -/

theorem nonBlank_eq_some {raw : Option String} {text : String} :
    nonBlank raw = some text ↔ ∃ s, raw = some s ∧ trimmed s = text ∧ text ≠ "" := by
  unfold nonBlank
  rw [Option.filter_eq_some_iff, Option.map_eq_some_iff]
  constructor
  · rintro ⟨⟨s, hs, htext⟩, hne⟩
    exact ⟨s, hs, htext, by simpa using hne⟩
  · rintro ⟨s, hs, htext, hne⟩
    exact ⟨⟨s, hs, htext⟩, by simpa using hne⟩

theorem nonBlank_of_trimmed {text : String} (h : trimmed text = text) (hne : text ≠ "") :
    nonBlank (some text) = some text := nonBlank_eq_some.2 ⟨text, rfl, h, hne⟩

theorem trimmed_buildOpenclawEntryUrl (entryUrl : String) :
    trimmed (buildOpenclawEntryUrl entryUrl) = buildOpenclawEntryUrl entryUrl ∧
      buildOpenclawEntryUrl entryUrl ≠ "" := by
  unfold buildOpenclawEntryUrl
  generalize hbase : Text.trimEndMatches (· = '/') (Text.trim entryUrl.toList) = base
  have hhead : ∀ c ∈ base.head?, Text.isWhitespace c = false := by
    intro c hc
    have hprefix : base <+: Text.trim entryUrl.toList :=
      hbase ▸ List.rdropWhile_prefix _ (Text.trim entryUrl.toList)
    obtain ⟨rest, hrest⟩ := hprefix
    refine (hasNoEdges_trim entryUrl.toList).1 c ?_
    rw [← hrest, List.head?_append, show base.head? = some c from hc]
    rfl
  -- either way the text is a beginning before `/v1`
  have hsplit : ∃ before : List Char, (∀ c ∈ (before ++ "/v1".toList).head?,
      Text.isWhitespace c = false) ∧
        (if "/v1".toList <:+ base then String.ofList base else String.ofList base ++ "/v1") =
          String.ofList (before ++ "/v1".toList) := by
    by_cases hsuffix : "/v1".toList <:+ base
    · obtain ⟨before, hbefore⟩ := hsuffix
      refine ⟨before, by rwa [hbefore], ?_⟩
      rw [if_pos ⟨before, hbefore⟩, hbefore]
    · refine ⟨base, fun c hc => ?_, ?_⟩
      · cases base with
        | nil =>
          obtain rfl : '/' = c := Option.some.inj hc
          decide
        | cons d base => exact hhead c hc
      · rw [if_neg hsuffix, String.ofList_append, String.ofList_toList]
  obtain ⟨before, hfirst, htext⟩ := hsplit
  rw [htext]
  constructor
  · rw [trimmed, String.toList_ofList, trim_of_hasNoEdges ⟨hfirst, fun c hc => ?_⟩]
    have hlast : (before ++ "/v1".toList).getLast? = some '1' := by
      rw [List.getLast?_append]
      rfl
    obtain rfl : '1' = c := Option.some.inj (hlast.symm.trans hc)
    decide
  · intro hempty
    have hnil := congrArg String.toList hempty
    rw [String.toList_ofList, String.toList_empty] at hnil
    exact absurd (List.append_eq_nil_iff.1 hnil).2 (by decide)

/-! ### The providers of `models.json` -/

def HasTwoRegistries (root : Fields) : Prop :=
  (root.lookup "providers").isSome = true ∧ (nestedProviders root).isSome = true

instance (root : Fields) : Decidable (HasTwoRegistries root) :=
  inferInstanceAs (Decidable (_ ∧ _))

/-- The map that `ensure_openclaw_registry_provider_map` leads to, as it is before. -/
def registryMap (root : Fields) : Fields :=
  if registryAtRoot root then Json.childObject root "providers"
  else Json.childObject (Json.childObject root "models") "providers"

theorem childObject_updateChild (parent : Fields) (key : String) (f : Fields → Fields) :
    Json.childObject (Json.updateChild parent key f) key = f (Json.childObject parent key) := by
  rw [Json.childObject, Json.lookup_updateChild, if_pos rfl]
  rfl

theorem childObject_updateChild_of_ne (parent : Fields) {key key' : String} (h : key' ≠ key)
    (f : Fields → Fields) :
    Json.childObject (Json.updateChild parent key f) key' = Json.childObject parent key' := by
  rw [Json.childObject, Json.lookup_updateChild, if_neg h, Json.childObject]

variable (root : Fields)

theorem nestedProviders_updateChild_of_ne {key : String} (h : "models" ≠ key)
    (f : Fields → Fields) :
    nestedProviders (Json.updateChild root key f) = nestedProviders root := by
  rw [nestedProviders, Json.lookup_updateChild, if_neg h, nestedProviders]

theorem nestedProviders_updateChild (f : Fields → Fields) :
    nestedProviders (Json.updateChild root "models" fun models =>
        Json.updateChild models "providers" f) =
      some (f (Json.childObject (Json.childObject root "models") "providers")) := by
  rw [nestedProviders, Json.lookup_updateChild, if_pos rfl, Option.bind_some, Json.asObject,
    Option.bind_some, Json.lookup_updateChild, if_pos rfl]
  rfl

theorem getD_nestedProviders :
    (nestedProviders root).getD [] =
    Json.childObject (Json.childObject root "models") "providers" := by
  unfold nestedProviders
  rw [Json.childObject, Json.childObject]
  rcases (root.lookup "models").bind Json.asObject with _ | models <;> rfl

theorem isSome_or_eq_none_of_registryAtRoot {root : Fields} (h : registryAtRoot root = true) :
    (root.lookup "providers").isSome = true ∨ nestedProviders root = none := by
  rcases Bool.or_eq_true_iff.1 h with hproviders | hmodels
  · exact .inl hproviders
  · rw [nestedProviders, Option.isNone_iff_eq_none.1 hmodels]
    exact .inr rfl

theorem lookup_eq_none_of_registryAtRoot {root : Fields} (h : ¬ registryAtRoot root = true) :
    root.lookup "providers" = none := by
  have hproviders := (Bool.or_eq_false_iff.1 (Bool.eq_false_iff.2 h)).1
  rwa [Option.isSome_eq_false_iff, Option.isNone_iff_eq_none] at hproviders

/-- **The reader finds what was written, unless there are two places.** -/
theorem getOpenclawProvidersObject_updateRegistry (f : Fields → Fields) :
    getOpenclawProvidersObject (updateRegistry root f) =
      if HasTwoRegistries root then getOpenclawProvidersObject root
      else some (f (registryMap root)) := by
  unfold updateRegistry registryMap getOpenclawProvidersObject
  by_cases hroot : registryAtRoot root = true
  · rw [if_pos hroot, if_pos hroot, nestedProviders_updateChild_of_ne root (by decide),
      Json.lookup_updateChild, if_pos rfl]
    rcases hnested : nestedProviders root with _ | providers
    · rw [if_neg fun h : HasTwoRegistries root => by rw [HasTwoRegistries, hnested] at h; cases h.2]
      rfl
    · rw [if_pos ⟨(isSome_or_eq_none_of_registryAtRoot hroot).resolve_right (by simp [hnested]),
        by rw [hnested]; rfl⟩]
      rfl
  · have hproviders := lookup_eq_none_of_registryAtRoot hroot
    rw [if_neg hroot, if_neg hroot, nestedProviders_updateChild,
      if_neg fun h : HasTwoRegistries root => by rw [HasTwoRegistries, hproviders] at h; cases h.1]
    rfl

/-- What the reader finds is what the writer changes, unless there are two places. -/
theorem getD_getOpenclawProvidersObject {root : Fields} (h : ¬ HasTwoRegistries root) :
    (getOpenclawProvidersObject root).getD [] = registryMap root := by
  unfold registryMap getOpenclawProvidersObject
  by_cases hroot : registryAtRoot root = true
  · have hnested : nestedProviders root = none := by
      rcases isSome_or_eq_none_of_registryAtRoot hroot with hproviders | hnested
      · by_contra hsome
        exact h ⟨hproviders, Option.isSome_iff_ne_none.2 hsome⟩
      · exact hnested
    rw [if_pos hroot, hnested]
    rfl
  · rw [if_neg hroot, lookup_eq_none_of_registryAtRoot hroot, ← getD_nestedProviders]
    rcases nestedProviders root <;> rfl

/-- **The reader finds the provider that was written, unless there are two places or it looks for
another one.** -/
theorem getD_getOpenclawProviderObject_syncProvider (providerValue : Fields) (written read : String)
    (preserveExisting : Bool) :
    (getOpenclawProviderObject (syncProvider written providerValue preserveExisting root)
        read).getD [] =
      if read = written ∧ ¬ HasTwoRegistries root then
        nextProvider (((registryMap root).lookup written).bind Json.asObject) providerValue
          preserveExisting
      else (getOpenclawProviderObject root read).getD [] := by
  unfold syncProvider getOpenclawProviderObject
  rw [getOpenclawProvidersObject_updateRegistry]
  by_cases htwo : HasTwoRegistries root
  · rw [if_pos htwo, if_neg (fun h => h.2 htwo)]
  · rw [if_neg htwo, Option.bind_some, lookup_insertField]
    by_cases hread : read = written
    · rw [if_pos hread, if_pos ⟨hread, htwo⟩]
      rfl
    · rw [if_neg hread, if_neg (fun h => hread h.1), ← getD_getOpenclawProvidersObject htwo]
      rcases getOpenclawProvidersObject root <;> rfl

/-! ### The providers of `openclaw.json` -/

section Format

variable {config : Option AgentConfig} {entryUrl : String} {root root' : Fields}

theorem snapshot_eq :
    buildOpenclawProviderSnapshot (openclawEntryEditor config entryUrl root) false =
    [("api", .str (snapshotApi (openclawEntryEditor config entryUrl root))),
      ("baseUrl", .str (buildOpenclawEntryUrl entryUrl))] := by
  obtain ⟨htrim, hne⟩ := trimmed_buildOpenclawEntryUrl entryUrl
  have hurl : nonBlank (openclawEntryEditor config entryUrl root).baseUrl =
      some (buildOpenclawEntryUrl entryUrl) := nonBlank_of_trimmed htrim hne
  rw [buildOpenclawProviderSnapshot, hurl]
  rfl

theorem openclawEntryEditor_providerId : (openclawEntryEditor config entryUrl root).providerId =
    resolveOpenclawProviderName root none config := rfl

theorem formatOpenclawPrimarySource_eq_ok {editor : OpenClawEditorConfig} :
    formatOpenclawPrimarySource editor root = .ok root' ↔
      trimmed editor.providerId ≠ "" ∧
        root' = Json.updateChild
          (updatePrimaryProvider root (trimmed editor.providerId) fun _ =>
            buildOpenclawProviderSnapshot editor false) "agents" fun agents =>
              Json.updateChild agents "defaults" fun defaults =>
                Json.updateChild defaults "model" (setDefaultModels editor) := by
  unfold formatOpenclawPrimarySource
  by_cases hblank : trimmed editor.providerId = ""
  · simp [hblank]
  · simp [hblank, eq_comm]

theorem getOpenclawProvidersObject_format
    (h : formatOpenclawPrimarySource (openclawEntryEditor config entryUrl root) root = .ok root') :
    getOpenclawProvidersObject root' =
      some (Json.insertField (Json.childObject (Json.childObject root "models") "providers")
        (trimmed (resolveOpenclawProviderName root none config))
        (.obj (buildOpenclawProviderSnapshot (openclawEntryEditor config entryUrl root)
          false))) := by
  obtain ⟨-, rfl⟩ := formatOpenclawPrimarySource_eq_ok.1 h
  rw [getOpenclawProvidersObject, nestedProviders_updateChild_of_ne _ (by decide),
    updatePrimaryProvider, nestedProviders_updateChild]
  rfl

theorem map_fst_insertField (fields : Fields) (key : String) (value value' : Json) :
    (Json.insertField fields key value).map Prod.fst =
      (Json.insertField fields key value').map Prod.fst := by
  unfold Json.insertField
  by_cases hany : fields.any (·.1 = key) = true
  · rw [if_pos hany, if_pos hany, List.map_map, List.map_map]
    refine List.map_congr_left fun field _ => ?_
    by_cases hkey : field.1 = key
    · simp [hkey]
    · simp [hkey]
  · rw [if_neg hany, if_neg hany, List.map_append, List.map_append]
    rfl

theorem mem_keys_insertField (fields : Fields) (key : String) (value : Json) :
    key ∈ (Json.insertField fields key value).map Prod.fst := by
  have hlookup : ((Json.insertField fields key value).lookup key).isSome = true := by
    rw [lookup_insertField, if_pos rfl]
    rfl
  obtain ⟨field, hfield, hkey⟩ := List.lookup_isSome_iff.1 hlookup
  exact List.mem_map.2 ⟨field, hfield, (beq_iff_eq.1 hkey).symm⟩

/-- The provider that the reader picks: the keys are those under `models`, with the written one. -/
def openclawReadName (config : Option AgentConfig) (root : Fields) : String :=
  match nonBlank (config.bind AgentConfig.providerId) with
  | some providerId => providerId
  | none =>
    let keys := sortedKeys (Json.insertField
      (Json.childObject (Json.childObject root "models") "providers")
      (trimmed (resolveOpenclawProviderName root none config)) .null)
    (pickProvider keys).getD "aor_shared"

theorem isSome_pickProvider {keys : List String} {key : String} (hkey : key ∈ keys)
    (hblank : trimmed key ≠ "") : (pickProvider keys).isSome = true := by
  unfold pickProvider
  by_cases hshared : "aor_shared" ∈ keys
  · rw [if_pos hshared]
    rfl
  · rw [if_neg hshared, List.find?_isSome]
    exact ⟨key, hkey, by simpa using hblank⟩

/-- **The reader picks the provider among the keys that the writer has left.** -/
theorem resolveOpenclawProviderName_format
    (h : formatOpenclawPrimarySource (openclawEntryEditor config entryUrl root) root = .ok root')
    (modelsRoot : Option Fields) :
    resolveOpenclawProviderName root' modelsRoot config = openclawReadName config root := by
  have hne : trimmed (resolveOpenclawProviderName root none config) ≠ "" :=
    (formatOpenclawPrimarySource_eq_ok.1 h).1
  unfold openclawReadName
  rw [resolveOpenclawProviderName]
  rcases hexplicit : nonBlank (config.bind AgentConfig.providerId) with _ | providerId
  · dsimp only
    rw [getOpenclawProvidersObject_format h, Option.bind_some, sortedKeys, sortedKeys,
      map_fst_insertField _ _ _ .null]
    have hmem : trimmed (resolveOpenclawProviderName root none config) ∈ sortedKeys
        (Json.insertField (Json.childObject (Json.childObject root "models") "providers")
          (trimmed (resolveOpenclawProviderName root none config)) .null) := by
      refine (List.mem_insertionSort _).2 (mem_keys_insertField _ _ _)
    have hsome := isSome_pickProvider hmem (by rwa [trimmed_trimmed])
    rw [sortedKeys] at hsome
    obtain ⟨picked, hpicked⟩ := Option.isSome_iff_exists.1 hsome
    rw [hpicked]
    rfl
  · rfl

/-! ### The base URL that is read -/

def OpenclawTakesEffect (config : Option AgentConfig) (entryUrl : String) (root models : Fields) :
    Prop :=
  let written := resolveOpenclawProviderName root none config
  let read := openclawReadName config root
  read = written ∧ ¬ HasTwoRegistries models ∨
    providerUrl (Json.extendFields
      (if read = trimmed written then [("baseUrl", .str (buildOpenclawEntryUrl entryUrl))]
        else Json.childObject (Json.childObject (Json.childObject root "models") "providers") read)
      ((getOpenclawProviderObject models read).getD [])) = some (buildOpenclawEntryUrl entryUrl)

theorem lookup_mergeOpenclawProvider {existing : Option Fields} {patch : Fields} {key : String}
    {value : Json} (h : patch.lookup key = some value) :
    (mergeOpenclawProvider existing patch).lookup key = some value := by
  unfold mergeOpenclawProvider
  rw [Json.lookup_extendFields, h]
  rfl

/-- **The base URL is read after the write exactly when the written provider is found, or another
one with this base URL.** -/
theorem providerUrl_mergedProvider_iff
    (h : formatOpenclawPrimarySource (openclawEntryEditor config entryUrl root) root = .ok root')
    (models : Fields) :
    providerUrl (mergedProvider root'
        (some (syncProvider (resolveOpenclawProviderName root none config)
          (buildOpenclawProviderSnapshot (openclawEntryEditor config entryUrl root) false) true
          models))
        (openclawReadName config root)) = some (buildOpenclawEntryUrl entryUrl) ↔
      OpenclawTakesEffect config entryUrl root models := by
  unfold OpenclawTakesEffect mergedProvider
  dsimp only
  rw [Option.bind_some, getD_getOpenclawProviderObject_syncProvider, providerUrl_extendFields,
    providerUrl_extendFields]
  by_cases hsame : openclawReadName config root = resolveOpenclawProviderName root none config ∧
      ¬ HasTwoRegistries models
  · have hurl : (buildOpenclawProviderSnapshot (openclawEntryEditor config entryUrl root)
        false).lookup "baseUrl" = some (.str (buildOpenclawEntryUrl entryUrl)) := by
      rw [snapshot_eq]
      rfl
    rw [if_pos hsame, nextProvider, if_pos rfl, lookup_mergeOpenclawProvider hurl]
    exact ⟨fun _ => .inl hsame, fun _ => rfl⟩
  · -- both sides look at the provider that the reader finds in `openclaw.json`
    have hprimary : ∀ key, key = "baseUrl" ∨ key = "baseURL" →
        ((getOpenclawProviderObject root' (openclawReadName config root)).getD []).lookup key =
          (if openclawReadName config root =
              trimmed (resolveOpenclawProviderName root none config) then
            [("baseUrl", .str (buildOpenclawEntryUrl entryUrl))]
          else Json.childObject (Json.childObject (Json.childObject root "models") "providers")
            (openclawReadName config root)).lookup key := by
      intro key hkey
      rw [getOpenclawProviderObject, getOpenclawProvidersObject_format h, Option.bind_some,
        lookup_insertField]
      by_cases hread : openclawReadName config root =
          trimmed (resolveOpenclawProviderName root none config)
      · rw [if_pos hread, if_pos hread, snapshot_eq]
        rcases hkey with rfl | rfl <;> rfl
      · rw [if_neg hread, if_neg hread]
        rfl
    rw [if_neg hsame, hprimary "baseUrl" (.inl rfl), hprimary "baseURL" (.inr rfl)]
    exact ⟨.inr, fun h => h.resolve_left hsame⟩

end Format

end AiOpenRouter
