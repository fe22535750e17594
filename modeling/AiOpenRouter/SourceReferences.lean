/-
Whether an edited source of OpenClaw leaves references that resolve.

The provider that the reader selects has to be in one of the two maps, and the auth
profile that it refers to in `auth-profiles.json`.

* `accepted_iff`: when the check of three roots passes;
* `openclawWrite_ok` and `openclawWrite_accepted`: an edit is written exactly when the
  roots that are checked pass;
* `referencesKept_iff`: an edit without a source id is checked against the old
  `openclaw.json`.
-/
import AiOpenRouter.AgentPaths

namespace AiOpenRouter

open Files
open Json (Fields)

/-! ### References -/

structure OpenclawRoots where
  primary : Fields
  models : Fields
  authProfiles : Fields

namespace OpenclawRoots

def providerName (roots : OpenclawRoots) (config : Option AgentConfig) : String :=
  resolveOpenclawProviderName roots.primary (some roots.models) config

def KnowsProfile (roots : OpenclawRoots) (provider : Fields) : Prop :=
  ∀ profileId, resolveOpenclawAuthProfileId provider = some profileId →
    openclawAuthProfileExists (some roots.authProfiles) profileId = true

/-- **The references resolve**: the provider that the reader selects is in one of the maps, and the
merged provider refers to an auth profile that is there, or to none. -/
def Resolvable (roots : OpenclawRoots) (config : Option AgentConfig) : Prop :=
  ((getOpenclawProviderObject roots.primary (roots.providerName config)).isSome ∨
      (getOpenclawProviderObject roots.models (roots.providerName config)).isSome) ∧
    roots.KnowsProfile
      (mergedProvider roots.primary (some roots.models) (roots.providerName config))

def Accepted (roots : OpenclawRoots) (config : Option AgentConfig) : Prop :=
  validateOpenclawEditorConfig
    (parseOpenclawEditorConfig roots.primary (some roots.models) (some roots.authProfiles) config)
    roots.primary (some roots.models) (some roots.authProfiles) = .ok ()

/-- The provider that the check looks at: under the name without the blanks around it, and in
`openclaw.json` first. -/
def checkedProvider (roots : OpenclawRoots) (config : Option AgentConfig) : Option Fields :=
  (getOpenclawProviderObject roots.primary (trimmed (roots.providerName config))).or
    (getOpenclawProviderObject roots.models (trimmed (roots.providerName config)))

/-- What the check looks at says what the reader finds: when the name has no blanks around it, and
the provider is in both maps, the auth profiles of the one in `openclaw.json` and of the merged one
are known together; and with blanks around it, the provider without them passes just if the selected
one resolves. -/
def Consistent (roots : OpenclawRoots) (config : Option AgentConfig) : Prop :=
  if trimmed (roots.providerName config) = roots.providerName config then
    ∀ provider provider',
      getOpenclawProviderObject roots.primary (roots.providerName config) = some provider →
        getOpenclawProviderObject roots.models (roots.providerName config) = some provider' →
          (roots.KnowsProfile provider ↔
            roots.KnowsProfile (Json.extendFields provider provider'))
  else
    (∃ provider, roots.checkedProvider config = some provider ∧ roots.KnowsProfile provider) ↔
      roots.Resolvable config

variable {roots : OpenclawRoots} {config : Option AgentConfig}

theorem knowsProfile_congr {provider provider' : Fields}
    (h : ∀ key, provider'.lookup key = provider.lookup key) :
    roots.KnowsProfile provider' ↔ roots.KnowsProfile provider := by
  have hprofile : resolveOpenclawAuthProfileId provider' =
      resolveOpenclawAuthProfileId provider := by
    unfold resolveOpenclawAuthProfileId textAt
    simp only [h]
  rw [KnowsProfile, KnowsProfile, hprofile]

theorem accepted_iff : roots.Accepted config ↔
    ∃ provider, roots.checkedProvider config = some provider ∧ roots.KnowsProfile provider := by
  have hname : (parseOpenclawEditorConfig roots.primary (some roots.models)
      (some roots.authProfiles) config).providerId = roots.providerName config := rfl
  have hblank : trimmed (roots.providerName config) ≠ "" :=
    resolveOpenclawProviderName_ne_blank roots.primary (some roots.models) config
  unfold Accepted validateOpenclawEditorConfig
  rw [hname]
  dsimp only
  rw [if_neg hblank, Option.bind_some,
    show Option.or _ _ = roots.checkedProvider config from rfl]
  rcases roots.checkedProvider config with _ | provider
  · simp
  · dsimp only
    rcases hprofile : resolveOpenclawAuthProfileId provider with _ | profileId
    · exact iff_of_true rfl ⟨provider, rfl, fun _ h => nomatch hprofile.symm.trans h⟩
    · dsimp only
      split_ifs with hexists
      · refine iff_of_true rfl ⟨provider, rfl, fun profileId' h => ?_⟩
        rw [← Option.some.inj (hprofile.symm.trans h)]
        exact hexists
      · refine iff_of_false (fun h => nomatch h) ?_
        rintro ⟨_, ⟨rfl⟩, hknown⟩
        exact hexists (hknown profileId hprofile)

/-- **The check says what the reader finds**, just if it looks at the same. -/
theorem consistent_iff : roots.Consistent config ↔
    (roots.Accepted config ↔ roots.Resolvable config) := by
  rw [accepted_iff]
  unfold Consistent
  split_ifs with htrim
  · unfold Resolvable checkedProvider mergedProvider
    rw [htrim, Option.bind_some]
    rcases getOpenclawProviderObject roots.primary (roots.providerName config) with _ | provider <;>
      rcases getOpenclawProviderObject roots.models (roots.providerName config) with _ | provider'
    · simp
    · have hsame := @knowsProfile_congr roots provider' (Json.extendFields [] provider')
        fun key => by
          rw [Json.lookup_extendFields]
          exact Option.or_none
      simp [hsame]
    · have hsame := @knowsProfile_congr roots provider (Json.extendFields provider []) fun key => by
        rw [Json.lookup_extendFields]
        rfl
      simp [hsame]
    · simp
  · exact Iff.rfl

end OpenclawRoots

/-! ### The files -/

/-- The sources of OpenClaw that are accepted; a text without an id is that of the primary one. -/
inductive OpenclawSource where
  | absent
  | primary
  | models
  | authProfiles
  deriving DecidableEq

def OpenclawSource.id : OpenclawSource → Option String
  | .absent => none
  | .primary => some "primary"
  | .models => some "models"
  | .authProfiles => some "auth-profiles"

/-- The file `auth-profiles.json` of an agent. -/
def authProfilesFile (content : AgentDisk) (configDir agentId : String) : AgentFile :=
  chosenFile content configDir (.authProfiles agentId) (.legacyAuthProfiles agentId)

def OpenclawSource.file (content : AgentDisk) (target : IntegrationTarget) :
    OpenclawSource → AgentFile
  | .absent | .primary => .openclawJson
  | .models => modelsFile content target.configDir (resolveOpenclawAgentId target.config)
  | .authProfiles =>
    authProfilesFile content target.configDir (resolveOpenclawAgentId target.config)

def withSource (content : AgentDisk) (target : IntegrationTarget) (source : OpenclawSource)
    (text : String) : AgentDisk :=
  Function.update content (target.configDir, source.file content target) (some text)

def openclawRoots (env : AgentEnv) (content : AgentDisk) (target : IntegrationTarget) :
    Option OpenclawRoots := do
  let agentId := resolveOpenclawAgentId target.config
  let primary ← objectAt env content target.configDir .openclawJson
  let models ← objectAt env content target.configDir (modelsFile content target.configDir agentId)
  let authProfiles ←
    objectAt env content target.configDir (authProfilesFile content target.configDir agentId)
  pure ⟨primary, models, authProfiles⟩

def ReferencesResolve (env : AgentEnv) (content : AgentDisk) (target : IntegrationTarget) : Prop :=
  ∃ roots, openclawRoots env content target = some roots ∧ roots.Resolvable target.config

/-- **An edit keeps the references resolvable**: they resolve after it, and every text with which
they would is written. -/
def ReferencesKept (env : AgentEnv) (targets : List IntegrationTarget) (targetId : String)
    (target : IntegrationTarget) (sourceId : Option String) (source : OpenclawSource)
    (text : String) (content : AgentDisk) : Prop :=
  (∀ faults n answer s', writeAgentConfigSourceWithTargets env targets targetId text sourceId faults
      ⟨content, n⟩ = (.ok answer, s') → ReferencesResolve env s'.content target) ∧
    (ReferencesResolve env (withSource content target source text) target →
      ∀ n, ∃ answer s', writeAgentConfigSourceWithTargets env targets targetId text sourceId
        (fun _ => none) ⟨content, n⟩ = (.ok answer, s'))

/-- What is checked is what is read afterwards: with a source id, the check says of the new files
what the reader finds in them; without one it says so of the old files. -/
def ChecksNewText (env : AgentEnv) (target : IntegrationTarget) (source : OpenclawSource)
    (text : String) (content : AgentDisk) : Prop :=
  match source with
  | .absent => (∃ root, parseJsonLikeContent env text "" = .ok root) →
      ((∃ roots, openclawRoots env content target = some roots ∧ roots.Accepted target.config) ↔
        ReferencesResolve env (withSource content target source text) target)
  | _ => ∀ roots, openclawRoots env (withSource content target source text) target = some roots →
      roots.Consistent target.config

section Written

variable {env : AgentEnv} {target : IntegrationTarget} {content : AgentDisk} {text : String}
  {configDir : String}

theorem chosenFile_update_self (preferred legacy : AgentFile) :
    chosenFile (Function.update content (configDir, chosenFile content configDir preferred legacy)
      (some text)) configDir preferred legacy = chosenFile content configDir preferred legacy := by
  by_cases hpreferred : (content (configDir, preferred)).isSome = true
  · simp [chosenFile, hpreferred]
  · by_cases hlegacy : (content (configDir, legacy)).isSome = true
    · have hchosen : chosenFile content configDir preferred legacy = legacy := by
        rw [chosenFile, if_neg hpreferred, if_pos hlegacy]
      rw [hchosen]
      by_cases hsame : preferred = legacy
      · simp [chosenFile, hsame]
      · simp [chosenFile, hsame, hpreferred]
    · have hchosen : chosenFile content configDir preferred legacy = preferred := by
        rw [chosenFile, if_neg hpreferred, if_neg hlegacy]
      rw [hchosen]
      simp [chosenFile]

variable {file : AgentFile} (agentId : String)

theorem chosenFile_update_of_ne {preferred legacy : AgentFile} (hpreferred : preferred ≠ file)
    (hlegacy : legacy ≠ file) :
    chosenFile (Function.update content (configDir, file) (some text)) configDir preferred legacy =
      chosenFile content configDir preferred legacy := by
  unfold chosenFile
  rw [Function.update_of_ne fun h => hpreferred (Prod.ext_iff.1 h).2,
    Function.update_of_ne fun h => hlegacy (Prod.ext_iff.1 h).2]

theorem authProfilesFile_ne_openclawJson :
    authProfilesFile content configDir agentId ≠ .openclawJson := by
  unfold authProfilesFile chosenFile
  split_ifs <;> simp

theorem authProfilesFile_ne_modelsFile :
    authProfilesFile content configDir agentId ≠ modelsFile content configDir agentId := by
  unfold authProfilesFile modelsFile chosenFile
  split_ifs <;> simp

theorem modelsFile_update_self :
    modelsFile (Function.update content (configDir, modelsFile content configDir agentId)
      (some text)) configDir agentId = modelsFile content configDir agentId :=
  chosenFile_update_self _ _

theorem authProfilesFile_update_self :
    authProfilesFile (Function.update content
      (configDir, authProfilesFile content configDir agentId) (some text)) configDir agentId =
        authProfilesFile content configDir agentId :=
  chosenFile_update_self _ _

theorem authProfilesFile_update_models :
    authProfilesFile (Function.update content (configDir, modelsFile content configDir agentId)
      (some text)) configDir agentId = authProfilesFile content configDir agentId := by
  refine chosenFile_update_of_ne ?_ ?_
  all_goals
    unfold modelsFile chosenFile
    split_ifs <;> simp

theorem modelsFile_update_authProfiles :
    modelsFile (Function.update content (configDir, authProfilesFile content configDir agentId)
      (some text)) configDir agentId = modelsFile content configDir agentId := by
  refine chosenFile_update_of_ne ?_ ?_
  all_goals
    unfold authProfilesFile chosenFile
    split_ifs <;> simp

theorem objectAt_update_self {root : Fields} (h : parseJsonLikeContent env text "" = .ok root) :
    objectAt env (Function.update content (configDir, file) (some text)) configDir file =
      some root := by
  unfold objectAt
  rw [Function.update_self, Option.getD_some, parseJsonLikeContent_eq_ok h]
  rfl

theorem objectAt_update_of_ne {file' : AgentFile} (h : file' ≠ file) :
    objectAt env (Function.update content (configDir, file) (some text)) configDir file' =
      objectAt env content configDir file' := by
  unfold objectAt
  rw [Function.update_of_ne fun heq => h (Prod.ext_iff.1 heq).2]

def OpenclawSource.given (source named : OpenclawSource) (root : Fields) : Option Fields :=
  if source = named then some root else none

theorem OpenclawSource.given_self (source : OpenclawSource) (root : Fields) :
    source.given source root = some root := if_pos rfl

theorem OpenclawSource.given_of_ne {source named : OpenclawSource} (h : source ≠ named)
    (root : Fields) : source.given named root = none := if_neg h

theorem OpenclawSource.given_eq {source named : OpenclawSource} (hnamed : named ≠ .absent)
    (root : Fields) :
    (if source.id = named.id then some root else none) = source.given named root := by
  unfold given
  cases named with
  | absent => exact absurd rfl hnamed
  | _ => cases source <;> rfl

def checkedRoots (env : AgentEnv) (content : AgentDisk) (target : IntegrationTarget)
    (source : OpenclawSource) (root : Fields) : Option OpenclawRoots := do
  let agentId := resolveOpenclawAgentId target.config
  let primary ← (source.given .primary root).or
    (objectAt env content target.configDir .openclawJson)
  let models ← (source.given .models root).or
    (objectAt env content target.configDir (modelsFile content target.configDir agentId))
  let authProfiles ← (source.given .authProfiles root).or
    (objectAt env content target.configDir (authProfilesFile content target.configDir agentId))
  pure ⟨primary, models, authProfiles⟩

theorem checkedRoots_absent (root : Fields) :
    checkedRoots env content target .absent root = openclawRoots env content target := by
  unfold checkedRoots openclawRoots
  dsimp only
  rw [OpenclawSource.given_of_ne (by decide), OpenclawSource.given_of_ne (by decide),
    OpenclawSource.given_of_ne (by decide), Option.none_or, Option.none_or, Option.none_or]

/-- **With a source id, the new files are checked.** -/
theorem checkedRoots_eq {source : OpenclawSource} {root : Fields} (hsource : source ≠ .absent)
    (h : parseJsonLikeContent env text "" = .ok root) :
    checkedRoots env content target source root =
      openclawRoots env (withSource content target source text) target := by
  unfold checkedRoots openclawRoots withSource
  dsimp only
  cases source with
  | absent => exact absurd rfl hsource
  | primary =>
    have hmodels : modelsFile (Function.update content (target.configDir, .openclawJson)
        (some text)) target.configDir (resolveOpenclawAgentId target.config) =
          modelsFile content target.configDir (resolveOpenclawAgentId target.config) :=
      chosenFile_update_of_ne (by simp) (by simp)
    have hauth : authProfilesFile (Function.update content (target.configDir, .openclawJson)
        (some text)) target.configDir (resolveOpenclawAgentId target.config) =
          authProfilesFile content target.configDir (resolveOpenclawAgentId target.config) :=
      chosenFile_update_of_ne (by simp) (by simp)
    rw [OpenclawSource.file, hmodels, hauth, objectAt_update_self h,
      objectAt_update_of_ne (modelsFile_ne_openclawJson _ _),
      objectAt_update_of_ne (authProfilesFile_ne_openclawJson _), OpenclawSource.given_self,
      OpenclawSource.given_of_ne (by decide), OpenclawSource.given_of_ne (by decide),
      Option.some_or, Option.none_or, Option.none_or]
  | models =>
    rw [OpenclawSource.file, modelsFile_update_self, authProfilesFile_update_models,
      objectAt_update_self h, objectAt_update_of_ne (modelsFile_ne_openclawJson _ _).symm,
      objectAt_update_of_ne (authProfilesFile_ne_modelsFile _), OpenclawSource.given_self,
      OpenclawSource.given_of_ne (by decide), OpenclawSource.given_of_ne (by decide),
      Option.some_or, Option.none_or, Option.none_or]
  | authProfiles =>
    rw [OpenclawSource.file, authProfilesFile_update_self, modelsFile_update_authProfiles,
      objectAt_update_self h, objectAt_update_of_ne (authProfilesFile_ne_openclawJson _).symm,
      objectAt_update_of_ne (authProfilesFile_ne_modelsFile _).symm, OpenclawSource.given_self,
      OpenclawSource.given_of_ne (by decide), OpenclawSource.given_of_ne (by decide),
      Option.some_or, Option.none_or, Option.none_or]

end Written

/-! ### The run of an edit -/

section Runs

variable {env : AgentEnv} {target : IntegrationTarget} {targets : List IntegrationTarget}
  {targetId text : String} {sourceId : Option String} {source : OpenclawSource} {configDir : String}
  {faults : Faults} {s s' : State (String × AgentFile) String}

variable {root : Fields} {content : AgentDisk} {file : AgentFile}

theorem readCheckedObject_ok {given : Option Fields}
    (h : readCheckedObject env configDir file given faults s = (.ok root, s')) :
    given.or (objectAt env s.content configDir file) = some root ∧ s'.content = s.content := by
  cases given with
  | some root' =>
    obtain ⟨rfl, rfl⟩ := Program.pure_eq_ok.1 h
    exact ⟨rfl, rfl⟩
  | none =>
    obtain ⟨content, _, hread, hrest⟩ := Program.bind_eq_ok.1 h
    obtain ⟨-, rfl, rfl⟩ := readText_eq_ok.1 hread
    obtain ⟨hparse, rfl⟩ := checked_eq_ok.1 hrest
    rw [Option.none_or]
    exact ⟨toOption_eq_some_iff.2 hparse, rfl⟩

theorem readCheckedObject_given_yields {given : Option Fields}
    (h : given.or (objectAt env content configDir file) = some root) :
    (readCheckedObject env configDir file given).Yields content root := by
  cases given with
  | some root' =>
    obtain rfl := Option.some.inj h
    exact readCheckedObject_given root'
  | none =>
    rw [Option.none_or] at h
    exact readCheckedObject_yields (toOption_eq_some_iff.1 h)

theorem checkOpenclawSources_eq (root : Fields) :
    checkOpenclawSources env target configDir source.id root = (do
      let primary ← readCheckedObject env configDir .openclawJson (source.given .primary root)
      let file ← resolveOpenclawModelsFile configDir (resolveOpenclawAgentId target.config)
      let models ← readCheckedObject env configDir file (source.given .models root)
      let file ← resolveOpenclawAuthProfilesFile configDir (resolveOpenclawAgentId target.config)
      let authProfiles ← readCheckedObject env configDir file (source.given .authProfiles root)
      let editor :=
        parseOpenclawEditorConfig primary (some models) (some authProfiles) target.config
      checked (validateOpenclawEditorConfig editor primary (some models) (some authProfiles))
      pure (openclawEditorToAgentConfig editor)) := by
  unfold checkOpenclawSources
  simp only [← @OpenclawSource.given_eq source .primary (by decide),
    ← @OpenclawSource.given_eq source .models (by decide),
    ← @OpenclawSource.given_eq source .authProfiles (by decide)]
  rfl

theorem checked_bind_eq_ok {α β : Type} {result : Except AppError α} {next : α → AgentIo β}
    {b : β} :
    (checked result >>= next) faults s = (.ok b, s') ↔
      ∃ a, result = .ok a ∧ next a faults s = (.ok b, s') := by
  rw [Program.bind_eq_ok]
  constructor
  · rintro ⟨a, _, hchecked, hnext⟩
    obtain ⟨hresult, rfl⟩ := checked_eq_ok.1 hchecked
    exact ⟨a, hresult, hnext⟩
  · rintro ⟨a, hresult, hnext⟩
    exact ⟨a, s, checked_eq_ok.2 ⟨hresult, rfl⟩, hnext⟩

/-- **What the check finds when it passes.** -/
theorem checkOpenclawSources_ok {config : AgentConfig}
    (h : checkOpenclawSources env target target.configDir source.id root faults s =
      (.ok config, s')) :
    (∃ roots, checkedRoots env s.content target source root = some roots ∧
      roots.Accepted target.config) ∧ s'.content = s.content := by
  rw [checkOpenclawSources_eq] at h
  obtain ⟨primary, s₁, hprimary, h⟩ := Program.bind_eq_ok.1 h
  obtain ⟨file, s₂, hmodelsFile, h⟩ := Program.bind_eq_ok.1 h
  obtain ⟨models, s₃, hmodels, h⟩ := Program.bind_eq_ok.1 h
  obtain ⟨file', s₄, hauthFile, h⟩ := Program.bind_eq_ok.1 h
  obtain ⟨authProfiles, s₅, hauth, h⟩ := Program.bind_eq_ok.1 h
  have hchecked := checked_bind_eq_ok.1 h
  obtain ⟨hgiven₁, heq₁⟩ := readCheckedObject_ok hprimary
  obtain ⟨-, rfl, rfl⟩ := preferredFile_eq_ok.1 hmodelsFile
  obtain ⟨hgiven₂, heq₃⟩ := readCheckedObject_ok hmodels
  obtain ⟨-, rfl, rfl⟩ := preferredFile_eq_ok.1 hauthFile
  obtain ⟨hgiven₃, heq₅⟩ := readCheckedObject_ok hauth
  obtain ⟨u, hvalid, hanswer⟩ := hchecked
  obtain ⟨-, rfl⟩ := Program.pure_eq_ok.1 hanswer
  dsimp only at hgiven₂ heq₃ hgiven₃ heq₅
  rw [heq₁] at hgiven₂ heq₃
  rw [heq₃] at hgiven₃ heq₅
  refine ⟨⟨⟨primary, models, authProfiles⟩, ?_, hvalid⟩, heq₅⟩
  unfold checkedRoots modelsFile authProfilesFile
  dsimp only
  rw [hgiven₁, hgiven₂, hgiven₃]
  rfl

theorem checkOpenclawSources_accepted {roots : OpenclawRoots}
    (hroots : checkedRoots env content target source root = some roots)
    (haccepted : roots.Accepted target.config) :
    ∃ config, (checkOpenclawSources env target target.configDir source.id root).Yields content
      config := by
  unfold checkedRoots at hroots
  obtain ⟨primary, hprimary, hroots⟩ := Option.bind_eq_some_iff.1 hroots
  obtain ⟨models, hmodels, hroots⟩ := Option.bind_eq_some_iff.1 hroots
  obtain ⟨authProfiles, hauth, hroots⟩ := Option.bind_eq_some_iff.1 hroots
  cases hroots
  have hvalid : (checked (validateOpenclawEditorConfig
      (parseOpenclawEditorConfig primary (some models) (some authProfiles) target.config) primary
        (some models) (some authProfiles)) : AgentIo Unit).Yields content () := by
    rw [show validateOpenclawEditorConfig _ _ _ _ = .ok () from haccepted]
    exact Program.yields_pure ()
  rw [checkOpenclawSources_eq]
  exact ⟨_, (readCheckedObject_given_yields hprimary).bind ((preferredFile_yields _ _).bind
    ((readCheckedObject_given_yields hmodels).bind ((preferredFile_yields _ _).bind
      ((readCheckedObject_given_yields hauth).bind (hvalid.bind (Program.yields_pure _))))))⟩

theorem resolveAgentSourceFile_openclaw (hkind : target.kind = .openclaw) :
    resolveAgentSourceFile target configDir source.id =
      match source with
      | .absent | .primary => pure .openclawJson
      | .models => resolveOpenclawModelsFile configDir (resolveOpenclawAgentId target.config)
      | .authProfiles =>
        resolveOpenclawAuthProfilesFile configDir (resolveOpenclawAgentId target.config) := by
  unfold resolveAgentSourceFile resolveAgentConfigFile
  rw [hkind]
  cases source <;> rfl

theorem resolveAgentSourceFile_ok (hkind : target.kind = .openclaw)
    (h : resolveAgentSourceFile target target.configDir source.id faults s = (.ok file, s')) :
    file = source.file s.content target ∧ s'.content = s.content := by
  rw [resolveAgentSourceFile_openclaw hkind] at h
  cases source with
  | absent | primary =>
    obtain ⟨rfl, rfl⟩ := Program.pure_eq_ok.1 h
    exact ⟨rfl, rfl⟩
  | models | authProfiles =>
    obtain ⟨-, rfl, rfl⟩ := preferredFile_eq_ok.1 h
    exact ⟨rfl, rfl⟩

theorem resolveAgentSourceFile_yields (hkind : target.kind = .openclaw) (content : AgentDisk) :
    (resolveAgentSourceFile target target.configDir source.id).Yields content
      (source.file content target) := by
  rw [resolveAgentSourceFile_openclaw hkind]
  cases source with
  | absent | primary => exact Program.yields_pure _
  | models | authProfiles => exact preferredFile_yields _ _

theorem parsedRoot_openclaw (hkind : target.kind = .openclaw) (path : String) :
    (if target.kind = .codex ∧ source.id = some "auth" then parseJsonLikeContent env text path
      else parseAgentConfigContent env target.kind text path) =
        parseJsonLikeContent env text path := by
  rw [hkind, if_neg fun h => nomatch h.1]
  rfl

/-- **What is written has passed the check.** -/
theorem openclawWrite_ok (htarget : resolveTargetById targets targetId = .ok target)
    (hkind : target.kind = .openclaw) (hsource : nonBlank sourceId = source.id)
    {answer : WriteAgentConfigResult × Option AgentConfig}
    (h : writeAgentConfigSourceWithTargets env targets targetId text sourceId faults s =
      (.ok answer, s')) :
    (∃ root, parseJsonLikeContent env text "" = .ok root ∧
      ∃ roots, checkedRoots env s.content target source root = some roots ∧
        roots.Accepted target.config) ∧ s'.content = withSource s.content target source text := by
  unfold writeAgentConfigSourceWithTargets at h
  obtain ⟨_, htarget', h⟩ := checked_bind_eq_ok.1 h
  obtain rfl := Except.ok.inj (htarget.symm.trans htarget')
  rw [hsource] at h
  obtain ⟨file, s₁, hfile, h⟩ := Program.bind_eq_ok.1 h
  obtain ⟨rfl, hcontent₁⟩ := resolveAgentSourceFile_ok hkind hfile
  obtain ⟨root, hroot, h⟩ := checked_bind_eq_ok.1 h
  rw [parsedRoot_openclaw hkind] at hroot
  obtain ⟨config, s₂, hwrite, hanswer⟩ := Program.bind_eq_ok.1 h
  obtain ⟨-, rfl⟩ := Program.pure_eq_ok.1 hanswer
  unfold writeSource at hwrite
  rw [hkind] at hwrite
  obtain ⟨checkedConfig, s₃, hcheck, hwrite⟩ := Program.bind_eq_ok.1 hwrite
  obtain ⟨hchecked, hcontent₃⟩ := checkOpenclawSources_ok hcheck
  obtain ⟨_, s₄, hwritten, hpure⟩ := Program.bind_eq_ok.1 hwrite
  obtain ⟨-, rfl⟩ := writeFileContent_eq_ok.1 hwritten
  obtain ⟨-, rfl⟩ := Program.pure_eq_ok.1 hpure
  rw [hcontent₁] at hchecked hcontent₃
  refine ⟨⟨root, parseJsonLikeContent_eq_ok hroot, hchecked⟩, ?_⟩
  dsimp only
  rw [hcontent₃]
  rfl

/-- **What passes the check is written**, when nothing fails. -/
theorem openclawWrite_accepted (htarget : resolveTargetById targets targetId = .ok target)
    (hkind : target.kind = .openclaw) (hsource : nonBlank sourceId = source.id)
    {content : AgentDisk} {root : Fields} (hroot : parseJsonLikeContent env text "" = .ok root)
    {roots : OpenclawRoots} (hroots : checkedRoots env content target source root = some roots)
    (haccepted : roots.Accepted target.config) (n : ℕ) :
    ∃ answer s', writeAgentConfigSourceWithTargets env targets targetId text sourceId
      (fun _ => none) ⟨content, n⟩ = (.ok answer, s') := by
  obtain ⟨n₁, hfile⟩ := @resolveAgentSourceFile_yields target source hkind content n
  obtain ⟨config, hcheck⟩ := checkOpenclawSources_accepted hroots haccepted
  obtain ⟨n₂, hcheck⟩ := hcheck n₁
  unfold writeAgentConfigSourceWithTargets
  rw [htarget, checked_ok, Program.bind_apply_ok (Program.pure_apply target), hsource]
  dsimp only
  rw [Program.bind_apply_ok hfile, parsedRoot_openclaw hkind, parseJsonLikeContent_eq_ok hroot,
    checked_ok, Program.bind_apply_ok (Program.pure_apply root)]
  have hwrite := (@writeFileContent_eq_ok target.configDir (source.file content target)
    (fun _ => none) ⟨content, n₂⟩ _ text ()).2 ⟨⟨rfl, rfl⟩, rfl⟩
  have hsourceWrite : ∃ s', writeSource env target (source.file content target) text source.id root
      (fun _ => none) ⟨content, n₁⟩ = (.ok (some config), s') := by
    unfold writeSource
    rw [hkind]
    dsimp only
    rw [Program.bind_apply_ok hcheck, Program.bind_apply_ok hwrite]
    exact ⟨_, rfl⟩
  obtain ⟨s', hsourceWrite⟩ := hsourceWrite
  rw [Program.bind_apply_ok hsourceWrite]
  exact ⟨_, _, rfl⟩

theorem parses_of_roots {roots : OpenclawRoots}
    (h : openclawRoots env (withSource content target source text) target = some roots) :
    ∃ root, parseJsonLikeContent env text "" = .ok root := by
  have hparse : ∀ {file : AgentFile} {root : Fields},
      objectAt env (Function.update content (target.configDir, file) (some text)) target.configDir
        file = some root → ∃ root, parseJsonLikeContent env text "" = .ok root := by
    intro file root hobject
    unfold objectAt at hobject
    rw [Function.update_self, Option.getD_some, toOption_eq_some_iff] at hobject
    exact ⟨root, parseJsonLikeContent_eq_ok hobject⟩
  unfold openclawRoots withSource at h
  obtain ⟨primary, hprimary, h⟩ := Option.bind_eq_some_iff.1 h
  obtain ⟨models, hmodels, h⟩ := Option.bind_eq_some_iff.1 h
  obtain ⟨authProfiles, hauth, -⟩ := Option.bind_eq_some_iff.1 h
  cases source with
  | absent | primary => exact hparse hprimary
  | models =>
    rw [OpenclawSource.file, modelsFile_update_self] at hmodels
    exact hparse hmodels
  | authProfiles =>
    rw [OpenclawSource.file, authProfilesFile_update_self] at hauth
    exact hparse hauth

theorem acceptedNew_iff (hsource : source ≠ .absent) (content : AgentDisk) :
    (∃ root, parseJsonLikeContent env text "" = .ok root ∧
      ∃ roots, checkedRoots env content target source root = some roots ∧
        roots.Accepted target.config) ↔
      ∃ roots, openclawRoots env (withSource content target source text) target = some roots ∧
        roots.Accepted target.config := by
  constructor
  · rintro ⟨root, hroot, roots, hroots, haccepted⟩
    rw [checkedRoots_eq hsource hroot] at hroots
    exact ⟨roots, hroots, haccepted⟩
  · rintro ⟨roots, hroots, haccepted⟩
    obtain ⟨root, hroot⟩ := parses_of_roots hroots
    exact ⟨root, hroot, roots, (checkedRoots_eq hsource hroot).trans hroots, haccepted⟩

theorem exists_and_congr {α : Type} {x : Option α} {p q : α → Prop} :
    ((∃ a, x = some a ∧ p a) ↔ ∃ a, x = some a ∧ q a) ↔ ∀ a, x = some a → (p a ↔ q a) := by
  cases x with
  | none => simp
  | some a => simp

/-- **An edit keeps the references resolvable exactly when what is checked is what is read.** -/
theorem referencesKept_iff (htarget : resolveTargetById targets targetId = .ok target)
    (hkind : target.kind = .openclaw) (hsource : nonBlank sourceId = source.id)
    (content : AgentDisk) :
    ReferencesKept env targets targetId target sourceId source text content ↔
      ChecksNewText env target source text content := by
  -- the edit is written just if the checked roots pass
  have hwritten : ReferencesKept env targets targetId target sourceId source text content ↔
      ((∃ root, parseJsonLikeContent env text "" = .ok root ∧
        ∃ roots, checkedRoots env content target source root = some roots ∧
          roots.Accepted target.config) ↔
        ReferencesResolve env (withSource content target source text) target) := by
    constructor
    · rintro ⟨hsound, hcomplete⟩
      constructor
      · rintro ⟨root, hroot, roots, hroots, haccepted⟩
        obtain ⟨answer, s', hrun⟩ :=
          openclawWrite_accepted htarget hkind hsource hroot hroots haccepted 0
        have hresolve := hsound _ _ _ _ hrun
        rwa [(openclawWrite_ok htarget hkind hsource hrun).2] at hresolve
      · intro hresolve
        obtain ⟨answer, s', hrun⟩ := hcomplete hresolve 0
        exact (openclawWrite_ok htarget hkind hsource hrun).1
    · intro hiff
      refine ⟨fun faults n answer s' hrun => ?_, fun hresolve n => ?_⟩
      · obtain ⟨haccepted, hcontent⟩ := openclawWrite_ok htarget hkind hsource hrun
        rw [hcontent]
        exact hiff.1 haccepted
      · obtain ⟨root, hroot, roots, hroots, haccepted⟩ := hiff.2 hresolve
        exact openclawWrite_accepted htarget hkind hsource hroot hroots haccepted n
  rw [hwritten]
  have hgiven : source ≠ .absent → (((∃ root, parseJsonLikeContent env text "" = .ok root ∧
      ∃ roots, checkedRoots env content target source root = some roots ∧
        roots.Accepted target.config) ↔
      ReferencesResolve env (withSource content target source text) target) ↔
        ∀ roots, openclawRoots env (withSource content target source text) target = some roots →
          roots.Consistent target.config) := by
    intro hne
    rw [acceptedNew_iff hne, ReferencesResolve, exists_and_congr]
    simp only [OpenclawRoots.consistent_iff]
  unfold ChecksNewText
  cases source with
  | absent =>
    simp only [checkedRoots_absent]
    by_cases hparse : ∃ root, parseJsonLikeContent env text "" = .ok root
    · obtain ⟨root, hroot⟩ := hparse
      simp [hroot]
    · refine iff_of_true (iff_of_false ?_ ?_) fun h => absurd h hparse
      · rintro ⟨root, hroot, -⟩
        exact hparse ⟨root, hroot⟩
      · rintro ⟨roots, hroots, -⟩
        exact hparse (parses_of_roots hroots)
  | primary => exact hgiven (by decide)
  | models => exact hgiven (by decide)
  | authProfiles => exact hgiven (by decide)

end Runs

/-! ### Without a source id -/

/-- The text of `openclaw.json` with one provider that has nothing. -/
noncomputable def bareText : String := AgentEnv.plain.toStringPretty (.obj (bareProvider none))

theorem parse_bareText : parseJsonLikeContent AgentEnv.plain bareText "" =
    .ok (bareProvider none) := parseJsonLikeContent_plain _ _

theorem checkedRoots_bare : checkedRoots AgentEnv.plain (fun _ => none) openclawTarget .primary
    (bareProvider none) = some ⟨bareProvider none, [], []⟩ := by
  unfold checkedRoots
  dsimp only
  rw [OpenclawSource.given_self, OpenclawSource.given_of_ne (by decide),
    OpenclawSource.given_of_ne (by decide), Option.some_or, Option.none_or, Option.none_or]
  rfl

/-- The primary source, with its id, is checked. -/
theorem referencesKept_primary :
    ReferencesKept AgentEnv.plain [openclawTarget] "t2" openclawTarget (some " primary ") .primary
      bareText fun _ => none := by
  refine (@referencesKept_iff AgentEnv.plain openclawTarget [openclawTarget] "t2" bareText
    (some " primary ") .primary rfl rfl (by decide) _).2 fun roots hroots => ?_
  rw [← checkedRoots_eq (by decide) parse_bareText, checkedRoots_bare] at hroots
  obtain rfl := Option.some.inj hroots
  unfold OpenclawRoots.Consistent
  rw [if_pos (by decide)]
  intro provider provider' _ hmodels
  cases hmodels

/-- The files once the provider is in `openclaw.json`. -/
noncomputable def bareDisk : AgentDisk :=
  withSource (fun _ => none) openclawTarget .primary bareText

theorem openclawRoots_bareDisk :
    openclawRoots AgentEnv.plain bareDisk openclawTarget = some ⟨bareProvider none, [], []⟩ :=
  (checkedRoots_eq (by decide) parse_bareText).symm.trans checkedRoots_bare

/-- A new text of `openclaw.json` takes the place of its root. -/
theorem checkedRoots_primary {env : AgentEnv} {content : AgentDisk} {target : IntegrationTarget}
    {roots : OpenclawRoots} (h : openclawRoots env content target = some roots) (root : Fields) :
    checkedRoots env content target .primary root = some { roots with primary := root } := by
  unfold openclawRoots at h
  obtain ⟨primary, -, h⟩ := Option.bind_eq_some_iff.1 h
  obtain ⟨models, hmodels, h⟩ := Option.bind_eq_some_iff.1 h
  obtain ⟨authProfiles, hauth, h⟩ := Option.bind_eq_some_iff.1 h
  cases h
  unfold checkedRoots
  dsimp only
  rw [OpenclawSource.given_self, OpenclawSource.given_of_ne (by decide),
    OpenclawSource.given_of_ne (by decide), Option.some_or, Option.none_or, Option.none_or, hmodels,
    hauth]
  rfl

theorem parse_empty : parseJsonLikeContent AgentEnv.plain "" "" = .ok [] := rfl

theorem openclawRoots_empty :
    openclawRoots AgentEnv.plain (withSource bareDisk openclawTarget .absent "") openclawTarget =
      some ⟨[], [], []⟩ := by
  have hsame : withSource bareDisk openclawTarget .absent "" =
      withSource bareDisk openclawTarget .primary "" := rfl
  rw [hsame, ← checkedRoots_eq (by decide) parse_empty]
  exact checkedRoots_primary openclawRoots_bareDisk []

theorem openclawWrite_empty :
    ∃ answer s', writeAgentConfigSourceWithTargets AgentEnv.plain [openclawTarget] "t2" "" none
      (fun _ => none) ⟨bareDisk, 0⟩ = (.ok answer, s') :=
  @openclawWrite_accepted AgentEnv.plain openclawTarget [openclawTarget] "t2" "" none .absent rfl
    rfl rfl bareDisk [] parse_empty _ ((checkedRoots_absent []).trans openclawRoots_bareDisk)
    (validate_bareProvider none [] []) 0

/-- **Without a source id, an empty text is written over the provider of `openclaw.json`.** -/
theorem not_referencesKept_absent :
    ¬ ∀ (env : AgentEnv) (targets : List IntegrationTarget) (targetId : String)
      (target : IntegrationTarget) (sourceId : Option String) (source : OpenclawSource)
      (text : String) (content : AgentDisk),
      resolveTargetById targets targetId = .ok target → target.kind = .openclaw →
        nonBlank sourceId = source.id →
          ReferencesKept env targets targetId target sourceId source text content := by
  intro hall
  obtain ⟨hsound, -⟩ := hall AgentEnv.plain [openclawTarget] "t2" openclawTarget none .absent ""
    bareDisk rfl rfl rfl
  obtain ⟨answer, s', hrun⟩ := openclawWrite_empty
  have hafter := (@openclawWrite_ok AgentEnv.plain openclawTarget [openclawTarget] "t2" "" none
    .absent _ _ _ rfl rfl rfl answer hrun).2
  obtain ⟨roots, hroots, ⟨hprovider, -⟩⟩ := hsound _ _ _ _ hrun
  rw [hafter, openclawRoots_empty] at hroots
  obtain rfl := Option.some.inj hroots
  rcases hprovider with hprovider | hprovider <;> cases hprovider

end AiOpenRouter
