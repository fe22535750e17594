/-
An import of groups beside a save of the settings.

Both read the configuration, make the next one of what they read, and save it
whole; no lock spans their steps, and none of them looks at the configuration
again.

* `Writers.step` makes one step of one of the two calls;
* `merged_of_run`: both changes are in memory in the end, or the outcome is that of
  one call after the other, in a run in which no call replaces the memory over a
  change of the part that it only keeps;
* `not_merged_undoneSettings`: an import that is the last to replace the memory
  takes the settings back.
-/
import AiOpenRouter.GroupsBackup
import AiOpenRouter.ConcurrentSaves

namespace AiOpenRouter

/-! ### The machine -/

inductive Writer where
  | importer
  | settings
  deriving DecidableEq

def Writer.other : Writer → Writer
  | .importer => .settings
  | .settings => .importer

/-- How far a call has come, with the configuration that it read and the one that it saves. -/
inductive WriterPhase where
  | idle
  | read (prev : ProxyConfig)
  | accepted (prev config : ProxyConfig)
  | committed (prev config : ProxyConfig)
  | written (prev config : ProxyConfig)
  | returned (prev config : ProxyConfig)

/-- The store, and both calls. -/
structure Writers where
  store : StoreState
  importer : WriterPhase := .idle
  settings : WriterPhase := .idle

/-- A call makes its next step. -/
inductive WriterAction where
  | read (w : Writer)
  | accept (w : Writer)
  | commit (w : Writer) (now : ℤ)
  | write (w : Writer)
  | remember (w : Writer)

/-- What a call saves once it has read a configuration: the import puts its groups and providers
in, the client changes the settings. -/
def writerCall (groups : List Group) (providers : List Rule) (edit : ProxyConfig → Json) :
    Writer → ProxyConfig → SaveCall
  | .importer, prev => .saveConfig (importConfig prev groups providers)
  | .settings, prev => .save (edit prev)

namespace Writers

/-- How far a call has come. -/
def phase (s : Writers) : Writer → WriterPhase
  | .importer => s.importer
  | .settings => s.settings

def setPhase (s : Writers) (phase : WriterPhase) : Writer → Writers
  | .importer => { s with importer := phase }
  | .settings => { s with settings := phase }

/-- One step, in which nothing goes wrong. -/
def step (env : SaveEnv) (call : Writer → ProxyConfig → SaveCall) (s : Writers) :
    WriterAction → Option Writers
  | .read w =>
    match s.phase w with
    | .idle => some (s.setPhase (.read s.store.config) w)
    | _ => none
  | .accept w =>
    match s.phase w with
    | .read prev =>
      ((call w prev).accept env).toOption.map fun config => s.setPhase (.accepted prev config) w
    | _ => none
  | .commit w now =>
    match s.phase w with
    | .accepted prev config =>
      (saveConfigToDb now none config).toOption.map fun tables =>
        { s with store := { s.store with tables := tables } }.setPhase (.committed prev config) w
    | _ => none
  | .write w =>
    match s.phase w with
    | .committed prev config =>
      some ({ s with store :=
        { s.store with file := (writeFile env {} config s.store.file).2 } }.setPhase
          (.written prev config) w)
    | _ => none
  | .remember w =>
    match s.phase w with
    | .written prev config =>
      some ({ s with store := s.store.setInMemory config }.setPhase (.returned prev config) w)
    | _ => none

def SameGroups (config config' : ProxyConfig) : Prop :=
  List.Forall₂ Group.SameAs config.groups config'.groups ∧
    List.Forall₂ Rule.SameAs config.providers config'.providers

def Merged (config imported saved : ProxyConfig) : Prop :=
  SameGroups config imported ∧ config.settings = saved.settings

def turn (w : Writer) (now : ℤ) : List WriterAction :=
  [.read w, .accept w, .commit w now, .write w, .remember w]

def OneAfterOther (env : SaveEnv) (call : Writer → ProxyConfig → SaveCall) (store : StoreState)
    (config : ProxyConfig) : Prop :=
  ∃ (first : Writer) (now now' : ℤ) (s : Writers),
    Machine.run (step env call) { store := store } (turn first now ++ turn first.other now') =
      some s ∧ s.store.config = config

/-- No call replaces the memory over a change of the part that it only keeps: the import finds the
settings that it read, the save finds the groups and providers that it read. -/
def Unmoved (s : Writers) : WriterAction → Prop
  | .remember .importer => ∀ prev config, s.importer = .written prev config →
      s.store.config.settings = prev.settings
  | .remember .settings => ∀ prev config, s.settings = .written prev config →
      SameGroups prev s.store.config
  | _ => True

/-! ### One step -/

variable {env : SaveEnv} {call : Writer → ProxyConfig → SaveCall} {s s' : Writers} {w : Writer}

@[simp] theorem phase_setPhase (s : Writers) (phase : WriterPhase) (w : Writer) :
    (s.setPhase phase w).phase w = phase := by cases w <;> rfl

@[simp] theorem phase_setPhase_other (s : Writers) (phase : WriterPhase) (w : Writer) :
    (s.setPhase phase w).phase w.other = s.phase w.other := by cases w <;> rfl

@[simp] theorem store_setPhase (s : Writers) (phase : WriterPhase) (w : Writer) :
    (s.setPhase phase w).store = s.store := by cases w <;> rfl

@[simp] theorem phase_setStore (s : Writers) (store : StoreState) (w : Writer) :
    phase { s with store := store } w = s.phase w := by cases w <;> rfl

@[simp] theorem other_other (w : Writer) : w.other.other = w := by cases w <;> rfl

theorem eq_or_eq_other (w v : Writer) : v = w ∨ v = w.other := by
  cases w <;> cases v <;> simp [Writer.other]

theorem step_read (h : s.step env call (.read w) = some s') :
    s.phase w = .idle ∧ s' = s.setPhase (.read s.store.config) w := by
  cases hphase : s.phase w <;> simp only [step, hphase, reduceCtorEq] at h
  exact ⟨rfl, (Option.some.inj h).symm⟩

theorem step_accept (h : s.step env call (.accept w) = some s') :
    ∃ prev config, s.phase w = .read prev ∧ (call w prev).accept env = .ok config ∧
      s' = s.setPhase (.accepted prev config) w := by
  cases hphase : s.phase w <;> simp only [step, hphase, reduceCtorEq] at h
  case read prev =>
    obtain ⟨config, hconfig, rfl⟩ := Option.map_eq_some_iff.1 h
    exact ⟨prev, config, rfl, toOption_eq_some_iff.1 hconfig, rfl⟩

theorem step_commit {now : ℤ} (h : s.step env call (.commit w now) = some s') :
    ∃ prev config tables, s.phase w = .accepted prev config ∧ DistinctKeys config ∧
      s' = { s with store := { s.store with tables := tables } }.setPhase
        (.committed prev config) w := by
  cases hphase : s.phase w <;> simp only [step, hphase, reduceCtorEq] at h
  case accepted prev config =>
    obtain ⟨tables, htables, rfl⟩ := Option.map_eq_some_iff.1 h
    refine ⟨prev, config, tables, rfl, ?_, rfl⟩
    by_contra hdistinct
    obtain ⟨message, hmessage⟩ := saveConfigToDb_of_not_distinct hdistinct now
    rw [hmessage] at htables
    cases htables

theorem step_write (h : s.step env call (.write w) = some s') :
    ∃ prev config file, s.phase w = .committed prev config ∧
      s' = { s with store := { s.store with file := file } }.setPhase (.written prev config) w := by
  cases hphase : s.phase w <;> simp only [step, hphase, reduceCtorEq] at h
  case committed prev config => exact ⟨prev, config, _, rfl, (Option.some.inj h).symm⟩

theorem step_remember (h : s.step env call (.remember w) = some s') :
    ∃ prev config, s.phase w = .written prev config ∧
      s' = { s with store := s.store.setInMemory config }.setPhase (.returned prev config) w := by
  cases hphase : s.phase w <;> simp only [step, hphase, reduceCtorEq] at h
  case written prev config => exact ⟨prev, config, rfl, (Option.some.inj h).symm⟩

/-! ### A call alone -/

/-- **The steps of a call in turn** put what it saves in memory. -/
theorem run_turn {config : ProxyConfig} (hidle : s.phase w = .idle)
    (haccept : (call w s.store.config).accept env = .ok config) (hdistinct : DistinctKeys config)
    (now : ℤ) :
    ∃ s', Machine.run (step env call) s (turn w now) = some s' ∧ s'.store.config = config ∧
      s'.phase w.other = s.phase w.other := by
  have hcommit := saveConfigToDb_of_distinct hdistinct now
  simp only [turn, Machine.run, step, hidle, phase_setPhase, Option.bind_some, haccept,
    Except.toOption, Option.map_some, hcommit]
  exact ⟨_, rfl, by simp [StoreState.setInMemory], by simp⟩

theorem run_turns {store : StoreState} {first : Writer} {config config' : ProxyConfig}
    (hfirst : (call first store.config).accept env = .ok config) (hdistinct : DistinctKeys config)
    (hsecond : (call first.other config).accept env = .ok config')
    (hdistinct' : DistinctKeys config') (now now' : ℤ) :
    ∃ s, Machine.run (step env call) { store := store } (turn first now ++ turn first.other now') =
      some s ∧ s.store.config = config' := by
  obtain ⟨s, hrun, rfl, hother⟩ := @run_turn env call { store := store } first config
    (by cases first <;> rfl) hfirst hdistinct now
  have hidle : s.phase first.other = .idle := by
    rw [hother]
    cases first <;> rfl
  obtain ⟨s', hrun', hconfig, -⟩ := run_turn hidle hsecond hdistinct' now'
  exact ⟨s', by rw [Machine.run_append, hrun, Option.bind_some, hrun'], hconfig⟩

/-! ### What every reachable state satisfies -/

end Writers

namespace WriterPhase

def source : WriterPhase → Option ProxyConfig
  | .idle => none
  | .read prev | .accepted prev _ | .committed prev _ | .written prev _ | .returned prev _ =>
    some prev

def Made (env : SaveEnv) (call : ProxyConfig → SaveCall) : WriterPhase → Prop
  | .idle | .read _ => True
  | .accepted prev config => (call prev).accept env = .ok config
  | .committed prev config | .written prev config | .returned prev config =>
    (call prev).accept env = .ok config ∧ DistinctKeys config

def IsReturned : WriterPhase → Prop
  | .returned _ _ => True
  | _ => False

theorem isReturned_iff {phase : WriterPhase} :
    phase.IsReturned ↔ ∃ prev config, phase = .returned prev config := by
  cases phase <;> simp [IsReturned]

end WriterPhase

namespace Writers

/-- What every reachable state satisfies: the call that returns first has read the initial
configuration, and the other one that or what the first has saved. -/
structure Inv (env : SaveEnv) (call : Writer → ProxyConfig → SaveCall) (store : StoreState)
    (s : Writers) : Prop where
  made : ∀ w, (s.phase w).Made env (call w)
  source : ∀ w prev, (s.phase w).source = some prev → prev = store.config ∨
    s.phase w.other = .returned store.config prev
  untouched : (∀ w, ¬ (s.phase w).IsReturned) → s.store.config = store.config
  first : ∀ w prev config, s.phase w = .returned prev config → ¬ (s.phase w.other).IsReturned →
    prev = store.config ∧ s.store.config = config
  both : ∀ prev imported prev' saved, s.importer = .returned prev imported →
    s.settings = .returned prev' saved → SameGroups saved prev' →
      Merged s.store.config imported saved ∨ OneAfterOther env call store s.store.config

variable {store : StoreState}

theorem inv_init (store : StoreState) : Inv env call store { store := store } where
  made w := by cases w <;> trivial
  source w prev h := by cases w <;> cases h
  untouched _ := rfl
  first w prev config h := by cases w <;> cases h
  both prev imported prev' saved h := by cases h

theorem Inv.advance (hinv : Inv env call store s) {phase : WriterPhase}
    (hbefore : ¬ (s.phase w).IsReturned) (hafter : ¬ phase.IsReturned)
    (hmade : phase.Made env (call w))
    (hsource : ∀ prev, phase.source = some prev → prev = store.config ∨
      s.phase w.other = .returned store.config prev)
    {changed : StoreState} (hconfig : changed.config = s.store.config) :
    Inv env call store ({ s with store := changed }.setPhase phase w) where
  made v := by
    rcases eq_or_eq_other w v with rfl | rfl
    · simpa using hmade
    · simpa using hinv.made w.other
  source v prev h := by
    rcases eq_or_eq_other w v with rfl | rfl
    · simpa using hsource prev (by simpa using h)
    · have hother := hinv.source w.other prev (by simpa using h)
      rw [other_other] at hother
      refine hother.imp_right fun hreturned => absurd ?_ hbefore
      rw [hreturned]
      trivial
  untouched h := by
    rw [store_setPhase, hconfig]
    refine hinv.untouched fun v => ?_
    rcases eq_or_eq_other w v with rfl | rfl
    · exact hbefore
    · simpa using h w.other
  first v prev config h hother := by
    rw [store_setPhase, hconfig]
    rcases eq_or_eq_other w v with rfl | rfl
    · rw [phase_setPhase] at h
      rw [h] at hafter
      exact absurd trivial hafter
    · refine hinv.first w.other prev config (by simpa using h) ?_
      rwa [other_other]
  both prev imported prev' saved h h' := by
    cases w
    · cases h
      exact absurd trivial hafter
    · cases h'
      exact absurd trivial hafter

theorem Inv.returnFirst (hinv : Inv env call store s) {prev config : ProxyConfig}
    (hphase : s.phase w = .written prev config) (hother : ¬ (s.phase w.other).IsReturned) :
    Inv env call store
      ({ s with store := s.store.setInMemory config }.setPhase (.returned prev config) w) := by
  have hprev : prev = store.config := by
    refine (hinv.source w prev (by rw [hphase]; rfl)).resolve_right fun hreturned => hother ?_
    rw [hreturned]
    trivial
  refine ⟨fun v => ?_, fun v prev' h => ?_, fun h => ?_, fun v prev' config' h h' => ?_, ?_⟩
  · rcases eq_or_eq_other w v with rfl | rfl
    · have hmade := hinv.made v
      rw [hphase] at hmade
      rw [phase_setPhase]
      exact hmade
    · simpa using hinv.made w.other
  · rcases eq_or_eq_other w v with rfl | rfl
    · rw [phase_setPhase] at h
      exact .inl ((Option.some.inj h).symm.trans hprev)
    · have hsource := hinv.source w.other prev' (by simpa using h)
      rw [other_other, hphase] at hsource
      exact .inl (hsource.resolve_right fun hreturned => nomatch hreturned)
  · refine absurd ?_ (h w)
    rw [phase_setPhase]
    trivial
  · rcases eq_or_eq_other w v with rfl | rfl
    · rw [phase_setPhase] at h
      obtain ⟨rfl, rfl⟩ := WriterPhase.returned.inj h
      exact ⟨hprev, by rw [store_setPhase]; rfl⟩
    · rw [other_other, phase_setPhase] at h'
      exact absurd trivial h'
  · intro prev' imported prev'' saved himporter hsettings
    cases w
    · exact absurd (WriterPhase.isReturned_iff.2 ⟨_, _, hsettings⟩) hother
    · exact absurd (WriterPhase.isReturned_iff.2 ⟨_, _, himporter⟩) hother

theorem SameGroups.refl (config : ProxyConfig) : SameGroups config config :=
  ⟨List.forall₂_same.2 fun group _ => .refl group,
    List.forall₂_same.2 fun provider _ => .refl provider⟩

theorem SameGroups.trans {config config' config'' : ProxyConfig} (h : SameGroups config config')
    (h' : SameGroups config' config'') : SameGroups config config'' :=
  ⟨forall₂_trans (fun _ _ _ => .trans) h.1 h'.1, forall₂_trans (fun _ _ _ => .trans) h.2 h'.2⟩

/-! ### The import and the save -/

section Calls

variable {groups : List Group} {providers : List Rule} {edit : ProxyConfig → Json}

theorem settings_of_import {prev config : ProxyConfig}
    (h : (writerCall groups providers edit .importer prev).accept env = .ok config) :
    config.settings = prev.settings :=
  @settings_acceptConfig env.normalize (importConfig prev groups providers) config h

theorem Inv.returnSecond (hinv : Inv env (writerCall groups providers edit) store s)
    {prev config prev' config' : ProxyConfig} (hphase : s.phase w = .written prev config)
    (hother : s.phase w.other = .returned prev' config') (hunmoved : Unmoved s (.remember w)) :
    Inv env (writerCall groups providers edit) store
      ({ s with store := s.store.setInMemory config }.setPhase (.returned prev config) w) := by
  have hmade := hinv.made w
  have hmade' := hinv.made w.other
  rw [hphase] at hmade
  rw [hother] at hmade'
  have hnotReturned : ¬ (s.phase w.other.other).IsReturned := by
    rw [other_other, hphase]
    exact id
  obtain ⟨rfl, hmemory⟩ := hinv.first w.other _ _ hother hnotReturned
  have hsource : prev = store.config ∨ prev = config' := by
    refine (hinv.source w prev (by rw [hphase]; rfl)).imp_right fun hreturned => ?_
    exact (WriterPhase.returned.inj (hreturned.symm.trans hother)).2
  have houtcome : prev = config' →
      OneAfterOther env (writerCall groups providers edit) store config := by
    rintro rfl
    exact ⟨w.other, 0, 0, run_turns hmade'.1 hmade'.2 (by rw [other_other]; exact hmade.1)
      hmade.2 0 0⟩
  refine ⟨fun v => ?_, fun v source h => ?_, fun h => ?_, fun v _ _ h h' => ?_, ?_⟩
  · rcases eq_or_eq_other w v with rfl | rfl
    · rw [phase_setPhase]
      exact hmade
    · simpa using hinv.made w.other
  · rcases eq_or_eq_other w v with rfl | rfl
    · rw [phase_setPhase] at h
      cases h
      exact hsource.imp_right fun heq => by rw [phase_setPhase_other, phase_setStore, hother, heq]
    · rw [phase_setPhase_other, phase_setStore, hother] at h
      exact .inl (Option.some.inj h).symm
  · refine absurd ?_ (h w)
    rw [phase_setPhase]
    trivial
  · rcases eq_or_eq_other w v with rfl | rfl
    · rw [phase_setPhase_other, phase_setStore, hother] at h'
      exact absurd trivial h'
    · rw [other_other, phase_setPhase] at h'
      exact absurd trivial h'
  · intro prevI imported prevS saved himporter hsettings hkeeps
    have hnow : ({ s with store := s.store.setInMemory config }.setPhase (.returned prev config)
        w).store.config = config := by
      rw [store_setPhase]
      rfl
    rw [hnow]
    refine hsource.elim (fun hinitial => .inl ?_) fun heq => .inr (houtcome heq)
    cases w with
    | importer =>
      -- the import keeps the settings that it read, and finds them in memory
      obtain ⟨rfl, rfl⟩ := WriterPhase.returned.inj himporter
      obtain ⟨rfl, rfl⟩ := WriterPhase.returned.inj (hsettings.symm.trans hother)
      refine ⟨.refl _, (settings_of_import hmade.1).trans ?_⟩
      rw [← hunmoved _ _ hphase, hmemory]
    | settings =>
      -- the save keeps the groups and providers that it read, and finds them in memory
      obtain ⟨rfl, rfl⟩ := WriterPhase.returned.inj hsettings
      obtain ⟨rfl, rfl⟩ := WriterPhase.returned.inj (himporter.symm.trans hother)
      refine ⟨hkeeps.trans ?_, rfl⟩
      rw [← hmemory]
      exact hunmoved _ _ hphase

/-- **A step that moves nothing the call keeps preserves the invariant.** -/
theorem Inv.step {a : WriterAction} (hinv : Inv env (writerCall groups providers edit) store s)
    (hunmoved : Unmoved s a) (h : s.step env (writerCall groups providers edit) a = some s') :
    Inv env (writerCall groups providers edit) store s' := by
  cases a with
  | read w =>
    obtain ⟨hphase, rfl⟩ := step_read h
    have hbefore : ¬ (s.phase w).IsReturned := by
      rw [hphase]
      exact id
    refine hinv.advance hbefore ?_ ?_ (fun prev hprev => ?_) ?_
    · exact id
    · trivial
    · cases hprev
      -- the other call has returned, or has not touched the store
      by_cases hother : (s.phase w.other).IsReturned
      · obtain ⟨prev', config', hreturned⟩ := WriterPhase.isReturned_iff.1 hother
        obtain ⟨rfl, hmemory⟩ := hinv.first w.other _ _ hreturned (by rwa [other_other])
        exact .inr (hmemory ▸ hreturned)
      · refine .inl (hinv.untouched fun v => ?_)
        rcases eq_or_eq_other w v with rfl | rfl
        · exact hbefore
        · exact hother
    · rfl
  | accept w =>
    obtain ⟨prev, config, hphase, haccept, rfl⟩ := step_accept h
    refine hinv.advance ?_ ?_ ?_ (fun source hsource => hinv.source w source ?_) ?_
    · rw [hphase]
      exact id
    · exact id
    · exact haccept
    · rw [hphase]
      exact hsource
    · rfl
  | commit w now =>
    obtain ⟨prev, config, tables, hphase, hdistinct, rfl⟩ := step_commit h
    have hmade := hinv.made w
    rw [hphase] at hmade
    refine hinv.advance ?_ ?_ ?_ (fun source hsource => hinv.source w source ?_) ?_
    · rw [hphase]
      exact id
    · exact id
    · exact ⟨hmade, hdistinct⟩
    · rw [hphase]
      exact hsource
    · rfl
  | write w =>
    obtain ⟨prev, config, file, hphase, rfl⟩ := step_write h
    have hmade := hinv.made w
    rw [hphase] at hmade
    refine hinv.advance ?_ ?_ ?_ (fun source hsource => hinv.source w source ?_) ?_
    · rw [hphase]
      exact id
    · exact id
    · exact hmade
    · rw [hphase]
      exact hsource
    · rfl
  | remember w =>
    obtain ⟨prev, config, hphase, rfl⟩ := step_remember h
    by_cases hother : (s.phase w.other).IsReturned
    · obtain ⟨prev', config', hreturned⟩ := WriterPhase.isReturned_iff.1 hother
      exact hinv.returnSecond hphase hreturned hunmoved
    · exact hinv.returnFirst hphase hother

/-- **An import and a save of the settings are merged, or one follows the other**, when no call
replaces the memory over a change of the part that it only keeps. -/
theorem merged_of_run {actions : List WriterAction} {prev imported prev' saved : ProxyConfig}
    (hrun : Machine.run (step env (writerCall groups providers edit)) { store := store } actions =
      some s)
    (hunmoved : Machine.EachStep (step env (writerCall groups providers edit)) Unmoved
      { store := store } actions)
    (himporter : s.importer = .returned prev imported)
    (hsettings : s.settings = .returned prev' saved) (hkeeps : SameGroups saved prev') :
    Merged s.store.config imported saved ∨
      OneAfterOther env (writerCall groups providers edit) store s.store.config :=
  (Machine.run_invariant (fun _ _ _ hinv hcond hstep => hinv.step hcond hstep) (inv_init store)
    hunmoved hrun).both _ _ _ _ himporter hsettings hkeeps

end Calls

def capturingBodies (config : ProxyConfig) : Json := { config with logging := ⟨true⟩ }.toJson

/-- The calls of an import of one provider, and of this client. -/
def importAndCapture : Writer → ProxyConfig → SaveCall :=
  writerCall [] [sampleProvider "p1"] capturingBodies

def withProvider : ProxyConfig := { defaultConfig with providers := [sampleProvider "p1"] }

def withCapture : ProxyConfig := { defaultConfig with logging := ⟨true⟩ }

def withBoth : ProxyConfig := { withProvider with logging := ⟨true⟩ }

def storeWithProvider : StoreState := StoreState.empty.setInMemory withProvider

def overlappingCalls : List WriterAction :=
  [.read .importer, .read .settings, .accept .settings, .accept .importer, .commit .importer 1,
    .commit .settings 2, .write .settings, .write .importer, .remember .importer,
    .remember .settings]

theorem merged_overlappingCalls :
    ∃ s, Machine.run (step SaveEnv.plain importAndCapture) { store := storeWithProvider }
          overlappingCalls = some s ∧
      (Merged s.store.config withProvider withBoth ∨
        OneAfterOther SaveEnv.plain importAndCapture storeWithProvider s.store.config) := by
  have hrun : Machine.run (step SaveEnv.plain importAndCapture) { store := storeWithProvider }
      overlappingCalls = some _ := rfl
  have hsame : SameGroups withProvider withProvider := ⟨.nil, .cons (Rule.SameAs.refl _) .nil⟩
  refine ⟨_, hrun, merged_of_run hrun ?_ rfl rfl ⟨.nil, .cons (Rule.SameAs.refl _) .nil⟩⟩
  refine .cons rfl trivial (.cons rfl trivial (.cons rfl trivial (.cons rfl trivial
    (.cons rfl trivial (.cons rfl trivial (.cons rfl trivial (.cons rfl trivial (.cons rfl ?_
      (.cons rfl ?_ trivial)))))))))
  · intro prev config h
    cases h
    rfl
  · intro prev config h
    cases h
    exact hsame

def undoneSettings : List WriterAction :=
  [.read .importer, .read .settings, .accept .settings, .commit .settings 1, .write .settings,
    .remember .settings, .accept .importer, .commit .importer 2, .write .importer,
    .remember .importer]

/-- The import takes the settings back. -/
theorem not_merged_undoneSettings :
    ∃ (s : Writers) (prev imported prev' saved : ProxyConfig),
      Machine.run (step SaveEnv.plain importAndCapture) { store := StoreState.empty }
          undoneSettings = some s ∧
        s.importer = .returned prev imported ∧ s.settings = .returned prev' saved ∧
          SameGroups saved prev' ∧ ¬ Merged s.store.config imported saved ∧
            ¬ OneAfterOther SaveEnv.plain importAndCapture StoreState.empty s.store.config := by
  refine ⟨_, _, _, _, _, rfl, rfl, rfl, ⟨.nil, .nil⟩, fun h => ?_, ?_⟩
  · have hlogging : false = true := congrArg (fun config => config.logging.captureBody) h.2
    cases hlogging
  · rintro ⟨first, now, now', s', hrun, hconfig⟩
    -- one after the other, the bodies are captured in the end
    have hboth : s'.store.config = withBoth := by
      have hkeys : DistinctKeys withBoth := ⟨List.nodup_nil, List.nodup_singleton _⟩
      cases first with
      | importer =>
        have hsecond : (importAndCapture .settings withProvider).accept SaveEnv.plain =
          .ok withBoth := rfl
        obtain ⟨t, ht, hboth⟩ := @run_turns SaveEnv.plain importAndCapture StoreState.empty
          .importer withProvider withBoth rfl hkeys hsecond hkeys now now'
        rw [← Option.some.inj (ht.symm.trans hrun), hboth]
      | settings =>
        have hfirst : (importAndCapture .settings defaultConfig).accept SaveEnv.plain =
          .ok withCapture := rfl
        obtain ⟨t, ht, hboth⟩ := @run_turns SaveEnv.plain importAndCapture StoreState.empty
          .settings withCapture withBoth hfirst ⟨List.nodup_nil, List.nodup_nil⟩ rfl hkeys now now'
        rw [← Option.some.inj (ht.symm.trans hrun), hboth]
    have hlogging := congrArg (fun config => config.logging.captureBody) (hconfig.symm.trans hboth)
    cases hlogging

end Writers

end AiOpenRouter
