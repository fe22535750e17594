/-
Saves that run at the same time.

Each step of a save takes its own lock, and no lock spans two of them, so the
steps of several calls interleave in any way.

* `Saves.step` makes one step of one call;
* `serial_refines`: calls that follow each other do what `ConfigStore.saveConfig` does;
* `copiesAgree_of_run`: the three copies agree at the end of a run in which no call
  writes the file, or replaces the memory, behind the call that committed last.
-/
import AiOpenRouter.ConfigSaves
import AiOpenRouter.Machines

namespace AiOpenRouter

/-! ### The machine -/

/-- The store, what each call has accepted, and which calls have made each of their steps, in the
order in which they did. -/
structure Saves where
  store : StoreState
  calls : List ProxyConfig := []
  committed : List ℕ := []
  written : List ℕ := []
  remembered : List ℕ := []

/-- A call begins, or the call of a number makes its next step. -/
inductive SaveAction where
  | start (call : SaveCall)
  | commit (i : ℕ) (now : ℤ)
  | write (i : ℕ)
  | remember (i : ℕ)

namespace Saves

/-- One step, in which nothing goes wrong. -/
def step (env : SaveEnv) (s : Saves) : SaveAction → Option Saves
  | .start call => (call.accept env).toOption.map fun config =>
    { s with calls := s.calls ++ [config] }
  | .commit i now =>
    if i ∈ s.committed then none
    else
      (s.calls[i]?).bind fun config =>
        (saveConfigToDb now none config).toOption.map fun tables =>
          { s with store := { s.store with tables := tables }, committed := s.committed ++ [i] }
  | .write i =>
    if i ∉ s.committed ∨ i ∈ s.written then none
    else
      (s.calls[i]?).map fun config =>
        { s with
          store := { s.store with file := (writeFile env {} config s.store.file).2 }
          written := s.written ++ [i] }
  | .remember i =>
    if i ∉ s.written ∨ i ∈ s.remembered then none
    else
      (s.calls[i]?).map fun config =>
        { s with store := s.store.setInMemory config, remembered := s.remembered ++ [i] }

def AllReturned (s : Saves) : Prop := ∀ i < s.calls.length, i ∈ s.remembered

def CopiesAgree (env : SaveEnv) (s : Saves) : Prop :=
  ∃ (i : ℕ) (config : ProxyConfig), s.calls[i]? = some config ∧
    (∃ now, s.store.tables = Tables.ofConfig now config) ∧
    s.store.file = some (env.toStringPretty config.settings.toJson) ∧ s.store.config = config

def NotBehind (committed done : List ℕ) (i : ℕ) : Prop :=
  ∀ last, committed.getLast? = some last → last = i ∨ last ∉ done

def InOrder (s : Saves) : SaveAction → Prop
  | .write i => NotBehind s.committed s.written i
  | .remember i => NotBehind s.committed s.remembered i
  | _ => True

/-! ### What a step does -/

variable {env : SaveEnv} {s s' : Saves}

variable {i : ℕ} {config : ProxyConfig}

theorem saveConfigToDb_eq_ok {now : ℤ} {tables : Tables}
    (h : saveConfigToDb now none config = .ok tables) : tables = Tables.ofConfig now config := by
  by_cases hdistinct : DistinctKeys config
  · rw [saveConfigToDb_of_distinct hdistinct] at h
    exact (Except.ok.inj h).symm
  · obtain ⟨message, hmessage⟩ := saveConfigToDb_of_not_distinct hdistinct now
    rw [hmessage] at h
    cases h

theorem step_start {call : SaveCall} (h : s.step env (.start call) = some s') :
    ∃ config, call.accept env = .ok config ∧ s' = { s with calls := s.calls ++ [config] } := by
  obtain ⟨config, hconfig, rfl⟩ := Option.map_eq_some_iff.1 h
  exact ⟨config, toOption_eq_some_iff.1 hconfig, rfl⟩

theorem step_commit {now : ℤ} (h : s.step env (.commit i now) = some s') :
    i ∉ s.committed ∧ ∃ config, s.calls[i]? = some config ∧
      s' = { s with
        store := { s.store with tables := Tables.ofConfig now config }
        committed := s.committed ++ [i] } := by
  unfold step at h
  dsimp only at h
  split_ifs at h with hmem
  obtain ⟨config, hconfig, h⟩ := Option.bind_eq_some_iff.1 h
  obtain ⟨tables, htables, rfl⟩ := Option.map_eq_some_iff.1 h
  rw [saveConfigToDb_eq_ok (toOption_eq_some_iff.1 htables)]
  exact ⟨hmem, config, hconfig, rfl⟩

theorem step_write (h : s.step env (.write i) = some s') :
    i ∈ s.committed ∧ ∃ config, s.calls[i]? = some config ∧
      s' = { s with
        store := { s.store with file := some (env.toStringPretty config.settings.toJson) }
        written := s.written ++ [i] } := by
  unfold step at h
  dsimp only at h
  split_ifs at h with hmem
  obtain ⟨config, hconfig, rfl⟩ := Option.map_eq_some_iff.1 h
  exact ⟨not_not.1 fun hnot => hmem (.inl hnot), config, hconfig, rfl⟩

theorem step_remember (h : s.step env (.remember i) = some s') :
    i ∈ s.written ∧ ∃ config, s.calls[i]? = some config ∧
      s' = { s with
        store := s.store.setInMemory config, remembered := s.remembered ++ [i] } := by
  unfold step at h
  dsimp only at h
  split_ifs at h with hmem
  obtain ⟨config, hconfig, rfl⟩ := Option.map_eq_some_iff.1 h
  exact ⟨not_not.1 fun hnot => hmem (.inl hnot), config, hconfig, rfl⟩

theorem run_alone {call : SaveCall} {now : ℤ} (haccept : call.accept env = .ok config)
    (hdistinct : DistinctKeys config) (hcommitted : s.calls.length ∉ s.committed)
    (hwritten : s.calls.length ∉ s.written) (hremembered : s.calls.length ∉ s.remembered) :
    Machine.run (step env) s [.start call, .commit s.calls.length now, .write s.calls.length,
        .remember s.calls.length] = some
      { store := (call.perform env now {} s.store).2
        calls := s.calls ++ [config]
        committed := s.committed ++ [s.calls.length]
        written := s.written ++ [s.calls.length]
        remembered := s.remembered ++ [s.calls.length] } := by
  have hcall : (s.calls ++ [config])[s.calls.length]? = some config := by simp
  have hcommit := saveConfigToDb_of_distinct hdistinct now
  simp only [Machine.run, step, haccept, Except.toOption, Option.map_some, Option.bind_some,
    hcommitted, hwritten, hremembered, hcall, hcommit, if_false, List.mem_append,
    List.mem_singleton, or_true, not_true_eq_false, or_false, SaveCall.perform, saveNormalized]
  rfl

/-! ### One call after another -/

/-- The steps of whole calls, numbered from `n` on, with the times of their commits. -/
def serialSteps : ℕ → List (ℤ × ProxyConfig) → List SaveAction
  | _, [] => []
  | n, (now, nextConfig) :: calls =>
    [.start (.saveConfig nextConfig), .commit n now, .write n, .remember n] ++
      serialSteps (n + 1) calls

def Numbered (s : Saves) : Prop :=
  ∀ i, i ∈ s.committed ∨ i ∈ s.written ∨ i ∈ s.remembered → i < s.calls.length

theorem run_serial (calls : List (ℤ × ProxyConfig))
    (haccept : ∀ call ∈ calls, ∃ config, acceptConfig env.normalize call.2 = .ok config ∧
      DistinctKeys config) (hnumbered : s.Numbered) {configStore : ConfigStore}
    (h : s.store.Matches env configStore) :
    ∃ s', Machine.run (step env) s (serialSteps s.calls.length calls) = some s' ∧
      s'.store.Matches env (calls.foldl
        (fun store call => (store.saveConfig env.normalize call.2).2) configStore) := by
  induction calls generalizing s configStore with
  | nil => exact ⟨s, rfl, h⟩
  | cons call calls ih =>
    obtain ⟨now, nextConfig⟩ := call
    obtain ⟨config, hconfig, hdistinct⟩ := haccept _ List.mem_cons_self
    have hnew := fun hdone => lt_irrefl _ (hnumbered s.calls.length hdone)
    have halone := @run_alone env s config (.saveConfig nextConfig) now hconfig hdistinct
      (fun hmem => hnew (.inl hmem)) (fun hmem => hnew (.inr (.inl hmem)))
      fun hmem => hnew (.inr (.inr hmem))
    have hlength : (s.calls ++ [config]).length = s.calls.length + 1 := List.length_append
    rw [serialSteps, Machine.run_append, halone, Option.bind_some, ← hlength]
    refine ih (fun other hother => haccept other (List.mem_cons_of_mem _ hother)) ?_
      (perform_matches env now nextConfig h).2
    intro i hi
    simp only [List.mem_append, List.mem_singleton] at hi
    have hle : i ∈ s.committed ∨ i ∈ s.written ∨ i ∈ s.remembered ∨ i = s.calls.length := by tauto
    show i < (s.calls ++ [config]).length
    rw [hlength]
    rcases hle with hdone | hdone | hdone | hlast
    · exact Nat.lt_succ_of_lt (hnumbered i (.inl hdone))
    · exact Nat.lt_succ_of_lt (hnumbered i (.inr (.inl hdone)))
    · exact Nat.lt_succ_of_lt (hnumbered i (.inr (.inr hdone)))
    · omega

/-- **Saves that follow each other refine `ConfigStore.saveConfig`**: the tables, the file and the
memory are those of its calls in turn. -/
theorem serial_refines {store : StoreState} {configStore : ConfigStore}
    (h : store.Matches env configStore) {calls : List (ℤ × ProxyConfig)}
    (haccept : ∀ call ∈ calls, ∃ config, acceptConfig env.normalize call.2 = .ok config ∧
      DistinctKeys config) :
    ∃ s, Machine.run (step env) { store := store } (serialSteps 0 calls) = some s ∧
      s.store.Matches env (calls.foldl
        (fun store call => (store.saveConfig env.normalize call.2).2) configStore) :=
  run_serial calls haccept (fun _ hdone => by simp at hdone) h

/-! ### The last call to commit -/

def EndsWith (committed done : List ℕ) : Prop :=
  ∀ last, committed.getLast? = some last → last ∈ done → done.getLast? = some last

theorem EndsWith.commit {committed done : List ℕ} (h : i ∉ done) :
    EndsWith (committed ++ [i]) done := by
  intro last hlast hmem
  rw [List.getLast?_concat, Option.some_inj] at hlast
  exact absurd (hlast ▸ hmem) h

theorem EndsWith.concat {committed done : List ℕ} (h : NotBehind committed done i) :
    EndsWith committed (done ++ [i]) := by
  intro last hlast hmem
  rw [List.getLast?_concat]
  rcases List.mem_append.1 hmem with hdone | hi
  · exact (h last hlast).elim (fun heq => heq ▸ rfl) fun hnot => absurd hdone hnot
  · rw [List.mem_singleton.1 hi]

/-- What every reachable state satisfies when the steps are in order. -/
structure Inv (env : SaveEnv) (s : Saves) : Prop where
  written_mem : ∀ i ∈ s.written, i ∈ s.committed
  remembered_mem : ∀ i ∈ s.remembered, i ∈ s.written
  tables : ∀ i, s.committed.getLast? = some i → ∃ config, s.calls[i]? = some config ∧
    ∃ now, s.store.tables = Tables.ofConfig now config
  file : ∀ i, s.written.getLast? = some i → ∃ config, s.calls[i]? = some config ∧
    s.store.file = some (env.toStringPretty config.settings.toJson)
  config : ∀ i, s.remembered.getLast? = some i → s.calls[i]? = some s.store.config
  writtenLast : EndsWith s.committed s.written
  rememberedLast : EndsWith s.committed s.remembered

theorem inv_of_fresh (store : StoreState) : Inv env { store := store } where
  written_mem _ h := by cases h
  remembered_mem _ h := by cases h
  tables _ h := by cases h
  file _ h := by cases h
  config _ h := by cases h
  writtenLast _ h := by cases h
  rememberedLast _ h := by cases h

theorem getElem?_append_of_some {calls : List ProxyConfig} (h : calls[i]? = some config)
    (more : List ProxyConfig) : (calls ++ more)[i]? = some config := by
  obtain ⟨hlt, -⟩ := List.getElem?_eq_some_iff.1 h
  rw [List.getElem?_append_left hlt, h]

/-- **A step in order keeps the invariant.** -/
theorem Inv.step {a : SaveAction} (hinv : Inv env s) (horder : InOrder s a)
    (h : s.step env a = some s') : Inv env s' := by
  cases a with
  | start call =>
    obtain ⟨config, -, rfl⟩ := step_start h
    refine ⟨hinv.written_mem, hinv.remembered_mem, fun i hi => ?_, fun i hi => ?_,
      fun i hi => getElem?_append_of_some (hinv.config i hi) _, hinv.writtenLast,
      hinv.rememberedLast⟩
    · obtain ⟨old, hold, htables⟩ := hinv.tables i hi
      exact ⟨old, getElem?_append_of_some hold _, htables⟩
    · obtain ⟨old, hold, hfile⟩ := hinv.file i hi
      exact ⟨old, getElem?_append_of_some hold _, hfile⟩
  | commit i now =>
    obtain ⟨hfresh, config, hconfig, rfl⟩ := step_commit h
    have hwritten : i ∉ s.written := fun hmem => hfresh (hinv.written_mem i hmem)
    refine ⟨fun j hj => List.mem_append_left _ (hinv.written_mem j hj), hinv.remembered_mem,
      fun j hj => ?_, hinv.file, hinv.config, .commit hwritten,
      .commit fun hmem => hwritten (hinv.remembered_mem i hmem)⟩
    rw [List.getLast?_concat, Option.some_inj] at hj
    exact ⟨config, hj ▸ hconfig, now, rfl⟩
  | write i =>
    obtain ⟨hcommitted, config, hconfig, rfl⟩ := step_write h
    refine ⟨fun j hj => ?_, fun j hj => List.mem_append_left _ (hinv.remembered_mem j hj),
      hinv.tables, fun j hj => ?_, hinv.config, .concat horder, hinv.rememberedLast⟩
    · rcases List.mem_append.1 hj with hj | hj
      · exact hinv.written_mem j hj
      · rwa [List.mem_singleton.1 hj]
    · rw [List.getLast?_concat, Option.some_inj] at hj
      exact ⟨config, hj ▸ hconfig, rfl⟩
  | remember i =>
    obtain ⟨hwritten, config, hconfig, rfl⟩ := step_remember h
    refine ⟨hinv.written_mem, fun j hj => ?_, hinv.tables, hinv.file, fun j hj => ?_,
      hinv.writtenLast, .concat horder⟩
    · rcases List.mem_append.1 hj with hj | hj
      · exact hinv.remembered_mem j hj
      · rwa [List.mem_singleton.1 hj]
    · rw [List.getLast?_concat, Option.some_inj] at hj
      exact hj ▸ hconfig

theorem Inv.copiesAgree (hinv : Inv env s) (hall : s.AllReturned) (hsome : s.calls ≠ []) :
    s.CopiesAgree env := by
  have hfirst : 0 ∈ s.committed := hinv.written_mem 0 (hinv.remembered_mem 0
    (hall 0 (List.length_pos_of_ne_nil hsome)))
  obtain ⟨last, hlast⟩ : ∃ last, s.committed.getLast? = some last :=
    Option.isSome_iff_exists.1 (List.getLast?_isSome.2 (List.ne_nil_of_mem hfirst))
  obtain ⟨config, hconfig, htables⟩ := hinv.tables last hlast
  have hremembered := hall last (List.getElem?_eq_some_iff.1 hconfig).1
  obtain ⟨config', hconfig', hfile⟩ :=
    hinv.file last (hinv.writtenLast last hlast (hinv.remembered_mem last hremembered))
  have hmemory := hinv.config last (hinv.rememberedLast last hlast hremembered)
  rw [hconfig, Option.some_inj] at hconfig' hmemory
  subst hconfig'
  exact ⟨last, config, hconfig, htables, hfile, hmemory.symm⟩

/-- **After saves whose steps are in order the copies agree.** -/
theorem copiesAgree_of_run {store : StoreState} {actions : List SaveAction}
    (hrun : Machine.run (step env) { store := store } actions = some s)
    (horder : Machine.EachStep (step env) InOrder { store := store } actions)
    (hall : s.AllReturned) (hsome : s.calls ≠ []) : s.CopiesAgree env :=
  Inv.copiesAgree (Machine.run_invariant (fun _ _ _ hinv hcond hstep => hinv.step hcond hstep)
    (inv_of_fresh store) horder hrun) hall hsome

def otherProviderConfig : ProxyConfig := { defaultConfig with providers := [sampleProvider "p2"] }

/-- Two calls at the same time: the second one begins before the first has committed, and commits
before the first has replaced the memory. -/
def overlappingSaves : List SaveAction :=
  [.start (.saveConfig (oneRouteConfig "p1")), .start (.saveConfig otherProviderConfig),
    .commit 0 1, .write 0, .commit 1 2, .remember 0, .write 1, .remember 1]

theorem copiesAgree_overlapping :
    ∃ s, Machine.run (step SaveEnv.plain) { store := StoreState.empty } overlappingSaves = some s ∧
      s.CopiesAgree SaveEnv.plain := by
  refine ⟨_, rfl, @copiesAgree_of_run SaveEnv.plain _ StoreState.empty overlappingSaves rfl ?_ ?_
    ?_⟩
  · refine .cons rfl trivial (.cons rfl trivial (.cons rfl trivial (.cons rfl ?_
      (.cons rfl trivial (.cons rfl ?_ (.cons rfl ?_ (.cons rfl ?_ trivial)))))))
    · exact fun last hlast => .inl (Option.some.inj hlast).symm
    · exact fun last hlast => .inr List.not_mem_nil
    · exact fun last hlast => .inl (Option.some.inj hlast).symm
    · exact fun last hlast => .inl (Option.some.inj hlast).symm
  · intro i hi
    obtain rfl | rfl := Nat.le_one_iff_eq_zero_or_eq_one.1 (Nat.le_of_lt_succ hi)
    · exact List.mem_cons_self
    · exact List.mem_cons_of_mem _ List.mem_cons_self
  · exact List.cons_ne_nil _ _

def savedTwice : List (ℤ × ProxyConfig) := [(1, oneRouteConfig "p1"), (2, oneRouteConfig "p1")]

theorem serial_refines_savedTwice :
    ∃ s, Machine.run (step SaveEnv.plain) { store := StoreState.empty } (serialSteps 0 savedTwice) =
        some s ∧
      s.store.Matches SaveEnv.plain (savedTwice.foldl
        (fun store call => (store.saveConfig SaveEnv.plain.normalize call.2).2) emptyStore) := by
  refine serial_refines ⟨rfl, rfl, .missing, rfl, rfl⟩ fun call hcall => ?_
  have hconfig : call.2 = oneRouteConfig "p1" := by
    simp only [savedTwice, List.mem_cons, List.not_mem_nil, or_false] at hcall
    rcases hcall with rfl | rfl <;> rfl
  rw [hconfig]
  exact ⟨_, rfl, List.nodup_singleton _, List.nodup_singleton _⟩

/-- Two calls; the first to commit is the last to replace the memory. -/
def overtakenSaves : List SaveAction :=
  [.start (.saveConfig (oneRouteConfig "p1")), .start (.saveConfig otherProviderConfig),
    .commit 0 1, .commit 1 2, .write 0, .write 1, .remember 1, .remember 0]

theorem not_copiesAgree_overtaken :
    ∃ s, Machine.run (step SaveEnv.plain) { store := StoreState.empty } overtakenSaves = some s ∧
      s.AllReturned ∧ s.calls ≠ [] ∧ ¬ s.CopiesAgree SaveEnv.plain := by
  refine ⟨_, rfl, ?_, List.cons_ne_nil _ _, ?_⟩
  · intro i hi
    obtain rfl | rfl := Nat.le_one_iff_eq_zero_or_eq_one.1 (Nat.le_of_lt_succ hi)
    · exact List.mem_cons_of_mem _ List.mem_cons_self
    · exact List.mem_cons_self
  · rintro ⟨i, config, -, ⟨now, htables⟩, -, hmemory⟩
    -- the tables have the provider of the second call, and the memory that of the first
    have hkeys : ["p2"] = config.providers.map Rule.id := by
      have hrows := congrArg (fun tables => tables.providerRecords.map Row.key) htables
      refine hrows.trans ?_
      simp only [Tables.ofConfig, Tables.written, providerRows, List.map_map]
      rfl
    rw [← hmemory] at hkeys
    exact absurd hkeys (by decide)

end Saves

end AiOpenRouter
