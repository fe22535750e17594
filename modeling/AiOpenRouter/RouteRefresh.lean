/-
The route index beside saves (`refresh_route_index_if_needed`).

A save replaces the configuration and then counts the revision up, under the
write lock.  A request loads the revision and the cached one, and when they
differ builds an index from the configuration and swaps it in; then it looks its
group up.  Any number of requests and saves interleave.

* `RouterState.step` is one atomic step of a save or of a request;
* `RouterState.Inv` relates what a request holds to the saves before it started;
* `freshLookup`: in a run whose swaps never put an older index in place of a newer
  one, every request finds its group in an index no older than the last save before
  it started.
-/
import AiOpenRouter.Machines
import AiOpenRouter.Routing

namespace AiOpenRouter

/-! ### The machine -/

inductive RequestPhase where
  | idle
  | started
  | loaded (observed : UInt64)
  | mustBuild (observed : UInt64)
  | built (observed : UInt64) (index : HashMap RouteResolution) (version : ℕ)
  | refreshed
  | answered (resolution : Option RouteResolution)

/-- A request: the group it asks for, and the saves that were complete when it started. -/
structure RouterRequest where
  groupId : String := ""
  savesBefore : ℕ := 0
  phase : RequestPhase := .idle

/-- The shared state, with the configurations so far; the last one is in place.  The fields
`saves` and `indexVersion` count what the program does not: the complete saves, and the
configuration that the index was built from. -/
structure RouterState where
  configs : List ProxyConfig
  writing : Bool := false
  revision : UInt64
  saves : ℕ := 0
  index : HashMap RouteResolution
  indexVersion : ℕ := 0
  cachedRevision : UInt64
  requests : ℕ → RouterRequest := fun _ => {}

/-- The state when the proxy is constructed. -/
def RouterState.init (config : ProxyConfig) (revision : UInt64) : RouterState where
  configs := [config]
  revision := revision
  index := buildRouteIndex config
  cachedRevision := revision

/-- One atomic step: of a save, or of the request with a number. -/
inductive RouterAction where
  | replaceConfig (config : ProxyConfig)
  | countRevision
  | start (request : ℕ) (groupId : String)
  | loadRevision (request : ℕ)
  | loadCached (request : ℕ)
  | buildIndex (request : ℕ)
  | swapIndex (request : ℕ)
  | lookUp (request : ℕ)

namespace RouterState

def setRequest (s : RouterState) (number : ℕ) (request : RouterRequest) : RouterState :=
  { s with requests := Function.update s.requests number request }

def setPhase (s : RouterState) (number : ℕ) (phase : RequestPhase) : RouterState :=
  s.setRequest number { s.requests number with phase := phase }

/-- `ConfigStore::set_in_memory` and `refresh_route_index_if_needed`, by atomic steps. -/
def step (s : RouterState) : RouterAction → Option RouterState
  | .replaceConfig config =>
    if s.writing then none else some { s with configs := s.configs ++ [config], writing := true }
  | .countRevision =>
    if s.writing then
      some { s with revision := s.revision + 1, saves := s.saves + 1, writing := false }
    else none
  | .start request groupId =>
    match (s.requests request).phase with
    | .idle =>
      some (s.setRequest request { groupId := groupId, savesBefore := s.saves, phase := .started })
    | _ => none
  | .loadRevision request =>
    match (s.requests request).phase with
    | .started => some (s.setPhase request (.loaded s.revision))
    | _ => none
  | .loadCached request =>
    match (s.requests request).phase with
    | .loaded observed =>
      if observed = s.cachedRevision then some (s.setPhase request .refreshed)
      else some (s.setPhase request (.mustBuild observed))
    | _ => none
  | .buildIndex request =>
    match (s.requests request).phase with
    | .mustBuild observed =>
      -- The configuration is read under its lock, which a save holds until it has counted.
      if s.writing then none
      else s.configs.getLast?.map fun config =>
        s.setPhase request (.built observed (buildRouteIndex config) (s.configs.length - 1))
    | _ => none
  | .swapIndex request =>
    match (s.requests request).phase with
    | .built observed index version =>
      some { s.setPhase request .refreshed with
        index := index, indexVersion := version, cachedRevision := observed }
    | _ => none
  | .lookUp request =>
    match (s.requests request).phase with
    | .refreshed =>
      some (s.setPhase request (.answered (s.index.get (s.requests request).groupId)))
    | _ => none

/-! ### What a request knows -/

def IndexOf (s : RouterState) (index : HashMap RouteResolution) (version : ℕ) : Prop :=
  ∃ config, s.configs[version]? = some config ∧ index = buildRouteIndex config

def PhaseInv (first : UInt64) (s : RouterState) (request : RouterRequest) : RequestPhase → Prop
  | .idle => True
  | .started => request.savesBefore ≤ s.saves
  | .loaded observed | .mustBuild observed =>
    ∃ n, observed = first + UInt64.ofNat n ∧ request.savesBefore ≤ n ∧ n ≤ s.saves
  | .built observed index version =>
    (∃ n, observed = first + UInt64.ofNat n ∧ request.savesBefore ≤ n ∧ n ≤ s.saves ∧
      n ≤ version) ∧ s.IndexOf index version
  | .refreshed => request.savesBefore ≤ s.indexVersion
  | .answered resolution =>
    ∃ index version, request.savesBefore ≤ version ∧ s.IndexOf index version ∧
      resolution = index.get request.groupId

/-- The invariant: the revision counts the saves, and the index is no older than the cached
revision says. -/
structure Inv (first : UInt64) (s : RouterState) : Prop where
  count : s.configs.length = s.saves + 1 + s.writing.toNat
  bound : s.configs.length ≤ 2 ^ 64
  revision : s.revision = first + UInt64.ofNat s.saves
  cached : ∃ n, s.cachedRevision = first + UInt64.ofNat n ∧ n ≤ s.saves ∧ n ≤ s.indexVersion
  index : s.IndexOf s.index s.indexVersion
  requests : ∀ r, PhaseInv first s (s.requests r) (s.requests r).phase

/-- The steps of a run without stale swaps, and with less than 2 ^ 64 saves. -/
def Orderly (s : RouterState) : RouterAction → Prop
  | .replaceConfig _ => s.configs.length < 2 ^ 64
  | .swapIndex request => ∀ observed index version,
      (s.requests request).phase = .built observed index version → s.indexVersion ≤ version
  | _ => True

theorem inv_init (config : ProxyConfig) (first : UInt64) : Inv first (init config first) where
  count := rfl
  bound := by simp [init]
  revision := (UInt64.add_zero first).symm
  cached := ⟨0, (UInt64.add_zero first).symm, le_rfl, le_rfl⟩
  index := ⟨config, rfl, rfl⟩
  requests := fun _ => trivial

structure LaterThan (s s' : RouterState) : Prop where
  configs : ∃ more, s'.configs = s.configs ++ more
  saves : s.saves ≤ s'.saves
  indexVersion : s.indexVersion ≤ s'.indexVersion

variable {first : UInt64} {s s' : RouterState} {request : ℕ}

theorem IndexOf.mono {index : HashMap RouteResolution} {version : ℕ} (h : s.IndexOf index version)
    (hlater : s.LaterThan s') : s'.IndexOf index version := by
  obtain ⟨config, hget, hindex⟩ := h
  obtain ⟨more, hmore⟩ := hlater.configs
  refine ⟨config, ?_, hindex⟩
  rw [hmore, List.getElem?_append_left (List.getElem?_eq_some_iff.1 hget).1, hget]

theorem PhaseInv.mono {request : RouterRequest} {phase : RequestPhase}
    (h : PhaseInv first s request phase) (hlater : s.LaterThan s') :
    PhaseInv first s' request phase := by
  have hsaves := hlater.saves
  cases phase with
  | idle => trivial
  | started => exact Nat.le_trans h hsaves
  | loaded observed =>
    obtain ⟨n, hobserved, hbefore, hn⟩ := h
    exact ⟨n, hobserved, hbefore, hn.trans hsaves⟩
  | mustBuild observed =>
    obtain ⟨n, hobserved, hbefore, hn⟩ := h
    exact ⟨n, hobserved, hbefore, hn.trans hsaves⟩
  | built observed index version =>
    obtain ⟨⟨n, hobserved, hbefore, hn, hversion⟩, hindex⟩ := h
    exact ⟨⟨n, hobserved, hbefore, hn.trans hsaves, hversion⟩, hindex.mono hlater⟩
  | refreshed => exact Nat.le_trans h hlater.indexVersion
  | answered resolution =>
    obtain ⟨index, version, hversion, hindex, hresolution⟩ := h
    exact ⟨index, version, hversion, hindex.mono hlater, hresolution⟩

theorem eq_of_revision_eq {m n bound : ℕ} (hm : m ≤ bound) (hn : n ≤ bound)
    (hbound : bound < 2 ^ 64) (h : first + UInt64.ofNat m = first + UInt64.ofNat n) : m = n := by
  have heq := congrArg UInt64.toNat ((UInt64.add_right_inj first).1 h)
  rwa [UInt64.toNat_ofNat_of_lt' (hm.trans_lt hbound),
    UInt64.toNat_ofNat_of_lt' (hn.trans_lt hbound)] at heq

/-! ### One step -/

/-- A step that changes one request keeps the invariant when the request knows what its phase
needs. -/
theorem Inv.setRequest (h : Inv first s) {number : ℕ} {request : RouterRequest}
    (hrequest : PhaseInv first s request request.phase) :
    Inv first (s.setRequest number request) := by
  have hlater : s.LaterThan (s.setRequest number request) :=
    ⟨⟨[], (List.append_nil _).symm⟩, le_rfl, le_rfl⟩
  refine ⟨h.count, h.bound, h.revision, h.cached, h.index, fun r => ?_⟩
  by_cases hr : r = number
  · subst hr
    have hself : (s.setRequest r request).requests r = request := Function.update_self ..
    rw [hself]
    exact hrequest.mono hlater
  · have hother : (s.setRequest number request).requests r = s.requests r :=
      Function.update_of_ne hr ..
    rw [hother]
    exact (h.requests r).mono hlater

theorem Inv.setPhase (h : Inv first s) {number : ℕ} {phase : RequestPhase}
    (hphase : PhaseInv first s (s.requests number) phase) : Inv first (s.setPhase number phase) :=
  h.setRequest (by cases phase <;> exact hphase)

theorem inv_replaceConfig {config : ProxyConfig} (h : Inv first s)
    (hbound : s.configs.length < 2 ^ 64) (hstep : s.step (.replaceConfig config) = some s') :
    Inv first s' := by
  simp only [step] at hstep
  split_ifs at hstep with hwriting
  cases hstep
  have hlater : s.LaterThan { s with configs := s.configs ++ [config], writing := true } :=
    ⟨⟨[config], rfl⟩, le_rfl, le_rfl⟩
  have hcount := h.count
  rw [Bool.eq_false_iff.2 hwriting] at hcount
  refine ⟨?_, ?_, h.revision, h.cached, h.index.mono hlater, fun r => (h.requests r).mono hlater⟩
  · rw [List.length_append, hcount]
    rfl
  · rw [List.length_append, List.length_singleton]
    omega

theorem inv_countRevision (h : Inv first s) (hstep : s.step .countRevision = some s') :
    Inv first s' := by
  simp only [step] at hstep
  split_ifs at hstep with hwriting
  cases hstep
  have hlater : s.LaterThan
      { s with revision := s.revision + 1, saves := s.saves + 1, writing := false } :=
    ⟨⟨[], (List.append_nil _).symm⟩, Nat.le_succ _, le_rfl⟩
  have hcount := h.count
  rw [hwriting] at hcount
  obtain ⟨n, hn, hsaves, hindex⟩ := h.cached
  refine ⟨hcount, h.bound, ?_, ⟨n, hn, hsaves.trans (Nat.le_succ _), hindex⟩, h.index,
    fun r => (h.requests r).mono hlater⟩
  show s.revision + 1 = first + UInt64.ofNat (s.saves + 1)
  rw [h.revision, UInt64.ofNat_add, UInt64.add_assoc]
  rfl

theorem inv_start {groupId : String} (h : Inv first s)
    (hstep : s.step (.start request groupId) = some s') : Inv first s' := by
  simp only [step] at hstep
  split at hstep
  · cases hstep
    exact h.setRequest (Nat.le_refl s.saves)
  · cases hstep

theorem inv_loadRevision (h : Inv first s) (hstep : s.step (.loadRevision request) = some s') :
    Inv first s' := by
  simp only [step] at hstep
  split at hstep
  · rename_i hphase
    cases hstep
    have hbefore := h.requests request
    rw [hphase] at hbefore
    exact h.setPhase ⟨s.saves, h.revision, hbefore, le_rfl⟩
  · cases hstep

theorem inv_loadCached (h : Inv first s) (hstep : s.step (.loadCached request) = some s') :
    Inv first s' := by
  simp only [step] at hstep
  split at hstep
  · rename_i observed hphase
    have hknown := h.requests request
    rw [hphase] at hknown
    split_ifs at hstep with hcached
    · cases hstep
      obtain ⟨n, hobserved, hbefore, hn⟩ := hknown
      obtain ⟨m, hm, hsaves, hindex⟩ := h.cached
      have hlt : s.saves < 2 ^ 64 := by
        have hcount := h.count
        have hbound := h.bound
        omega
      have heq : n = m := eq_of_revision_eq hn hsaves hlt (by rw [← hobserved, ← hm, hcached])
      exact h.setPhase (hbefore.trans (heq ▸ hindex))
    · cases hstep
      exact h.setPhase hknown
  · cases hstep

theorem inv_buildIndex (h : Inv first s) (hstep : s.step (.buildIndex request) = some s') :
    Inv first s' := by
  simp only [step] at hstep
  split at hstep
  · rename_i observed hphase
    have hknown := h.requests request
    rw [hphase] at hknown
    split_ifs at hstep with hwriting
    obtain ⟨config, hlast, hs'⟩ := Option.map_eq_some_iff.1 hstep
    cases hs'
    obtain ⟨n, hobserved, hbefore, hn⟩ := hknown
    have hcount := h.count
    refine h.setPhase ⟨⟨n, hobserved, hbefore, hn, by omega⟩, config, ?_, rfl⟩
    rwa [← List.getLast?_eq_getElem?]
  · cases hstep

theorem inv_swapIndex (h : Inv first s) (horderly : s.Orderly (.swapIndex request))
    (hstep : s.step (.swapIndex request) = some s') : Inv first s' := by
  simp only [step] at hstep
  split at hstep
  · rename_i observed index version hphase
    cases hstep
    have hknown := h.requests request
    rw [hphase] at hknown
    obtain ⟨⟨n, hobserved, hbefore, hn, hversion⟩, hindex⟩ := hknown
    have hlater : s.LaterThan
        { s with index := index, indexVersion := version, cachedRevision := observed } :=
      ⟨⟨[], (List.append_nil _).symm⟩, le_rfl, horderly observed index version hphase⟩
    have hinv : Inv first
        { s with index := index, indexVersion := version, cachedRevision := observed } :=
      ⟨h.count, h.bound, h.revision, ⟨n, hobserved, hn, hversion⟩, hindex,
        fun r => (h.requests r).mono hlater⟩
    exact hinv.setPhase (hbefore.trans hversion)
  · cases hstep

theorem inv_lookUp (h : Inv first s) (hstep : s.step (.lookUp request) = some s') :
    Inv first s' := by
  simp only [step] at hstep
  split at hstep
  · rename_i hphase
    cases hstep
    have hknown := h.requests request
    rw [hphase] at hknown
    exact h.setPhase ⟨s.index, s.indexVersion, hknown, h.index, rfl⟩
  · cases hstep

theorem inv_step (s : RouterState) (action : RouterAction) (s' : RouterState) (h : Inv first s)
    (horderly : s.Orderly action) (hstep : s.step action = some s') : Inv first s' := by
  cases action with
  | replaceConfig config => exact inv_replaceConfig h horderly hstep
  | countRevision => exact inv_countRevision h hstep
  | start request groupId => exact inv_start h hstep
  | loadRevision request => exact inv_loadRevision h hstep
  | loadCached request => exact inv_loadCached h hstep
  | buildIndex request => exact inv_buildIndex h hstep
  | swapIndex request => exact inv_swapIndex h horderly hstep
  | lookUp request => exact inv_lookUp h hstep

end RouterState

/-! ### Runs -/

open RouterState

/-- **In a run whose swaps never put an older index in place of a newer one, a request finds its
group in the index of a configuration no older than the last save before it started.** -/
theorem freshLookup {config : ProxyConfig} {first : UInt64} {actions : List RouterAction}
    {s : RouterState} {request : ℕ} {resolution : Option RouteResolution}
    (horderly : Machine.EachStep step Orderly (init config first) actions)
    (hrun : Machine.run step (init config first) actions = some s)
    (hanswered : (s.requests request).phase = .answered resolution) :
    ∃ version saved, (s.requests request).savesBefore ≤ version ∧
      s.configs[version]? = some saved ∧
        resolution = (buildRouteIndex saved).get (s.requests request).groupId := by
  have hinv : Inv first s := Machine.run_invariant inv_step (inv_init config first) horderly hrun
  have hrequest := hinv.requests request
  rw [hanswered] at hrequest
  obtain ⟨_, version, hversion, ⟨saved, hsaved, rfl⟩, hresolution⟩ := hrequest
  exact ⟨version, saved, hversion, hsaved, hresolution⟩

def saveThenRequest : List RouterAction :=
  [.replaceConfig (oneRouteConfig "p1"), .countRevision, .start 0 "dev", .loadRevision 0,
    .loadCached 0, .buildIndex 0, .swapIndex 0, .lookUp 0]

theorem freshLookup_saveThenRequest :
    ∃ s resolution, Machine.run step (init defaultConfig 1) saveThenRequest = some s ∧
      (s.requests 0).phase = .answered resolution ∧
        ∃ version saved, (s.requests 0).savesBefore ≤ version ∧
          s.configs[version]? = some saved ∧
            resolution = (buildRouteIndex saved).get (s.requests 0).groupId := by
  have horderly : Machine.EachStep step Orderly (init defaultConfig 1) saveThenRequest :=
    .cons rfl (Nat.one_lt_two_pow (by decide)) (.cons rfl trivial (.cons rfl trivial
      (.cons rfl trivial (.cons rfl trivial (.cons rfl trivial
        (.cons rfl (fun _ _ _ _ => Nat.zero_le _) (.cons rfl trivial trivial)))))))
  exact ⟨_, _, rfl, rfl, freshLookup horderly rfl rfl⟩

/-- Two requests and two saves: the slow request 0 swaps its index in between the swap and the
lookup of request 1. -/
def staleSwap : List RouterAction :=
  [.replaceConfig defaultConfig, .countRevision, .start 0 "dev", .loadRevision 0, .loadCached 0,
    .buildIndex 0, .replaceConfig (oneRouteConfig "p1"), .countRevision, .start 1 "dev",
    .loadRevision 1, .loadCached 1, .buildIndex 1, .swapIndex 1, .swapIndex 0, .lookUp 1]

/-- Request 1 starts after the second save, and does not find the group that this save brought. -/
theorem not_freshLookup_staleSwap :
    ∃ s, Machine.run step (init defaultConfig 1) staleSwap = some s ∧
      (s.requests 1).savesBefore = 2 ∧ (s.requests 1).phase = .answered none ∧
        ∀ version saved, 2 ≤ version → s.configs[version]? = some saved →
          (buildRouteIndex saved).get (s.requests 1).groupId ≠ none := by
  refine ⟨_, rfl, rfl, rfl, fun version saved hversion hsaved hnone => ?_⟩
  have hlast : version = 2 := by
    have hlt := (List.getElem?_eq_some_iff.1 hsaved).1
    exact Nat.le_antisymm (Nat.lt_succ_iff.1 hlt) hversion
  subst hlast
  cases hsaved
  cases hnone

end AiOpenRouter
