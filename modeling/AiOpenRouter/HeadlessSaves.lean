/-
Saving a configuration without an application window.

The port of such a server is fixed when it is started.  The guard looks for another
port in the JSON as it came; the port that is stored comes out of the typed reading,
where a section may be an array and a missing port is the default one.

* `migrateConfig_server`: the steps leave the section of the server alone;
* `portKept_iff`: when a save that is accepted keeps the port.
-/
import AiOpenRouter.ProviderLookups

namespace AiOpenRouter

/-! ### The handler -/

/-- How `config_save` refuses. -/
inductive ConfigSaveError where
  | validation (message : String)
  | internal (message : String)

/-- The port that the guard of `config_save` sees. -/
def nextServerPort (nextConfig : Json) : Option UInt16 :=
  (((nextConfig.get "server").bind fun server => server.get "port").bind Json.asU64).bind fun n =>
    if n ≤ 65535 then some (UInt16.ofNat n) else none

/-- Whether the guard of `config_save` refuses. -/
def changesPort (prev : ProxyConfig) (nextConfig : Json) : Bool :=
  (nextServerPort nextConfig).any fun port => port ≠ prev.server.port

/-- `config_save` without an application, up to the synchronisation of the runtime. -/
def configSave (env : SaveEnv) (now : ℤ) (faults : SaveFaults) (nextConfig : Json)
    (s : StoreState) : Except ConfigSaveError ProxyConfig × StoreState :=
  if changesPort s.config nextConfig then
    (.error (.validation
      "Headless mode does not allow changing server port from management UI"), s)
  else
    match (SaveCall.save nextConfig).perform env now faults s with
    | (.ok saved, s') => (.ok saved, s')
    | (.error message, s') => (.error (.internal message), s')

/-! ### Where the port comes from -/

variable {fields : List (String × Json)} {nextConfig : Json} {port : UInt16}

theorem lookup_changeObject_of_ne {key key' : String} (h : key' ≠ key)
    (change : List (String × Json) → List (String × Json)) :
    (changeObject fields key change).lookup key' = fields.lookup key' := by
  unfold changeObject
  split
  · rw [lookup_insertField, if_neg h]
  · rw [lookup_insertField, if_neg h]
  · rfl

theorem lookup_changeArray_of_ne {key key' : String} (h : key' ≠ key)
    (change : List Json → List Json) :
    (changeArray fields key change).lookup key' = fields.lookup key' := by
  unfold changeArray
  split
  · rw [lookup_insertField, if_neg h]
  · rfl

theorem lookup_server_of_migrator {version : ℕ}
    {step : List (String × Json) → List (String × Json)} (h : migrator version = some step)
    (root : List (String × Json)) : (step root).lookup "server" = root.lookup "server" := by
  have hversion : ("server" : String) ≠ "configVersion" := by decide
  have hui : ("server" : String) ≠ "ui" := by decide
  have hremote : ("server" : String) ≠ "remoteGit" := by decide
  have hgroups : ("server" : String) ≠ "groups" := by decide
  have hproviders : ("server" : String) ≠ "providers" := by decide
  unfold migrator at h
  split at h
  · cases h
    rw [migrateV1ToV2, lookup_insertField, if_neg hversion, lookup_changeObject_of_ne hremote,
      lookup_changeObject_of_ne hui]
  · cases h
    rw [migrateV2ToV3, lookup_insertField, if_neg hversion, lookup_changeObject_of_ne hui]
  · cases h
    rw [migrateV3ToV4, lookup_insertField, if_neg hversion, lookup_changeObject_of_ne hui]
  · cases h
    rw [migrateV4ToV5, lookup_insertField, if_neg hversion, lookup_changeArray_of_ne hgroups,
      lookup_changeArray_of_ne hproviders, lookup_changeArray_of_ne hgroups]
  · cases h

theorem lookup_server_of_migrateSteps {left version : ℕ} {root root' : List (String × Json)}
    (h : migrateSteps left version root = .ok root') :
    root'.lookup "server" = root.lookup "server" := by
  induction left generalizing version root with
  | zero =>
    cases h
    rfl
  | succ left ih =>
    rw [migrateSteps] at h
    cases hstep : migrator version with
    | none =>
      rw [hstep] at h
      cases h
    | some step =>
      rw [hstep] at h
      rw [ih h, lookup_server_of_migrator hstep]

/-- **The migration leaves the section of the server alone.** -/
theorem migrateConfig_server {input migrated : Json} (h : migrateConfig input = .ok migrated) :
    ∃ fields, migrated = .obj fields ∧
      fields.lookup "server" = (ensureObjectRoot input).lookup "server" := by
  unfold migrateConfig at h
  dsimp only at h
  split_ifs at h
  generalize hsteps : migrateSteps _ _ (ensureObjectRoot input) = result at h
  cases result with
  | error message => cases h
  | ok root =>
    cases h
    refine ⟨_, rfl, ?_⟩
    rw [lookup_insertField, if_neg (by decide), lookup_server_of_migrateSteps hsteps]

def portValue : Json → Option Json
  | .obj entries => entries.lookup "port"
  | .arr items => items[1]?
  | _ => none

theorem partialServerConfig_port {json : Json} {server : PartialServerConfig}
    (h : Decode.partialServerConfig (some json) = some server) :
    Decode.optional Decode.u16 (portValue json) = some server.port := by
  unfold Decode.partialServerConfig at h
  dsimp only at h
  split at h
  next host port authEnabled localBearerToken hfields =>
    have hport : portValue json = port := by
      cases json with
      | obj entries =>
        cases hfields
        rfl
      | arr items =>
        rw [Decode.fields] at hfields
        split_ifs at hfields
        have hsecond := congrArg (fun values => values[1]?) (Option.some.inj hfields)
        rw [List.getElem?_map] at hsecond
        obtain ⟨value, hvalue, rfl⟩ := Option.map_eq_some_iff.1 hsecond
        exact hvalue
      | _ => cases hfields
    simp only [Option.bind_eq_bind, Option.bind_eq_some_iff] at h
    obtain ⟨_, -, port', hport', _, -, _, -, hserver⟩ := h
    cases hserver
    rw [hport, hport']
  · cases h

def rawPort (nextConfig : Json) : Option Json :=
  ((ensureObjectRoot nextConfig).lookup "server").bind portValue

theorem partialProxyConfig_server {part : PartialProxyConfig}
    (h : Decode.partialProxyConfig (.obj fields) = some part) :
    Decode.optional Decode.partialServerConfig (fields.lookup "server") = some part.server := by
  unfold Decode.partialProxyConfig at h
  simp only [Decode.fields, List.map_cons, List.map_nil, Option.bind_eq_bind,
    Option.bind_eq_some_iff] at h
  obtain ⟨_, -, server, hserver, _, -, _, -, _, -, _, -, _, -, _, -, hpart⟩ := h
  cases hpart
  exact hserver

theorem serverSettings_port {json : Option Json} {server : Option PartialServerConfig}
    (h : Decode.optional Decode.partialServerConfig json = some server) :
    ∃ port, Decode.optional Decode.u16 (json.bind portValue) = some port ∧
      (serverSettings server).port = port.getD defaultConfig.server.port := by
  rcases json with _ | json
  · cases h
    exact ⟨none, rfl, rfl⟩
  · by_cases hnull : json = .null
    · subst hnull
      cases h
      exact ⟨none, rfl, rfl⟩
    · rw [Decode.optional_of_ne_null _ hnull] at h
      obtain ⟨server', hserver, rfl⟩ := Option.map_eq_some_iff.1 h
      exact ⟨server'.port, partialServerConfig_port hserver, rfl⟩

/-- **The port that is stored is the one that is given, or the default.** -/
theorem accepted_port {env : SaveEnv} {normalized : ProxyConfig}
    (h : (SaveCall.save nextConfig).accept env = .ok normalized) :
    ∃ port, Decode.optional Decode.u16 (rawPort nextConfig) = some port ∧
      normalized.server.port = port.getD defaultConfig.server.port := by
  obtain ⟨migrated, hmigrated, hrest⟩ := bind_eq_ok_iff.1 h
  obtain ⟨config, hconfig, haccept⟩ := bind_eq_ok_iff.1 hrest
  obtain ⟨fields, rfl, hserver⟩ := migrateConfig_server hmigrated
  obtain ⟨rfl, -⟩ := acceptConfig_eq_ok_iff.1 haccept
  unfold normalizeConfig at hconfig
  cases hpart : Decode.partialProxyConfig (.obj fields) with
  | none =>
    rw [hpart] at hconfig
    cases hconfig
  | some part =>
    rw [hpart] at hconfig
    obtain ⟨groups, -, hgroups⟩ := bind_eq_ok_iff.1 hconfig
    obtain ⟨providers, -, hproviders⟩ := bind_eq_ok_iff.1 hgroups
    cases hproviders
    rw [rawPort, ← hserver]
    exact serverSettings_port (partialProxyConfig_server hpart)

/-! ### Whether the port is kept -/

theorem rawPort_of_nextServerPort (h : nextServerPort nextConfig = some port) :
    ∃ n : ℤ, rawPort nextConfig = some (.num (.int n)) ∧ port = UInt16.ofNat n.toNat := by
  obtain ⟨n, hvalue, hport⟩ := Option.bind_eq_some_iff.1 h
  obtain ⟨value, hget, hu64⟩ := Option.bind_eq_some_iff.1 hvalue
  obtain ⟨server, hserver, hkey⟩ := Option.bind_eq_some_iff.1 hget
  have hlookup : (ensureObjectRoot nextConfig).lookup "server" = some server := by
    cases nextConfig with
    | obj fields => exact hserver
    | _ => cases hserver
  have hportValue : portValue server = some value := by
    cases server with
    | obj entries => exact hkey
    | _ => cases hkey
  have hint : ∃ m : ℤ, value = .num (.int m) ∧ m.toNat = n := by
    cases value with
    | num number =>
      cases number with
      | int m =>
        rw [Json.asU64] at hu64
        split_ifs at hu64
        exact ⟨m, rfl, Option.some.inj hu64⟩
      | float text => cases hu64
    | _ => cases hu64
  obtain ⟨m, rfl, rfl⟩ := hint
  refine ⟨m, ?_, ?_⟩
  · rw [rawPort, hlookup, Option.bind_some, hportValue]
  · split_ifs at hport
    exact (Option.some.inj hport).symm

/-- The server section gives a port that the guard sees, or by its place the one that there is, or
none while the port is the default one. -/
def PortKept (prev : ProxyConfig) (nextConfig : Json) : Prop :=
  match (rawPort nextConfig).filter fun port => !port.isNull with
  | none => prev.server.port = defaultConfig.server.port
  | some port => (nextServerPort nextConfig).isSome ∨ port = .int prev.server.port.toNat

theorem accepted_of_configSave {env : SaveEnv} {now : ℤ} {faults : SaveFaults} {s s' : StoreState}
    {saved : ProxyConfig} (h : configSave env now faults nextConfig s = (.ok saved, s')) :
    changesPort s.config nextConfig = false ∧ (SaveCall.save nextConfig).accept env = .ok saved ∧
      s'.config = saved := by
  unfold configSave at h
  cases hguard : changesPort s.config nextConfig with
  | true =>
    rw [hguard, if_pos rfl] at h
    cases h
  | false =>
  rw [hguard, if_neg Bool.false_ne_true] at h
  refine ⟨rfl, ?_⟩
  rcases hperform : (SaveCall.save nextConfig).perform env now faults s with ⟨message | saved', s₁⟩
  · rw [hperform] at h
    cases h
  · rw [hperform] at h
    cases h
    unfold SaveCall.perform at hperform
    cases haccept : (SaveCall.save nextConfig).accept env with
    | error message =>
      rw [haccept] at hperform
      cases hperform
    | ok normalized =>
      rw [haccept] at hperform
      dsimp only at hperform
      obtain ⟨rfl, -⟩ := eq_of_saveNormalized (congrArg Prod.fst hperform)
      refine ⟨rfl, ?_⟩
      unfold saveNormalized at hperform
      split at hperform
      · cases hperform
      · split at hperform
        · cases hperform
        · cases hperform
          rfl

theorem ofNat_toNat_eq_iff {n : ℤ} (hlow : 0 ≤ n) (hhigh : n ≤ 65535) :
    UInt16.ofNat n.toNat = port ↔ n = port.toNat := by
  rw [← UInt16.toNat_inj, UInt16.toNat_ofNat_of_lt' (by simp only [UInt16.size]; omega)]
  omega

/-- A `u16` is an integer that fits. -/
theorem u16_eq_some {value : Json} (h : Decode.u16 (some value) = some port) :
    ∃ n : ℤ, value = .num (.int n) ∧ 0 ≤ n ∧ n ≤ 65535 ∧ UInt16.ofNat n.toNat = port := by
  obtain ⟨n, hn, hport⟩ := Option.map_eq_some_iff.1 h
  cases value with
  | num number =>
    cases number with
    | int m =>
      rw [Decode.integer] at hn
      split_ifs at hn with hbounds
      cases hn
      exact ⟨n, rfl, hbounds.1, hbounds.2, hport⟩
    | float text => cases hn
  | _ => cases hn

/-- **A save that is accepted keeps the port exactly when the guard sees what is stored, or when
what it does not see is the port that there is.** -/
theorem portKept_iff {env : SaveEnv} {now : ℤ} {faults : SaveFaults} {nextConfig : Json}
    {s s' : StoreState} {saved : ProxyConfig}
    (h : configSave env now faults nextConfig s = (.ok saved, s')) :
    s'.config.server.port = s.config.server.port ↔ PortKept s.config nextConfig := by
  obtain ⟨hguard, haccept, rfl⟩ := accepted_of_configSave h
  obtain ⟨port, hread, hport⟩ := accepted_port haccept
  rw [hport, PortKept]
  rcases hraw : rawPort nextConfig with _ | value
  · rw [hraw] at hread
    cases hread
    exact eq_comm
  · rw [hraw] at hread
    by_cases hnull : value = .null
    · subst hnull
      cases hread
      exact eq_comm
    · rw [Decode.optional_of_ne_null _ hnull] at hread
      obtain ⟨port, hu16, rfl⟩ := Option.map_eq_some_iff.1 hread
      obtain ⟨n, rfl, hlow, hhigh, rfl⟩ := u16_eq_some hu16
      show UInt16.ofNat n.toNat = _ ↔
        (nextServerPort nextConfig).isSome ∨ Json.int n = .int s.config.server.port.toNat
      have hint : Json.int n = .int s.config.server.port.toNat ↔
          n = s.config.server.port.toNat := by
        rw [Json.int, Json.int, Json.num.injEq, JsonNumber.int.injEq]
      rw [hint, ofNat_toNat_eq_iff hlow hhigh]
      refine ⟨.inr, fun hkept => hkept.elim (fun hsees => ?_) id⟩
      obtain ⟨seen, hseen⟩ := Option.isSome_iff_exists.1 hsees
      obtain ⟨m, hm, hport'⟩ := rawPort_of_nextServerPort hseen
      rw [hraw] at hm
      cases hm
      have hsame : seen = s.config.server.port := by simpa [changesPort, hseen] using hguard
      exact (ofNat_toNat_eq_iff hlow hhigh).1 (hport'.symm.trans hsame)

def startedOn (port : UInt16) : StoreState :=
  { StoreState.empty with
    config := { defaultConfig with server := { defaultConfig.server with port := port } } }

/-- A configuration that names the port again, and the theme. -/
def namesPort (port : ℤ) : Json :=
  .obj [("server", .obj [("port", .int port)]), ("ui", .obj [("theme", .str "dark")])]

/-- The port is named again. -/
theorem portKept_named :
    ∃ saved s', configSave SaveEnv.plain 1 {} (namesPort 9000) (startedOn 9000) = (.ok saved, s') ∧
      s'.config.server.port = 9000 := by
  obtain ⟨saved, s', hsave⟩ : ∃ saved s', configSave SaveEnv.plain 1 {} (namesPort 9000)
      (startedOn 9000) = (.ok saved, s') := ⟨_, _, rfl⟩
  exact ⟨saved, s', hsave, (portKept_iff hsave).2 (.inl rfl)⟩

/-- Another setting is saved, and the server is on the default port. -/
theorem not_portKept_missing :
    ∃ saved s', configSave SaveEnv.plain 1 {}
        (.obj [("ui", .obj [("theme", .str "dark")])]) (startedOn 9000) = (.ok saved, s') ∧
      s'.config.server.port = 8899 ∧ s'.config.server.port ≠ (startedOn 9000).config.server.port :=
  ⟨_, _, rfl, rfl, by decide⟩

end AiOpenRouter
