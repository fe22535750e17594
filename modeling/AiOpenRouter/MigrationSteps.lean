/-
Migrating in one call, and step by step.

The steps write a version that is not always the next one, but none of them reads it:
the loop counts on its own, and the current version is written last.

* `exists_steps`: the loop and the single steps, each from a stamped payload, agree on
  every other field;
* `migrates_iff`: what `migrate_config` promises holds of every payload whose version
  fits in 32 bits.
-/
import AiOpenRouter.ConfigMigration

namespace AiOpenRouter

def stamped (version : ℕ) (root : List (String × Json)) : List (String × Json) :=
  Json.insertField root "configVersion" (.int version)

def singleSteps : ℕ → ℕ → List (String × Json) → Option (List (String × Json))
  | 0, version, root => some (stamped version root)
  | left + 1, version, root =>
    (migrator version).bind fun step => singleSteps left (version + 1) (step (stamped version root))

/-- **What `migrate_config` promises of a payload.** -/
structure Migrates (input : Json) : Prop where
  current : ∀ output, migrateConfig input = .ok output → ∃ fields, output = .obj fields ∧
    fields.lookup "configVersion" = some (.int currentConfigVersion.toNat)
  rejected : ∀ n : ℤ, input.get "configVersion" = some (.int n) →
    n = 0 ∨ currentConfigVersion.toNat < n → ∃ message, migrateConfig input = .error message
  settled : ∀ output, migrateConfig input = .ok output → migrateConfig output = .ok output
  oneByOne : ∀ version, 1 ≤ version → version ≤ currentConfigVersion.toNat →
    detectConfigVersion (ensureObjectRoot input) = version →
      ∃ fields stepped, migrateConfig input = .ok (.obj fields) ∧
        singleSteps (currentConfigVersion.toNat - version) version (ensureObjectRoot input) =
          some stepped ∧ ∀ key, fields.lookup key = stepped.lookup key

/-! ### The steps do not read the version -/

def SameRest (root root' : List (String × Json)) : Prop :=
  ∀ key, key ≠ "configVersion" → root.lookup key = root'.lookup key

section SameRest

variable {root root' : List (String × Json)} {key : String}

theorem SameRest.stamp (h : SameRest root root') (value value' : Json) :
    SameRest (Json.insertField root "configVersion" value)
      (Json.insertField root' "configVersion" value') := by
  intro key hne
  rw [lookup_insertField, lookup_insertField, if_neg hne, if_neg hne]
  exact h key hne

theorem SameRest.insertField (h : SameRest root root') (key : String) (value : Json) :
    SameRest (Json.insertField root key value) (Json.insertField root' key value) := by
  intro key' hne
  rw [lookup_insertField, lookup_insertField, h key' hne]

theorem SameRest.changeObject (h : SameRest root root') (hkey : key ≠ "configVersion")
    (change : List (String × Json) → List (String × Json)) :
    SameRest (changeObject root key change) (changeObject root' key change) := by
  unfold AiOpenRouter.changeObject
  rw [h key hkey]
  split
  · exact h.insertField key _
  · exact h.insertField key _
  · exact h

theorem SameRest.changeArray (h : SameRest root root') (hkey : key ≠ "configVersion")
    (change : List Json → List Json) :
    SameRest (changeArray root key change) (changeArray root' key change) := by
  unfold AiOpenRouter.changeArray
  rw [h key hkey]
  split
  · exact h.insertField key _
  · exact h

theorem SameRest.step (h : SameRest root root') {version : ℕ}
    {step : List (String × Json) → List (String × Json)} (hstep : migrator version = some step) :
    SameRest (step root) (step root') := by
  have hui : "ui" ≠ "configVersion" := by decide
  have hremote : "remoteGit" ≠ "configVersion" := by decide
  have hgroups : "groups" ≠ "configVersion" := by decide
  have hproviders : "providers" ≠ "configVersion" := by decide
  unfold migrator at hstep
  split at hstep
  · cases hstep
    unfold migrateV1ToV2
    dsimp only
    rw [h "ui" hui]
    exact ((h.changeObject hui _).changeObject hremote _).stamp _ _
  · cases hstep
    exact (h.changeObject hui _).stamp _ _
  · cases hstep
    exact (h.changeObject hui _).stamp _ _
  · cases hstep
    exact (((h.changeArray hgroups _).changeArray hproviders _).changeArray hgroups _).stamp _ _
  · cases hstep

theorem migrator_isSome {version : ℕ} (hlow : 1 ≤ version) (hhigh : version ≤ 4) :
    ∃ step, migrator version = some step := by
  obtain rfl | rfl | rfl | rfl : version = 1 ∨ version = 2 ∨ version = 3 ∨ version = 4 := by omega
  all_goals exact ⟨_, rfl⟩

/-- **The loop and the single steps agree**, but for the version. -/
theorem exists_steps (left version : ℕ) (hlow : 1 ≤ version) (hsum : version + left = 5)
    (h : SameRest root root') :
    ∃ final stepped, migrateSteps left version root = .ok final ∧
      singleSteps left version root' = some stepped ∧ SameRest final stepped ∧
        stepped.lookup "configVersion" = some (.int 5) := by
  induction left generalizing version root root' with
  | zero =>
    obtain rfl : version = 5 := by omega
    refine ⟨root, stamped 5 root', rfl, rfl, fun key hne => ?_, ?_⟩
    · rw [stamped, lookup_insertField, if_neg hne]
      exact h key hne
    · rw [stamped, lookup_insertField, if_pos rfl]
      rfl
  | succ left ih =>
    obtain ⟨step, hstep⟩ := migrator_isSome hlow (by omega)
    have hstamped : SameRest root (stamped version root') := fun key hne => by
      rw [stamped, lookup_insertField, if_neg hne]
      exact h key hne
    obtain ⟨final, stepped, hloop, hsingle, hrest⟩ :=
      ih (version + 1) (by omega) (by omega) (hstamped.step hstep)
    refine ⟨final, stepped, ?_, ?_, hrest⟩
    · rw [migrateSteps, hstep]
      exact hloop
    · rw [singleSteps, hstep]
      exact hsingle

end SameRest

/-! ### The versions -/

theorem insertField_insertField (fields : List (String × Json)) (key : String) (value : Json) :
    Json.insertField (Json.insertField fields key value) key value =
      Json.insertField fields key value := by
  have hany : (Json.insertField fields key value).any (·.1 = key) = true := by
    have hsome : (Json.insertField fields key value).lookup key = some value := by
      rw [lookup_insertField, if_pos rfl]
    obtain ⟨before, after, hsplit, -⟩ := List.lookup_eq_some_iff.1 hsome
    rw [hsplit, List.any_append, List.any_cons]
    simp
  have hkept : ∀ field ∈ Json.insertField fields key value, field.1 = key →
      field = (key, value) := by
    intro field hmem hkey
    unfold Json.insertField at hmem
    split_ifs at hmem with hold
    · obtain ⟨other, -, heq⟩ := List.mem_map.1 hmem
      split_ifs at heq with hother
      · exact heq.symm
      · exact absurd (heq ▸ hkey) hother
    · rcases List.mem_append.1 hmem with hmem | hmem
      · exact absurd (List.any_eq_true.2 ⟨field, hmem, decide_eq_true hkey⟩) hold
      · exact List.mem_singleton.1 hmem
  conv_lhs => rw [Json.insertField, if_pos hany]
  refine (List.map_congr_left fun field hmem => ?_).trans (List.map_id _)
  by_cases hkey : field.1 = key
  · rw [if_pos hkey, hkept field hmem hkey]
    rfl
  · rw [if_neg hkey]
    rfl

section Versions

variable {input output : Json}

theorem migrateConfig_eq_ok (h : migrateConfig input = .ok output) :
    ∃ fields, output = .obj (Json.insertField fields "configVersion"
      (.int currentConfigVersion.toNat)) := by
  unfold migrateConfig at h
  dsimp only at h
  split_ifs at h
  cases hsteps : migrateSteps (currentConfigVersion.toNat -
      detectConfigVersion (ensureObjectRoot input)) (detectConfigVersion (ensureObjectRoot input))
        (ensureObjectRoot input) with
  | error message =>
    rw [hsteps] at h
    cases h
  | ok root =>
    rw [hsteps] at h
    exact ⟨root, (Except.ok.inj h).symm⟩

theorem migrateConfig_stamped (fields : List (String × Json)) :
    migrateConfig (.obj (Json.insertField fields "configVersion"
        (.int currentConfigVersion.toNat))) =
      .ok (.obj (Json.insertField fields "configVersion" (.int currentConfigVersion.toNat))) := by
  have hversion : detectConfigVersion (Json.insertField fields "configVersion"
      (.int currentConfigVersion.toNat)) = currentConfigVersion.toNat := by
    rw [detectConfigVersion, lookup_insertField, if_pos rfl]
    rfl
  have hroot : ensureObjectRoot (.obj (Json.insertField fields "configVersion"
      (.int currentConfigVersion.toNat))) = Json.insertField fields "configVersion"
        (.int currentConfigVersion.toNat) := rfl
  unfold migrateConfig
  dsimp only
  rw [hroot, hversion, if_neg (lt_irrefl _), Nat.sub_self, migrateSteps]
  show Except.ok (Json.obj (Json.insertField _ "configVersion" _)) = _
  rw [insertField_insertField]

/-- **One call is all steps** of the version that is found. -/
theorem migrateConfig_of_version {version : ℕ} (hlow : 1 ≤ version) (hhigh : version ≤ 5)
    (h : detectConfigVersion (ensureObjectRoot input) = version) :
    ∃ fields stepped, migrateConfig input = .ok (.obj fields) ∧
      singleSteps (5 - version) version (ensureObjectRoot input) = some stepped ∧
        ∀ key, fields.lookup key = stepped.lookup key := by
  obtain ⟨final, stepped, hloop, hsingle, hrest, hstamp⟩ :=
    exists_steps (5 - version) version hlow (by omega)
      (fun _ _ => rfl : SameRest (ensureObjectRoot input) (ensureObjectRoot input))
  refine ⟨Json.insertField final "configVersion" (.int 5), stepped, ?_, hsingle, fun key => ?_⟩
  · have hcurrent : currentConfigVersion.toNat = 5 := rfl
    unfold migrateConfig
    dsimp only
    rw [h, hcurrent, if_neg (by omega), hloop]
    rfl
  · rw [lookup_insertField]
    by_cases hkey : key = "configVersion"
    · rw [if_pos hkey, hkey, hstamp]
    · rw [if_neg hkey]
      exact hrest key hkey

theorem detectConfigVersion_of_int {n : ℤ} (h : input.get "configVersion" = some (.int n)) :
    detectConfigVersion (ensureObjectRoot input) =
      if 0 ≤ n ∧ n ≤ 4294967295 then n.toNat else 1 := by
  cases input with
  | obj fields =>
    have hlookup : fields.lookup "configVersion" = some (.int n) := h
    have hread : (Json.int n).asU64 =
        if 0 ≤ n ∧ n ≤ 18446744073709551615 then some n.toNat else none := rfl
    rw [ensureObjectRoot, detectConfigVersion, hlookup, Option.bind_some, hread]
    by_cases hfits : 0 ≤ n ∧ n ≤ 4294967295
    · rw [if_pos hfits, if_pos (by omega), Option.filter_some_pos (by simpa using hfits.2)]
      rfl
    · rw [if_neg hfits]
      by_cases hunsigned : 0 ≤ n ∧ n ≤ 18446744073709551615
      · have hlarge : ¬ n.toNat ≤ 4294967295 := by omega
        rw [if_pos hunsigned, Option.filter_some_neg (by simpa using hlarge)]
        rfl
      · rw [if_neg hunsigned]
        rfl
  | _ => cases h

/-- **The promise is kept exactly for the versions that fit in 32 bits.** -/
theorem migrates_iff (input : Json) :
    Migrates input ↔ ∀ n : ℤ, input.get "configVersion" = some (.int n) → n ≤ 4294967295 := by
  constructor
  · intro h n hn
    by_contra hlarge
    have hversion := detectConfigVersion_of_int hn
    rw [if_neg fun hfits => hlarge hfits.2] at hversion
    obtain ⟨fields, -, hok, -⟩ := migrateConfig_of_version le_rfl (by omega) hversion
    have hcurrent : (currentConfigVersion.toNat : ℤ) = 5 := rfl
    obtain ⟨message, herror⟩ := h.rejected n hn (.inr (by rw [hcurrent]; omega))
    rw [hok] at herror
    cases herror
  · intro hfits
    refine ⟨fun output hok => ?_, fun n hn hwrong => ?_, fun output hok => ?_,
      fun version hlow hhigh hversion => migrateConfig_of_version hlow hhigh hversion⟩
    · obtain ⟨fields, rfl⟩ := migrateConfig_eq_ok hok
      exact ⟨_, rfl, by rw [lookup_insertField, if_pos rfl]⟩
    · have hversion := detectConfigVersion_of_int hn
      have hcurrent : currentConfigVersion.toNat = 5 := rfl
      have hle := hfits n hn
      rw [hcurrent] at hwrong
      rw [if_pos (by omega)] at hversion
      unfold migrateConfig
      dsimp only
      rw [hversion, hcurrent]
      rcases hwrong with rfl | hlarge
      · -- there is no step from version 0
        exact ⟨_, rfl⟩
      · rw [if_pos (by omega)]
        exact ⟨_, rfl⟩
    · obtain ⟨fields, rfl⟩ := migrateConfig_eq_ok hok
      exact migrateConfig_stamped fields

end Versions

/-- A payload whose version does not fit in 32 bits. -/
def farFuture : Json := .obj [("configVersion", .int 4294967296)]

/-- It is migrated as one of version 1. -/
theorem not_migrates_farFuture : ¬ Migrates farFuture := by
  intro h
  obtain ⟨message, herror⟩ := h.rejected 4294967296 rfl (.inr (by decide))
  have hok : ∃ output, migrateConfig farFuture = .ok output := ⟨_, rfl⟩
  obtain ⟨output, houtput⟩ := hok
  rw [houtput] at herror
  cases herror

end AiOpenRouter
