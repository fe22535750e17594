/-
One installation that syncs its rules with a branch of its own.

An upload stamps the file with its time, which is later than that of the tables; a
pull writes the tables, which are then newer than the file.  So the next upload or
pull may meet a conflict of the installation with itself.

* `OwnState.step` makes an edit, an upload or a pull;
* `InTurn` asks for changed rules before an upload, and for unwritten tables before a
  pull;
* `fine_of_inTurn`: steps that are in turn are never answered with a question, and
  never commit unchanged rules;
* `inTurn_of_fine`: of the operations that are served no others are so.
-/
import AiOpenRouter.Machines
import AiOpenRouter.RemoteRules

namespace AiOpenRouter

def Installation.rules (inst : Installation) : List Group × List Rule :=
  (inst.store.config.groups, inst.store.config.providers)

/-- The installation and its branch, beside what there was so far: whether rules were uploaded,
whether the tables were written since, and the rules at the last upload or pull. -/
structure OwnState where
  clock : ℕ
  inst : Installation
  branch : RemoteBranch := none
  uploaded : Bool := false
  written : Bool := false
  synced : Option (List Group × List Rule) := none

namespace OwnState

def note (s : OwnState) : SyncAnswer → OwnState
  | .edited (.ok _) => { s with written := true }
  | .uploaded (.ok result) =>
    if result.needsConfirmation then s
    else { s with uploaded := true, written := false, synced := some s.inst.rules }
  | .pulled (.ok result) =>
    if result.needsConfirmation then s
    else { s with written := true, synced := some s.inst.rules }
  | _ => s

/-- An operation at a later time. -/
def step (env : SyncEnv) (s : OwnState) (event : ℕ × SyncOp) : Option OwnState :=
  if event.1 ≤ s.clock then none
  else
    let (answer, inst, branch) := event.2.perform env event.1 s.inst s.branch
    some ({ s with clock := event.1, inst := inst, branch := branch }.note answer)

/-- An operation is not answered with a question, and an upload of unchanged rules leaves the branch
alone. -/
def Fine (env : SyncEnv) (s : OwnState) (event : ℕ × SyncOp) : Prop :=
  (event.2.perform env event.1 s.inst s.branch).1.needsConfirmation = false ∧
    ∀ result, (event.2.perform env event.1 s.inst s.branch).1 = .uploaded (.ok result) →
      s.synced = some s.inst.rules →
        result.changed = false ∧ (event.2.perform env event.1 s.inst s.branch).2.2 = s.branch

/-- An upload comes after a change of the rules since the last upload or pull, and a pull before
the tables are written after an upload. -/
def InTurn (s : OwnState) (event : ℕ × SyncOp) : Prop :=
  match event.2 with
  | .edit _ => True
  | .upload _ => s.synced ≠ some s.inst.rules
  | .pull _ => s.uploaded = true → s.written = false

/-- How the three times are related: that of the clock, that of the tables, and that of the file. -/
structure Inv (env : SyncEnv) (s : OwnState) : Prop where
  savedAt : s.inst.savedAt ≤ s.clock
  fresh : s.uploaded = false → s.branch = none
  exported : s.uploaded = true → ∃ time config,
    s.branch = some (some (rulesFile env time config)) ∧ time ≤ s.clock ∧
      (s.written = true → time < s.inst.savedAt) ∧
        (s.written = false → s.inst.savedAt < time ∧ s.synced = some s.inst.rules)

section Steps

variable {env : SyncEnv} {s s' : OwnState} {event : ℕ × SyncOp}

theorem needsConfirmation_of_failed {answer : SyncAnswer} (h : answer.failed = true) :
    answer.needsConfirmation = false := by
  rcases answer with ⟨_ | _⟩ | ⟨_ | _⟩ | ⟨_ | _⟩
  all_goals first | rfl | cases h

theorem note_of_failed {answer : SyncAnswer} (h : answer.failed = true) : s.note answer = s := by
  rcases answer with ⟨_ | _⟩ | ⟨_ | _⟩ | ⟨_ | _⟩
  all_goals first | rfl | cases h

theorem Inv.exported_of_exportTime (hinv : s.Inv env) {time : ℕ}
    (htime : exportTime env.toTimeTexts s.branch = some time) :
    s.uploaded = true ∧ time ≤ s.clock ∧ (s.written = true → time < s.inst.savedAt) ∧
      (s.written = false → s.inst.savedAt < time ∧ s.synced = some s.inst.rules) := by
  cases huploaded : s.uploaded with
  | false =>
    rw [hinv.fresh huploaded] at htime
    cases htime
  | true =>
    obtain ⟨time', config, hbranch, hrest⟩ := hinv.exported huploaded
    rw [hbranch, exportTime_rulesFile, Option.some_inj] at htime
    exact ⟨rfl, htime ▸ hrest⟩

theorem Inv.fine (hinv : s.Inv env) (hturn : s.InTurn event) : s.Fine env event := by
  obtain ⟨now, op⟩ := event
  unfold Fine
  have houtcome := op.perform_outcome env now s.inst s.branch
  dsimp only
  generalize op.perform env now s.inst s.branch = outcome at houtcome ⊢
  cases houtcome with
  | failed hfailed =>
    refine ⟨needsConfirmation_of_failed hfailed, fun result hanswer => ?_⟩
    dsimp only at hanswer
    rw [hanswer] at hfailed
    cases hfailed
  | @uploadAsked _ time hasked htime hlt =>
    -- the tables would have been left alone since the last upload
    obtain ⟨-, -, hwritten, hleft⟩ := hinv.exported_of_exportTime htime
    cases hcase : s.written with
    | true =>
      have := hwritten hcase
      omega
    | false => exact absurd (hleft hcase).2 hturn
  | @pullAsked _ time hasked htime hlt =>
    -- the tables would have been written since the last upload
    obtain ⟨huploaded, -, -, hleft⟩ := hinv.exported_of_exportTime htime
    have := (hleft (hturn huploaded)).1
    omega
  | edited nextConfig saved store => exact ⟨rfl, fun _ h => nomatch h⟩
  | uploaded hasked hle hbranch => exact ⟨hasked, fun _ _ hsynced => absurd hsynced hturn⟩
  | pulled store hasked hle hfile => exact ⟨hasked, fun _ h => nomatch h⟩

/-- **An operation in turn keeps the times in relation.** -/
theorem Inv.step (hprint : Function.Injective env.toStringPretty) (hinv : s.Inv env)
    (hturn : s.InTurn event) (hstep : step env s event = some s') : s'.Inv env := by
  obtain ⟨now, op⟩ := event
  have hfine := (hinv.fine hturn).1
  unfold OwnState.step at hstep
  split_ifs at hstep with hclock
  have houtcome := op.perform_outcome env now s.inst s.branch
  dsimp only at hstep hclock hfine
  generalize op.perform env now s.inst s.branch = outcome at houtcome hstep hfine
  have hsaved := hinv.savedAt
  cases houtcome with
  | failed hfailed =>
    dsimp only at hstep
    rw [note_of_failed hfailed] at hstep
    cases hstep
    refine ⟨by show s.inst.savedAt ≤ now; omega, hinv.fresh, fun huploaded => ?_⟩
    obtain ⟨time, config, hbranch, hle, hrest⟩ := hinv.exported huploaded
    exact ⟨time, config, hbranch, by show time ≤ now; omega, hrest⟩
  | uploadAsked hasked htime hlt => cases hasked.symm.trans hfine
  | pullAsked hasked htime hlt => cases hasked.symm.trans hfine
  | edited nextConfig saved store =>
    cases hstep
    refine ⟨le_refl now, hinv.fresh, fun huploaded => ?_⟩
    obtain ⟨time, config, hbranch, hle, -⟩ := hinv.exported huploaded
    exact ⟨time, config, hbranch, by show time ≤ now; omega,
      fun _ => by show time < now; omega, fun h => nomatch h⟩
  | @uploaded timeKnown result branch' hasked hle hbranch =>
    have hfile : branch' = some (some (rulesFile env now s.inst.store.config)) := by
      refine (hbranch.resolve_right ?_).2
      rintro ⟨-, -, old, hold, htext⟩
      -- the file on the branch is older, and so its text is another
      cases huploaded : s.uploaded with
      | false =>
        rw [hinv.fresh huploaded] at hold
        cases hold
      | true =>
        obtain ⟨time, config, hbranch', hle', -⟩ := hinv.exported huploaded
        rw [hbranch'] at hold
        obtain rfl : rulesFile env time config = old := Option.some.inj (Option.some.inj hold)
        exact text_rulesFile_ne hprint (by omega) _ _ htext
    dsimp only [note] at hstep
    rw [hasked, if_neg Bool.false_ne_true] at hstep
    cases hstep
    refine ⟨by show s.inst.savedAt ≤ now; omega, fun h => (nomatch h), fun _ => ?_⟩
    exact ⟨now, s.inst.store.config, hfile, le_refl now, fun h => (nomatch h),
      fun _ => ⟨by show s.inst.savedAt < now; omega, rfl⟩⟩
  | pulled store hasked hle hfile =>
    dsimp only [note] at hstep
    rw [hasked, if_neg Bool.false_ne_true] at hstep
    cases hstep
    refine ⟨le_refl now, hinv.fresh, fun huploaded => ?_⟩
    obtain ⟨time, config, hbranch, hle', -⟩ := hinv.exported huploaded
    exact ⟨time, config, hbranch, by show time ≤ now; omega,
      fun _ => by show time < now; omega, fun h => nomatch h⟩

/-- An operation at a later time that is not refused; a pull knows the time of the tables. -/
def Served (env : SyncEnv) (s : OwnState) (event : ℕ × SyncOp) : Prop :=
  s.clock < event.1 ∧ (event.2.perform env event.1 s.inst s.branch).1.failed = false ∧
    event.2 ≠ .pull false

theorem Inv.inTurn (hprint : Function.Injective env.toStringPretty) (hinv : s.Inv env)
    (hserved : s.Served env event) (hfine : s.Fine env event) : s.InTurn event := by
  obtain ⟨now, op⟩ := event
  obtain ⟨hclock, hanswered, hknown⟩ := hserved
  obtain ⟨hquiet, hunchanged⟩ := hfine
  have houtcome := op.perform_outcome env now s.inst s.branch
  dsimp only at hclock hanswered hknown hquiet hunchanged
  generalize op.perform env now s.inst s.branch = outcome at houtcome hanswered hquiet hunchanged
  cases houtcome with
  | failed hfailed => cases hfailed.symm.trans hanswered
  | uploadAsked hasked htime hlt => cases hasked.symm.trans hquiet
  | pullAsked hasked htime hlt => cases hasked.symm.trans hquiet
  | edited nextConfig saved store => trivial
  | @uploaded timeKnown result branch' hasked hle hbranch =>
    intro hsynced
    have hsame : branch' = s.branch := (hunchanged result rfl hsynced).2
    have huploaded : s.uploaded = true := by
      by_contra hnot
      rw [Bool.not_eq_true] at hnot
      have hnone := hinv.fresh hnot
      rcases hbranch with ⟨-, hnew⟩ | ⟨-, -, old, hold, -⟩
      · rw [hsame, hnone] at hnew
        cases hnew
      · rw [hnone] at hold
        cases hold
    -- the file on the branch would have the text of a later time
    obtain ⟨time, config, hfile, hle', -⟩ := hinv.exported huploaded
    have hold : ∃ old, s.branch = some (some old) ∧
        old.text = (rulesFile env now s.inst.store.config).text := by
      rcases hbranch with ⟨-, hnew⟩ | ⟨-, -, hold⟩
      · exact ⟨_, hsame.symm.trans hnew, rfl⟩
      · exact hold
    obtain ⟨old, hold, htext⟩ := hold
    rw [hfile] at hold
    obtain rfl : rulesFile env time config = old := Option.some.inj (Option.some.inj hold)
    exact text_rulesFile_ne hprint (by omega) _ _ htext
  | @pulled timeKnown result store file hasked hle hfile =>
    intro huploaded
    obtain ⟨time, config, hbranch, -, hwritten, -⟩ := hinv.exported huploaded
    by_contra hnot
    have hlt := hwritten (by simpa using hnot)
    have htrue : timeKnown = true := by
      by_contra hfalse
      rw [Bool.not_eq_true] at hfalse
      exact hknown (by rw [hfalse])
    have htime : exportTime env.toTimeTexts s.branch = some time := by
      rw [hbranch, exportTime_rulesFile]
    have := hle htrue time htime
    omega

end Steps

/-- **An installation whose operations are in turn never conflicts with itself.** -/
theorem fine_of_inTurn {env : SyncEnv} (hprint : Function.Injective env.toStringPretty)
    {clock : ℕ} {inst : Installation} (hclock : inst.savedAt ≤ clock)
    {events : List (ℕ × SyncOp)}
    (hturn : Machine.EachStep (step env) InTurn { clock := clock, inst := inst } events) :
    Machine.EachStep (step env) (Fine env) { clock := clock, inst := inst } events :=
  @Machine.EachStep.of_invariant _ _ (step env) InTurn (Fine env) (Inv env)
    (fun _ _ _ hinv hturn hstep => hinv.step hprint hturn hstep)
    (fun _ _ hinv hturn => hinv.fine hturn) _ _
    ⟨hclock, fun _ => rfl, fun h => nomatch h⟩ hturn

/-- **When every operation is served, the installation conflicts with itself unless all of them
are in turn.** -/
theorem inTurn_of_fine {env : SyncEnv} (hprint : Function.Injective env.toStringPretty)
    {clock : ℕ} {inst : Installation} (hclock : inst.savedAt ≤ clock)
    {events : List (ℕ × SyncOp)}
    (hfine : Machine.EachStep (step env) (fun s event => s.Served env event ∧ s.Fine env event)
      { clock := clock, inst := inst } events) :
    Machine.EachStep (step env) InTurn { clock := clock, inst := inst } events :=
  @Machine.EachStep.of_invariant _ _ (step env) _ InTurn (Inv env)
    (fun _ _ _ hinv h hstep => hinv.step hprint (hinv.inTurn hprint h.1 h.2) hstep)
    (fun _ _ hinv h => hinv.inTurn hprint h.1 h.2) _ _
    ⟨hclock, fun _ => rfl, fun h => nomatch h⟩ hfine

theorem inTurn_editUpload :
    Machine.EachStep (step SyncEnv.plain) InTurn { clock := 0, inst := Installation.plain }
      [(1, .edit (oneRouteConfig "p1").withRemote), (2, .upload true)] := by
  refine @inTurn_of_fine SyncEnv.plain Json.text_injective 0 _ (le_refl 0) _ ?_
  refine .cons rfl ⟨⟨by decide, rfl, fun h => nomatch h⟩, rfl, fun _ h => nomatch h⟩
    ⟨⟨⟨by decide, rfl, fun h => nomatch h⟩, rfl, fun _ _ h => nomatch h⟩, fun _ _ => trivial⟩

def editUploadPull : List (ℕ × SyncOp) :=
  [(1, .edit (oneRouteConfig "p1").withRemote), (2, .upload true), (3, .pull true)]

theorem fine_editUploadPull :
    Machine.EachStep (step SyncEnv.plain) (Fine SyncEnv.plain)
      { clock := 0, inst := Installation.plain } editUploadPull := by
  refine @fine_of_inTurn SyncEnv.plain Json.text_injective 0 _ (le_refl 0) _ ?_
  refine .cons rfl trivial (.cons rfl ?_ ⟨fun _ => rfl, fun _ _ => trivial⟩)
  exact fun h => nomatch h

/-- An edit, its upload, and another upload: the file on the branch is newer than the tables. -/
theorem not_fine_uploadTwice :
    ¬ Machine.EachStep (step SyncEnv.plain) (Fine SyncEnv.plain)
      { clock := 0, inst := Installation.plain }
      [(1, .edit (oneRouteConfig "p1").withRemote), (2, .upload true), (3, .upload true)] := by
  rintro ⟨-, hrest⟩
  obtain ⟨-, hrest⟩ := hrest _ rfl
  obtain ⟨⟨hasked, -⟩, -⟩ := hrest _ rfl
  cases hasked

end OwnState

end AiOpenRouter
