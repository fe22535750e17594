/-
Installations that sync their rules over one branch.

Nobody keeps track of what an installation has seen: a call without force compares two
times only.  So edits are lost silently, under rules that are newer.

* `SharedState.step` makes an operation of one of the installations, and records which
  edits the rules contain;
* `NoSilentLoss` says that only who had an edit overwrites it;
* `newerWins`: on the branch an edit is lost to rules that were saved after it, and at its maker to
  a file that was exported no earlier.
-/
import AiOpenRouter.Machines
import AiOpenRouter.RemoteRules

namespace AiOpenRouter

/-- An edit: by which installation, and when. -/
structure RulesEdit (ι : Type) where
  maker : ι
  time : ℕ
  deriving DecidableEq

/-- An operation of an installation. -/
structure SharedEvent (ι : Type) where
  who : ι
  time : ℕ
  op : SyncOp

/-- The installations and the branch, beside the edits that the rules contain: those of each
installation, now and ever, and those of the file on the branch. -/
structure SharedState (ι : Type) where
  clock : ℕ
  insts : ι → Installation
  branch : RemoteBranch
  held : ι → List (RulesEdit ι) := fun _ => []
  seen : ι → List (RulesEdit ι) := fun _ => []
  onBranch : List (RulesEdit ι) := []

namespace SharedState

variable {ι : Type} [DecidableEq ι]

/-- The rules of an installation contain these edits from now on. -/
def hold (s : SharedState ι) (who : ι) (edits : List (RulesEdit ι)) : SharedState ι :=
  { s with
    held := Function.update s.held who edits
    seen := Function.update s.seen who (s.seen who ++ edits) }

/-- Records what was answered: an edit is made on top of the others, an upload puts the edits on
the branch, and a pull takes them from there. -/
def note (s : SharedState ι) (who : ι) (time : ℕ) : SyncAnswer → SharedState ι
  | .edited (.ok _) => s.hold who (s.held who ++ [⟨who, time⟩])
  | .uploaded (.ok result) =>
    if result.needsConfirmation then s
    else if result.changed then { s with onBranch := s.held who } else s
  | .pulled (.ok result) => if result.needsConfirmation then s else s.hold who s.onBranch
  | _ => s

/-- An operation at a later time. -/
def step (env : SyncEnv) (s : SharedState ι) (event : SharedEvent ι) : Option (SharedState ι) :=
  if event.time ≤ s.clock then none
  else
    let (answer, inst, branch) := event.op.perform env event.time (s.insts event.who) s.branch
    some ({ s with
      clock := event.time
      insts := Function.update s.insts event.who inst
      branch := branch }.note event.who event.time answer)

/-- An edit is no longer in the file on the branch, or no longer in the rules of its maker. -/
def Loses (s s' : SharedState ι) (edit : RulesEdit ι) : Prop :=
  (edit ∈ s.onBranch ∧ edit ∉ s'.onBranch) ∨
    (edit ∈ s.held edit.maker ∧ edit ∉ s'.held edit.maker)

/-- An edit is lost through an edit or an upload of an installation that had it only. -/
def NoSilentLoss (env : SyncEnv) (s : SharedState ι) (event : SharedEvent ι) : Prop :=
  ∀ s', step env s event = some s' → ∀ edit, Loses s s' edit →
    (∀ timeKnown, event.op ≠ .pull timeKnown) ∧ edit ∈ s.seen event.who

/-- The branch loses an edit through an upload of rules that were saved after it, and its maker
through a pull of its own, of a file that was exported no earlier, as far as the times are known. -/
structure NewerWins (env : SyncEnv) (s : SharedState ι) (event : SharedEvent ι) : Prop where
  onBranch : ∀ s', step env s event = some s' → ∀ edit ∈ s.onBranch, edit ∉ s'.onBranch →
    ∃ timeKnown, event.op = .upload timeKnown ∧
      (timeKnown = true → edit.time < (s.insts event.who).savedAt)
  atMaker : ∀ s', step env s event = some s' → ∀ edit, edit ∈ s.held edit.maker →
    edit ∉ s'.held edit.maker → edit.maker = event.who ∧
      ∃ timeKnown, event.op = .pull timeKnown ∧
        (timeKnown = true → ∀ time, exportTime env.toTimeTexts s.branch = some time →
          edit.time ≤ time)

/-- The edits are older than the rules that contain them. -/
structure Inv (env : SyncEnv) (s : SharedState ι) : Prop where
  held : ∀ i, ∀ edit ∈ s.held i, edit.time ≤ s.clock ∧ edit.time ≤ (s.insts i).savedAt
  onBranch : ∀ edit ∈ s.onBranch, edit.time ≤ s.clock ∧
    ∃ time, exportTime env.toTimeTexts s.branch = some time ∧ edit.time < time

section Steps

variable {env : SyncEnv} {s s' : SharedState ι} {event : SharedEvent ι}

theorem note_of_failed {who : ι} {time : ℕ} {answer : SyncAnswer} (h : answer.failed = true) :
    s.note who time answer = s := by
  rcases answer with ⟨_ | _⟩ | ⟨_ | _⟩ | ⟨_ | _⟩
  all_goals first | rfl | cases h

/-- **What a step does to the rules and to the edits.** -/
inductive Moves (env : SyncEnv) (s : SharedState ι) (event : SharedEvent ι) :
    SharedState ι → Prop where
  | stays : Moves env s event { s with clock := event.time }
  | edits (store : ConfigStore) {nextConfig : ProxyConfig} (hop : event.op = .edit nextConfig) :
    Moves env s event ({ s with
      clock := event.time
      insts := Function.update s.insts event.who ⟨store, event.time⟩ }.hold event.who
        (s.held event.who ++ [RulesEdit.mk event.who event.time]))
  | uploads {timeKnown : Bool} (hop : event.op = .upload timeKnown)
    (hle : timeKnown = true → ∀ time, exportTime env.toTimeTexts s.branch = some time →
      time ≤ (s.insts event.who).savedAt) :
    Moves env s event { s with
      clock := event.time
      branch := some (some (rulesFile env event.time (s.insts event.who).store.config))
      onBranch := s.held event.who }
  | pulls (store : ConfigStore) {timeKnown : Bool} (hop : event.op = .pull timeKnown)
    (hle : timeKnown = true → ∀ time, exportTime env.toTimeTexts s.branch = some time →
      (s.insts event.who).savedAt ≤ time) :
    Moves env s event ({ s with
      clock := event.time
      insts := Function.update s.insts event.who ⟨store, event.time⟩ }.hold event.who
        s.onBranch)

theorem moves_of_step (hstep : step env s event = some s') :
    s.clock < event.time ∧ Moves env s event s' := by
  obtain ⟨who, time, op⟩ := event
  unfold step at hstep
  split_ifs at hstep with hclock
  refine ⟨not_le.1 hclock, ?_⟩
  have houtcome := op.perform_outcome env time (s.insts who) s.branch
  dsimp only at hstep
  generalize op.perform env time (s.insts who) s.branch = outcome at houtcome hstep
  cases houtcome with
  | failed hfailed =>
    dsimp only at hstep
    rw [note_of_failed hfailed, Function.update_eq_self] at hstep
    cases hstep
    exact .stays
  | uploadAsked hasked htime hlt =>
    dsimp only [note] at hstep
    rw [if_pos hasked, Function.update_eq_self] at hstep
    cases hstep
    exact .stays
  | pullAsked hasked htime hlt =>
    dsimp only [note] at hstep
    rw [if_pos hasked, Function.update_eq_self] at hstep
    cases hstep
    exact .stays
  | edited nextConfig saved store =>
    cases hstep
    exact .edits store rfl
  | @uploaded timeKnown result branch' hasked hle hbranch =>
    dsimp only [note] at hstep
    rw [if_neg (Bool.eq_false_iff.1 hasked), Function.update_eq_self] at hstep
    rcases hbranch with ⟨hchanged, rfl⟩ | ⟨hchanged, rfl, -⟩
    · rw [if_pos hchanged] at hstep
      cases hstep
      exact .uploads rfl hle
    · rw [if_neg (Bool.eq_false_iff.1 hchanged)] at hstep
      cases hstep
      exact .stays
  | pulled store hasked hle hfile =>
    dsimp only [note] at hstep
    rw [if_neg (Bool.eq_false_iff.1 hasked)] at hstep
    cases hstep
    exact .pulls store rfl hle

omit [DecidableEq ι] in
theorem Inv.later (hinv : s.Inv env) {time : ℕ} (hle : s.clock ≤ time) :
    Inv env { s with clock := time } := by
  refine ⟨fun i edit hedit => ?_, fun edit hedit => ?_⟩
  · obtain ⟨hold, hsaved⟩ := hinv.held i edit hedit
    exact ⟨hold.trans hle, hsaved⟩
  · obtain ⟨hold, hexported⟩ := hinv.onBranch edit hedit
    exact ⟨hold.trans hle, hexported⟩

theorem Inv.hold (hinv : s.Inv env) (who : ι) (store : ConfigStore) {edits : List (RulesEdit ι)}
    (hedits : ∀ edit ∈ edits, edit.time ≤ s.clock) :
    Inv env ({ s with insts := Function.update s.insts who ⟨store, s.clock⟩ }.hold who edits) := by
  refine ⟨fun i edit hedit => ?_, hinv.onBranch⟩
  by_cases hi : i = who
  · subst hi
    simp only [SharedState.hold, Function.update_self] at hedit ⊢
    exact ⟨hedits edit hedit, hedits edit hedit⟩
  · simp only [SharedState.hold, Function.update_of_ne hi] at hedit ⊢
    exact hinv.held i edit hedit

theorem Inv.step (hinv : s.Inv env) (hstep : step env s event = some s') : s'.Inv env := by
  obtain ⟨hclock, hmoves⟩ := moves_of_step hstep
  have hlater := hinv.later hclock.le
  cases hmoves with
  | stays => exact hlater
  | edits store hop =>
    refine hlater.hold event.who store fun edit hedit => ?_
    rcases List.mem_append.1 hedit with hheld | hnew
    · exact (hlater.held event.who edit hheld).1
    · rw [List.mem_singleton.1 hnew]
  | uploads hop hle =>
    refine ⟨hlater.held, fun edit hedit => ?_⟩
    -- the file is stamped with this time
    have hlt := (hinv.held event.who edit hedit).1.trans_lt hclock
    exact ⟨hlt.le, event.time, exportTime_rulesFile _, hlt⟩
  | pulls store hop hle =>
    exact hlater.hold event.who store fun edit hedit => (hlater.onBranch edit hedit).1

/-- **On the branch an edit is lost to rules that were saved later.** -/
theorem lost_onBranch (hinv : s.Inv env) (hstep : step env s event = some s')
    {edit : RulesEdit ι} (hold : edit ∈ s.onBranch) (hnew : edit ∉ s'.onBranch) :
    ∃ timeKnown, event.op = .upload timeKnown ∧
      (timeKnown = true → edit.time < (s.insts event.who).savedAt) := by
  obtain ⟨-, hmoves⟩ := moves_of_step hstep
  cases hmoves with
  | stays => exact absurd hold hnew
  | edits store hop => exact absurd hold hnew
  | pulls store hop hle => exact absurd hold hnew
  | @uploads timeKnown hop hle =>
    refine ⟨timeKnown, hop, fun hknown => ?_⟩
    -- the guard has compared with the export of the file that holds the edit
    obtain ⟨-, time, htime, hlt⟩ := hinv.onBranch edit hold
    exact hlt.trans_le (hle hknown time htime)

/-- **An installation loses an edit of its own to a file that was exported no earlier.** -/
theorem lost_atMaker (hinv : s.Inv env) (hstep : step env s event = some s')
    {edit : RulesEdit ι} (hold : edit ∈ s.held edit.maker) (hnew : edit ∉ s'.held edit.maker) :
    edit.maker = event.who ∧ ∃ timeKnown, event.op = .pull timeKnown ∧
      (timeKnown = true → ∀ time, exportTime env.toTimeTexts s.branch = some time →
        edit.time ≤ time) := by
  obtain ⟨-, hmoves⟩ := moves_of_step hstep
  -- the rules of the other installations stay
  have hmaker : ∀ {store edits},
      edit ∉ (({ s with
        clock := event.time
        insts := Function.update s.insts event.who ⟨store, event.time⟩ } :
          SharedState ι).hold event.who edits).held edit.maker →
      edit.maker = event.who ∧ edit ∉ edits := by
    intro store edits hlost
    by_cases hwho : edit.maker = event.who
    · simp only [SharedState.hold, hwho, Function.update_self] at hlost
      exact ⟨hwho, hlost⟩
    · simp only [SharedState.hold, Function.update_of_ne hwho] at hlost
      exact absurd hold hlost
  cases hmoves with
  | stays => exact absurd hold hnew
  | uploads hop hle => exact absurd hold hnew
  | edits store hop =>
    -- an edit is made on top of the others
    obtain ⟨hwho, hlost⟩ := hmaker hnew
    exact absurd (List.mem_append_left _ (hwho ▸ hold)) hlost
  | @pulls store timeKnown hop hle =>
    obtain ⟨hwho, -⟩ := hmaker hnew
    refine ⟨hwho, timeKnown, hop, fun hknown time htime => ?_⟩
    obtain ⟨-, hsaved⟩ := hinv.held edit.maker edit hold
    rw [hwho] at hsaved
    exact hsaved.trans (hle hknown time htime)

end Steps

/-- **An edit that an operation without force loses is overwritten by newer rules, as far as the
times are known.** -/
theorem newerWins (env : SyncEnv) (clock : ℕ) (insts : ι → Installation) (branch : RemoteBranch)
    (events : List (SharedEvent ι)) :
    Machine.EachStep (step env) (NewerWins env)
      { clock := clock, insts := insts, branch := branch } events :=
  @Machine.EachStep.of_invariant _ _ (step env) _ (NewerWins env) (Inv env)
    (fun _ _ _ hinv _ hstep => hinv.step hstep)
    (fun _ _ hinv _ => ⟨fun _ hstep _ => lost_onBranch hinv hstep,
      fun _ hstep _ => lost_atMaker hinv hstep⟩) _ _
    ⟨fun _ _ h => (nomatch h), fun _ h => nomatch h⟩ Machine.EachStep.trivial

/-- An edit of the one installation, an upload of the other, and a pull: the pulled rules are newer,
and the edit is gone. -/
theorem not_noSilentLoss_pull :
    ¬ ∀ (env : SyncEnv) (insts : Bool → Installation) (events : List (SharedEvent Bool)),
      Machine.EachStep (step env) (NoSilentLoss env)
        { clock := 0, insts := insts, branch := none } events := by
  intro hall
  obtain ⟨-, hrest⟩ := hall SyncEnv.plain (fun _ => Installation.plain)
    [⟨false, 1, .edit (oneRouteConfig "p1").withRemote⟩, ⟨true, 2, .upload true⟩,
      ⟨false, 3, .pull true⟩]
  obtain ⟨-, hrest⟩ := hrest _ rfl
  obtain ⟨hloss, -⟩ := hrest _ rfl
  obtain ⟨hpull, -⟩ := hloss _ rfl ⟨false, 1⟩ (.inr ⟨by decide, by decide⟩)
  exact hpull true rfl

end SharedState

end AiOpenRouter
