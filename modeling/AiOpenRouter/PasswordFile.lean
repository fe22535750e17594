/-
The remote admin password in the file and in memory (`auth.rs`).

`write_persisted` writes the file before it takes the lock, so two changes of the password can write
the file in one order and the memory in the other.

* `followed_persist_iff`: when a replacement of the memory leaves it behind the file for good;
* `restartKeepsPassword_of_run`: without such a replacement, the file has the password of the memory
  whenever no call is between the two.
-/
import AiOpenRouter.RemoteSessions

namespace AiOpenRouter

/-- The call is between the file and the memory. -/
def AuthCall.isPersisting : AuthCall → Bool
  | .persisting _ => true
  | _ => false

theorem StoredRemoteAdminAuth.accepts_congr {env : AuthEnv} {stored other : StoredRemoteAdminAuth}
    (h : stored.passwordHash = other.passwordHash) (password : String) :
    stored.Accepts env password ↔ other.Accepts env password := by
  obtain ⟨hash, _⟩ := stored
  obtain ⟨_, _⟩ := other
  cases h
  exact Iff.rfl

namespace AuthState

def IsFollower (s : AuthState) (call : ℕ) : Prop :=
  ∃ next, s.calls call = .persisting next ∧ next.passwordHash = s.file.passwordHash

def Followed (s : AuthState) : Prop :=
  s.file.passwordHash = s.persisted.passwordHash ∨ ∃ call, s.IsFollower call

/-- The steps of a run in which no replacement of the memory comes too late: up to it, some call has
the password of the file still to put there. -/
def InWriteOrder (s : AuthState) : AuthAction → Prop
  | .persist _ => ∃ call, s.IsFollower call
  | _ => True

variable {env : AuthEnv} {s s' : AuthState}

/-! ### One step -/

variable {call : ℕ}

theorem isFollower_setCall {before phase : AuthCall} (hcall : s.calls call = before)
    (hbefore : before.isPersisting = false) (hphase : phase.isPersisting = false) (other : ℕ) :
    (s.setCall call phase).IsFollower other ↔ s.IsFollower other := by
  by_cases hother : other = call
  · subst hother
    have hself : (s.setCall other phase).calls other = phase := Function.update_self ..
    refine iff_of_false ?_ ?_
    · rintro ⟨next, hpersisting, -⟩
      rw [← hself, hpersisting] at hphase
      cases hphase
    · rintro ⟨next, hpersisting, -⟩
      rw [← hcall, hpersisting] at hbefore
      cases hbefore
  · have hkeep : (s.setCall call phase).calls other = s.calls other :=
      Function.update_of_ne hother ..
    rw [IsFollower, hkeep]
    exact Iff.rfl

theorem Followed.setCall (h : s.Followed) {before phase : AuthCall} (hcall : s.calls call = before)
    (hbefore : before.isPersisting = false) (hphase : phase.isPersisting = false) :
    (s.setCall call phase).Followed := by
  rcases h with hsame | ⟨other, hother⟩
  · exact .inl hsame
  · exact .inr ⟨other, (isFollower_setCall hcall hbefore hphase other).2 hother⟩

theorem Followed.withSessions (h : s.Followed) (sessions : HashMap AuthSession) :
    Followed { s with sessions := sessions } := h

/-- **A replacement of the memory** keeps up with the file exactly when some call has the password
of the file still to put there. -/
theorem followed_persist_iff (hstep : s.step env (.persist call) = some s') :
    s'.Followed ↔ ∃ other, s.IsFollower other := by
  simp only [step] at hstep
  split at hstep
  · next next hcall =>
    cases hstep
    constructor
    · rintro (hsame | ⟨other, waiting, hother, hhash⟩)
      · exact ⟨call, next, hcall, hsame.symm⟩
      · have hne : other ≠ call := by
          rintro rfl
          have hself : (s.setCall other .revoking).calls other = .revoking :=
            Function.update_self ..
          cases hself.symm.trans hother
        have hkeep : (s.setCall call .revoking).calls other = s.calls other :=
          Function.update_of_ne hne ..
        exact ⟨other, waiting, hkeep.symm.trans hother, hhash⟩
    · rintro ⟨other, waiting, hother, hhash⟩
      by_cases hne : other = call
      · subst hne
        cases hcall.symm.trans hother
        exact .inl hhash.symm
      · have hkeep : (s.setCall call .revoking).calls other = s.calls other :=
          Function.update_of_ne hne ..
        exact .inr ⟨other, waiting, hkeep.trans hother, hhash⟩
  · cases hstep

theorem followed_writeFile (hstep : s.step env (.writeFile call) = some s') : s'.Followed := by
  simp only [step] at hstep
  split at hstep
  · next next _ =>
    cases hstep
    exact .inr ⟨call, next, Function.update_self .., rfl⟩
  · cases hstep

theorem followed_step (s : AuthState) (action : AuthAction) (s' : AuthState) (h : s.Followed)
    (horder : s.InWriteOrder action) (hstep : s.step env action = some s') : s'.Followed := by
  cases action with
  -- steps of a call that neither write nor change the record
  | verifyPassword call password =>
    simp only [step] at hstep
    split at hstep
    · next hcall =>
      split at hstep
      · cases hstep
        exact h.setCall hcall rfl rfl
      · cases hstep
        exact h
    · cases hstep
  | readRevision call token now =>
    simp only [step] at hstep
    split at hstep
    · next password hcall =>
      split at hstep
      · cases hstep
        exact h.setCall hcall rfl rfl
      · cases hstep
        exact h.setCall hcall rfl rfl
    · cases hstep
  | insertSession call =>
    simp only [step] at hstep
    split at hstep
    · next token session hcall =>
      cases hstep
      have hidle : (s.setCall call .idle).Followed :=
        h.setCall hcall rfl rfl
      exact hidle.withSessions _
    · cases hstep
  -- the record changes, and the call that changed it goes on to write it
  | setPassword call password salt updatedAt =>
    simp only [step] at hstep
    split at hstep
    · next hcall =>
      split at hstep
      · cases hstep
        exact h.setCall hcall rfl rfl
      · cases hstep
        exact h
    · cases hstep
  | clearPassword call =>
    simp only [step] at hstep
    split at hstep
    · next hcall =>
      cases hstep
      exact h.setCall hcall rfl rfl
    · cases hstep
  -- only a write and the end of a call meet the file
  | writeFile call => exact followed_writeFile hstep
  | persist call => exact (followed_persist_iff hstep).2 horder
  | revokeAll call =>
    simp only [step] at hstep
    split at hstep
    · next hcall =>
      cases hstep
      have hidle : (s.setCall call .idle).Followed :=
        h.setCall hcall rfl rfl
      exact hidle.withSessions _
    · cases hstep
  | readForCheck call token =>
    simp only [step] at hstep
    split at hstep
    · next hcall =>
      split_ifs at hstep
      · cases hstep
        exact h
      · cases hstep
        exact h.setCall hcall rfl rfl
    · cases hstep
  | lookUp call now =>
    simp only [step] at hstep
    split at hstep
    · next token snapshot hcall =>
      cases hstep
      have hidle : (s.setCall call .idle).Followed :=
        h.setCall hcall rfl rfl
      exact hidle.withSessions _
    · cases hstep
  | revokeSession token =>
    cases hstep
    exact h.withSessions _

/-! ### Runs -/

/-- **The password in the file** is the one in memory whenever no call is between the two, in every
run without a replacement that comes too late; a restart then brings back the password that is
accepted now. -/
theorem restartKeepsPassword_of_run {stored : StoredRemoteAdminAuth} {actions : List AuthAction}
    (horder : Machine.EachStep (step env) InWriteOrder (init stored) actions)
    (hrun : Machine.run (step env) (init stored) actions = some s)
    (hdone : ∀ call, (s.calls call).isPersisting = false) :
    s.file.passwordHash = s.persisted.passwordHash ∧
      ∀ password, (init s.file).persisted.Accepts env password ↔
        s.persisted.Accepts env password := by
  have hfollowed : s.Followed := Machine.run_invariant followed_step (.inl rfl) horder hrun
  have hsame : s.file.passwordHash = s.persisted.passwordHash := by
    refine hfollowed.resolve_right ?_
    rintro ⟨call, next, hcall, -⟩
    have hnot := hdone call
    rw [hcall] at hnot
    cases hnot
  exact ⟨hsame, StoredRemoteAdminAuth.accepts_congr hsame⟩

/-- Two calls that overlap: the second writes the file first, and replaces the memory first. -/
def overlappingChanges : List AuthAction :=
  [.setPassword 0 "password-two" "salt" "t2", .clearPassword 1, .writeFile 1, .writeFile 0,
    .persist 1, .persist 0, .revokeAll 1, .revokeAll 0]

theorem restartKeepsPassword_overlapping :
    ∃ s, Machine.run (step plainEnv) firstPassword overlappingChanges = some s ∧
      s.file.passwordHash = s.persisted.passwordHash := by
  have hfirst : ∀ s : AuthState, s.calls 0 = .persisting s.file → s.IsFollower 0 :=
    fun s hcall => ⟨s.file, hcall, rfl⟩
  have horder : Machine.EachStep (step plainEnv) InWriteOrder firstPassword overlappingChanges :=
    .cons rfl trivial <| .cons rfl trivial <| .cons rfl trivial <| .cons rfl trivial <|
      .cons rfl ⟨0, hfirst _ rfl⟩ <| .cons rfl ⟨0, hfirst _ rfl⟩ <| .cons rfl trivial <|
        .cons rfl trivial trivial
  refine ⟨_, rfl, (@restartKeepsPassword_of_run plainEnv _ _ overlappingChanges horder rfl ?_).1⟩
  intro call
  cases call with
  | zero => rfl
  | succ call =>
    cases call with
    | zero => rfl
    | succ call => rfl

/-- Two calls that replace the memory in the other order. -/
def crossedChanges : List AuthAction :=
  [.setPassword 0 "password-two" "salt" "t2", .clearPassword 1, .writeFile 0, .writeFile 1,
    .persist 1, .persist 0, .revokeAll 1, .revokeAll 0]

/-- The cleared password is in memory again, and not in the file. -/
theorem crossedChanges_apart :
    ∃ s, Machine.run (step plainEnv) firstPassword crossedChanges = some s ∧
      (∀ call, (s.calls call).isPersisting = false) ∧ s.file.passwordHash = "" ∧
        s.persisted.passwordHash = "$password-two" := by
  refine ⟨_, rfl, ?_, rfl, rfl⟩
  intro call
  cases call with
  | zero => rfl
  | succ call =>
    cases call with
    | zero => rfl
    | succ call => rfl

end AuthState

end AiOpenRouter
