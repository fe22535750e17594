/-
The remote management password and its sessions (`RemoteAdminAuthStore`).

A login verifies the password and then issues a session for the revision that is
current by then; a rotation replaces the password and then clears the sessions.
Each acquisition of a lock is one step, and the steps of any number of calls
interleave.

* `AuthState.step` makes one step of one call;
* `lockedOut`: a session that is accepted was opened with the password that is
  configured, in a run in which no rotation comes between the two steps of a login
  or of a check, and no revision is taken a second time.
-/
import AiOpenRouter.ConfigNormalization
import AiOpenRouter.Machines
import Mathlib.Logic.Function.Basic

namespace AiOpenRouter

/-! ### The store -/

/-- `StoredRemoteAdminAuth` -/
structure StoredRemoteAdminAuth where
  passwordHash : String := ""
  updatedAt : Option String := none

/-- `AuthSession`, and the password that was presented at its login, which the program does not
keep. -/
structure AuthSession where
  expiresAt : ℤ
  passwordUpdatedAt : Option String
  presented : String

/-- What the store takes from outside: argon2, which hashes a password with a salt, and verifies a
password against the text of a hash. -/
structure AuthEnv where
  hashPassword : String → String → Except String String
  verify : String → String → Except String Bool

/-- `SESSION_TTL_HOURS`, in milliseconds. -/
def sessionTtl : ℤ := 12 * 60 * 60 * 1000

/-- `MIN_PASSWORD_LEN` -/
def minPasswordLen : ℕ := 8

namespace StoredRemoteAdminAuth

/-- `password_hash.trim().is_empty()` -/
def IsUnset (stored : StoredRemoteAdminAuth) : Prop := trimmed stored.passwordHash = ""

instance (stored : StoredRemoteAdminAuth) : Decidable stored.IsUnset :=
  inferInstanceAs (Decidable (trimmed stored.passwordHash = ""))

/-- What `set_password` stores. -/
def ofPassword (env : AuthEnv) (password salt updatedAt : String) :
    Except String StoredRemoteAdminAuth :=
  if (trimmed password).utf8ByteSize < minPasswordLen then
    .error ("remote admin password must be at least " ++ toString minPasswordLen ++ " characters")
  else
    match env.hashPassword (trimmed password) salt with
    | .error message => .error ("hash remote admin password failed: " ++ message)
    | .ok hash => .ok { passwordHash := hash, updatedAt := some updatedAt }

/-- `verify_password`, against what it reads. -/
def verifyPassword (env : AuthEnv) (stored : StoredRemoteAdminAuth) (password : String) :
    Except String Bool :=
  if stored.IsUnset then .ok false
  else
    match env.verify (trimmed password) (trimmed stored.passwordHash) with
    | .error message => .error ("parse remote admin password hash failed: " ++ message)
    | .ok valid => .ok valid

/-- The password is the one that is configured. -/
def Accepts (env : AuthEnv) (stored : StoredRemoteAdminAuth) (password : String) : Prop :=
  stored.verifyPassword env password = .ok true

/-- `issue_session`, with what it reads. -/
def issueSession (stored : StoredRemoteAdminAuth) (presented : String) (now : ℤ) :
    Except String AuthSession :=
  if stored.IsUnset then .error "remote admin password is not configured"
  else .ok { expiresAt := now + sessionTtl, passwordUpdatedAt := stored.updatedAt, presented }

/-- `verify_session`, with what it has read: the answer, and the sessions after it. -/
def verifySession (stored : StoredRemoteAdminAuth) (token : String) (now : ℤ)
    (sessions : HashMap AuthSession) : Bool × HashMap AuthSession :=
  match sessions.get token with
  | none => (false, sessions)
  | some session =>
    if session.expiresAt ≤ now ∨ session.passwordUpdatedAt ≠ stored.updatedAt ∨ stored.IsUnset then
      (false, sessions.remove token)
    else (true, sessions)

end StoredRemoteAdminAuth

/-! ### The machine -/

/-- How far a call has come: a login, a change of the password, or a check of a session. -/
inductive AuthCall where
  | idle
  | verified (password : String)
  | issuing (token : String) (session : AuthSession)
  | writing (next : StoredRemoteAdminAuth)
  | persisting (next : StoredRemoteAdminAuth)
  | revoking
  | checking (token : String) (snapshot : StoredRemoteAdminAuth)

/-- The file, what is persisted in memory, the sessions, and the calls. -/
structure AuthState where
  file : StoredRemoteAdminAuth
  persisted : StoredRemoteAdminAuth
  sessions : HashMap AuthSession := .empty
  calls : ℕ → AuthCall := fun _ => .idle

/-- One step of the call with a number. -/
inductive AuthAction where
  | verifyPassword (call : ℕ) (password : String)
  | readRevision (call : ℕ) (token : String) (now : ℤ)
  | insertSession (call : ℕ)
  | setPassword (call : ℕ) (password salt updatedAt : String)
  | clearPassword (call : ℕ)
  | writeFile (call : ℕ)
  | persist (call : ℕ)
  | revokeAll (call : ℕ)
  | readForCheck (call : ℕ) (token : String)
  | lookUp (call : ℕ) (now : ℤ)
  | revokeSession (token : String)

namespace AuthState

def setCall (s : AuthState) (call : ℕ) (phase : AuthCall) : AuthState :=
  { s with calls := Function.update s.calls call phase }

/-- The steps of `auth_login`, `set_password`, `clear_password`, `verify_session` and
`revoke_session`. -/
def step (env : AuthEnv) (s : AuthState) : AuthAction → Option AuthState
  | .verifyPassword call password =>
    match s.calls call with
    | .idle =>
      -- a wrong password is answered with 401
      match s.persisted.verifyPassword env password with
      | .ok true => some (s.setCall call (.verified password))
      | _ => some s
    | _ => none
  | .readRevision call token now =>
    match s.calls call with
    | .verified password =>
      match s.persisted.issueSession password now with
      | .ok session => some (s.setCall call (.issuing token session))
      | .error _ => some (s.setCall call .idle)
    | _ => none
  | .insertSession call =>
    match s.calls call with
    | .issuing token session =>
      some { s.setCall call .idle with sessions := s.sessions.insert token session }
    | _ => none
  | .setPassword call password salt updatedAt =>
    match s.calls call with
    | .idle =>
      match StoredRemoteAdminAuth.ofPassword env password salt updatedAt with
      | .ok next => some (s.setCall call (.writing next))
      | .error _ => some s
    | _ => none
  | .clearPassword call =>
    match s.calls call with
    | .idle => some (s.setCall call (.writing {}))
    | _ => none
  | .writeFile call =>
    match s.calls call with
    | .writing next => some { s.setCall call (.persisting next) with file := next }
    | _ => none
  | .persist call =>
    match s.calls call with
    | .persisting next => some { s.setCall call .revoking with persisted := next }
    | _ => none
  | .revokeAll call =>
    match s.calls call with
    | .revoking => some { s.setCall call .idle with sessions := .empty }
    | _ => none
  | .readForCheck call token =>
    match s.calls call with
    | .idle =>
      if trimmed token = "" then some s else some (s.setCall call (.checking token s.persisted))
    | _ => none
  | .lookUp call now =>
    match s.calls call with
    | .checking token snapshot =>
      some { s.setCall call .idle with
        sessions := (snapshot.verifySession token now s.sessions).2 }
    | _ => none
  | .revokeSession token => some { s with sessions := s.sessions.remove token }

/-- The next step of a call of `verify_session` accepts a token. -/
def AcceptsToken (s : AuthState) (call : ℕ) (now : ℤ) (token : String) : Prop :=
  ∃ snapshot, s.calls call = .checking token snapshot ∧
    (snapshot.verifySession token now s.sessions).1 = true

def HasSession (s : AuthState) (session : AuthSession) : Prop :=
  (∃ token, s.sessions.get token = some session) ∨
    ∃ call token, s.calls call = .issuing token session

/-- The steps of a run in which rotations come in time: when the revision of a login is read, its
password is still the configured one; no change of the password takes the revision of a session
with another password; and what a check has read is still persisted. -/
def InTime (env : AuthEnv) (s : AuthState) : AuthAction → Prop
  | .readRevision call _ _ =>
    ∀ password, s.calls call = .verified password → s.persisted.Accepts env password
  | .persist call => ∀ next, s.calls call = .persisting next → ∀ session, s.HasSession session →
      session.passwordUpdatedAt = next.updatedAt → ¬ next.IsUnset →
        next.Accepts env session.presented
  | .lookUp call _ =>
    ∀ token snapshot, s.calls call = .checking token snapshot → snapshot = s.persisted
  | _ => True

/-! ### Sessions of the current revision -/

def Inv (env : AuthEnv) (s : AuthState) : Prop :=
  ∀ session, s.HasSession session → session.passwordUpdatedAt = s.persisted.updatedAt →
    ¬ s.persisted.IsUnset → s.persisted.Accepts env session.presented

variable {env : AuthEnv} {s s' : AuthState}

variable {call : ℕ} {token : String} {now : ℤ} {sessions : HashMap AuthSession}
  {session : AuthSession}

theorem hasSession_of_setCall {phase : AuthCall} (h : (s.setCall call phase).HasSession session) :
    s.HasSession session ∨ ∃ token, phase = .issuing token session := by
  rcases h with htable | ⟨other, token, hcall⟩
  · exact .inl (.inl htable)
  · by_cases hother : other = call
    · subst hother
      have hself : (s.setCall other phase).calls other = phase := Function.update_self ..
      exact .inr ⟨token, hself.symm.trans hcall⟩
    · have hkeep : (s.setCall call phase).calls other = s.calls other :=
        Function.update_of_ne hother ..
      exact .inl (.inr ⟨other, token, hkeep.symm.trans hcall⟩)

/-- A step that brings no session keeps the invariant. -/
theorem Inv.of_subset (h : Inv env s) (hpersisted : s'.persisted = s.persisted)
    (hsessions : ∀ session, s'.HasSession session → s.HasSession session) : Inv env s' := by
  intro session hsession
  rw [hpersisted]
  exact h session (hsessions session hsession)

theorem Inv.setCall (h : Inv env s) (call : ℕ) {phase : AuthCall}
    (hphase : ∀ token session, phase ≠ .issuing token session) :
      Inv env (s.setCall call phase) := by
  refine h.of_subset rfl fun session hsession => ?_
  rcases hasSession_of_setCall hsession with hsession | ⟨token, hissuing⟩
  · exact hsession
  · exact absurd hissuing (hphase token session)

theorem Inv.restrict (h : Inv env s)
    (hsessions : ∀ token session, sessions.get token = some session →
      s.sessions.get token = some session) :
    Inv env { s with sessions := sessions } := by
  refine h.of_subset rfl fun session hsession => ?_
  rcases hsession with ⟨token, htable⟩ | hissuing
  · exact .inl ⟨token, hsessions token session htable⟩
  · exact .inr hissuing

theorem get_of_get_remove {token' : String}
    (h : (sessions.remove token).get token' = some session) :
    sessions.get token' = some session := by
  rw [HashMap.get_remove] at h
  split_ifs at h
  exact h

theorem get_of_get_verifySession {snapshot : StoredRemoteAdminAuth} {token' : String}
    (h : (snapshot.verifySession token now sessions).2.get token' = some session) :
    sessions.get token' = some session := by
  unfold StoredRemoteAdminAuth.verifySession at h
  cases hget : sessions.get token with
  | none =>
    rw [hget] at h
    exact h
  | some found =>
    rw [hget] at h
    dsimp only at h
    split_ifs at h
    · exact get_of_get_remove h
    · exact h

/-! ### One step -/

theorem inv_readRevision (h : Inv env s) (hintime : InTime env s (.readRevision call token now))
    (hstep : s.step env (.readRevision call token now) = some s') : Inv env s' := by
  simp only [step] at hstep
  split at hstep
  · next password hcall =>
    split at hstep
    · next session hissue =>
      cases hstep
      intro other hother hrevision hset
      rcases hasSession_of_setCall hother with hother | ⟨token', heq⟩
      · exact h other hother hrevision hset
      · -- the new session was opened with the password that was verified
        cases heq
        unfold StoredRemoteAdminAuth.issueSession at hissue
        split_ifs at hissue
        cases hissue
        exact hintime password hcall
    · cases hstep
      exact h.setCall call (fun _ _ hissuing => nomatch hissuing)
  · cases hstep

theorem inv_insertSession (h : Inv env s) (hstep : s.step env (.insertSession call) = some s') :
    Inv env s' := by
  simp only [step] at hstep
  split at hstep
  · next token session hcall =>
    cases hstep
    refine h.of_subset rfl fun other hother => ?_
    rcases hother with ⟨token', htable⟩ | hissuing
    · rw [HashMap.get_insert] at htable
      split_ifs at htable with htoken
      · cases htable
        exact .inr ⟨call, token, hcall⟩
      · exact .inl ⟨token', htable⟩
    · refine (hasSession_of_setCall (.inr hissuing)).resolve_right ?_
      rintro ⟨token', hidle⟩
      cases hidle
  · cases hstep

theorem inv_persist (hintime : InTime env s (.persist call))
    (hstep : s.step env (.persist call) = some s') : Inv env s' := by
  simp only [step] at hstep
  split at hstep
  · next next' hcall =>
    cases hstep
    intro session hsession
    refine hintime next' hcall session ((hasSession_of_setCall hsession).resolve_right ?_)
    rintro ⟨token, hrevoking⟩
    cases hrevoking
  · cases hstep

theorem inv_step (s : AuthState) (action : AuthAction) (s' : AuthState) (h : Inv env s)
    (hintime : InTime env s action) (hstep : s.step env action = some s') : Inv env s' := by
  cases action with
  -- calls that only go on, none of them issuing a session
  | verifyPassword call password =>
    simp only [step] at hstep
    split at hstep
    · split at hstep
      · cases hstep
        exact h.setCall call (fun _ _ hissuing => nomatch hissuing)
      · cases hstep
        exact h
    · cases hstep
  | readRevision call token now => exact inv_readRevision h hintime hstep
  | insertSession call => exact inv_insertSession h hstep
  | setPassword call password salt updatedAt =>
    simp only [step] at hstep
    split at hstep
    · split at hstep
      · cases hstep
        exact h.setCall call (fun _ _ hissuing => nomatch hissuing)
      · cases hstep
        exact h
    · cases hstep
  | clearPassword call =>
    simp only [step] at hstep
    split at hstep
    · cases hstep
      exact h.setCall call (fun _ _ hissuing => nomatch hissuing)
    · cases hstep
  | writeFile call =>
    simp only [step] at hstep
    split at hstep
    · next next' _ =>
      cases hstep
      have hpersisting : Inv env (s.setCall call (.persisting next')) :=
        h.setCall call (fun _ _ hissuing => nomatch hissuing)
      exact hpersisting.of_subset rfl fun _ => id
    · cases hstep
  | persist call => exact inv_persist hintime hstep
  -- calls that take sessions out of the table
  | revokeAll call =>
    simp only [step] at hstep
    split at hstep
    · cases hstep
      have hidle : Inv env (s.setCall call .idle) :=
        h.setCall call (fun _ _ hissuing => nomatch hissuing)
      exact hidle.restrict fun token session htable => nomatch htable
    · cases hstep
  | readForCheck call token =>
    simp only [step] at hstep
    split at hstep
    · split_ifs at hstep
      · cases hstep
        exact h
      · cases hstep
        exact h.setCall call (fun _ _ hissuing => nomatch hissuing)
    · cases hstep
  | lookUp call now =>
    simp only [step] at hstep
    split at hstep
    · cases hstep
      have hidle : Inv env (s.setCall call .idle) :=
        h.setCall call (fun _ _ hissuing => nomatch hissuing)
      exact hidle.restrict fun _ _ => get_of_get_verifySession
    · cases hstep
  | revokeSession token =>
    cases hstep
    exact h.restrict fun _ _ => get_of_get_remove

/-- The state behind `initialize`: what the file holds is persisted, and there is no session. -/
def init (stored : StoredRemoteAdminAuth) : AuthState := { file := stored, persisted := stored }

theorem inv_init (stored : StoredRemoteAdminAuth) : Inv env (init stored) := by
  rintro session (⟨token, htable⟩ | ⟨call, token, hissuing⟩)
  · cases htable
  · cases hissuing

theorem session_of_accepted {stored : StoredRemoteAdminAuth}
    (h : (stored.verifySession token now sessions).1 = true) :
    ∃ session, sessions.get token = some session ∧
      session.passwordUpdatedAt = stored.updatedAt ∧ ¬ stored.IsUnset := by
  unfold StoredRemoteAdminAuth.verifySession at h
  cases hget : sessions.get token with
  | none =>
    rw [hget] at h
    cases h
  | some session =>
    rw [hget] at h
    dsimp only at h
    split_ifs at h with hstale
    rw [not_or, not_or, not_not] at hstale
    exact ⟨session, rfl, hstale.2⟩

/-- **An accepted session was opened with the configured password**, in a run whose rotations come
in time. -/
theorem lockedOut {stored : StoredRemoteAdminAuth} {actions : List AuthAction} {call : ℕ} {now : ℤ}
    {token : String} (hrun : Machine.run (step env) (init stored) actions = some s)
    (hintime : Machine.EachStep (step env) (InTime env) (init stored) actions)
    (hlast : InTime env s (.lookUp call now)) (haccepts : s.AcceptsToken call now token) :
    ∃ session, s.sessions.get token = some session ∧
      s.persisted.Accepts env session.presented := by
  have hinv : Inv env s := Machine.run_invariant inv_step (inv_init stored) hintime hrun
  obtain ⟨snapshot, hcall, htrue⟩ := haccepts
  obtain rfl := hlast token snapshot hcall
  obtain ⟨session, hget, hrevision, hset⟩ := session_of_accepted htrue
  exact ⟨session, hget, hinv session (.inl ⟨token, hget⟩) hrevision hset⟩

/-! ### A rotation that a login does not see -/

/-- A hash that shows its password. -/
def plainEnv : AuthEnv where
  hashPassword password _ := .ok ("$" ++ password)
  verify password hash := .ok (hash == "$" ++ password)

/-- The store behind a first `set_password`. -/
def firstPassword : AuthState := init { passwordHash := "$password-one", updatedAt := some "t1" }

/-- A login, a rotation, a login with the new password, and the first step of its check. -/
def loginThenRotation : List AuthAction :=
  [.verifyPassword 0 "password-one", .readRevision 0 "token-one" 0, .insertSession 0,
    .setPassword 1 "password-two" "salt" "t2", .writeFile 1, .persist 1, .revokeAll 1,
    .verifyPassword 2 "password-two", .readRevision 2 "token-two" 0, .insertSession 2,
    .readForCheck 2 "token-two"]

theorem lockedOut_loginThenRotation :
    ∃ s, Machine.run (step plainEnv) firstPassword loginThenRotation = some s ∧
      ∃ session, s.sessions.get "token-two" = some session ∧
        s.persisted.Accepts plainEnv session.presented := by
  have hintime :
      Machine.EachStep (step plainEnv) (InTime plainEnv) firstPassword loginThenRotation := by
    refine .cons rfl trivial (.cons rfl ?_ (.cons rfl trivial (.cons rfl trivial (.cons rfl trivial
      (.cons rfl ?_ (.cons rfl trivial (.cons rfl trivial (.cons rfl ?_ (.cons rfl trivial
        (.cons rfl trivial trivial))))))))))
    · intro password hcall
      cases hcall
      rw [StoredRemoteAdminAuth.Accepts]
      decide
    · -- the only session is of the first revision
      intro next hcall session hsession hrevision
      cases hcall
      rcases hsession with ⟨token, htable⟩ | ⟨call, token, hissuing⟩
      · have hentry := HashMap.get_eq_some_iff.1 htable
        cases List.mem_singleton.1 hentry
        exact absurd hrevision (by decide)
      · rcases call with _ | _ | call <;> cases hissuing
    · intro password hcall
      cases hcall
      rw [StoredRemoteAdminAuth.Accepts]
      decide
  refine ⟨_, rfl, @lockedOut plainEnv _ _ loginThenRotation 2 1 "token-two" rfl hintime ?_
    ⟨_, rfl, ?_⟩⟩
  · intro token snapshot hcall
    cases hcall
    rfl
  · decide

/-- A login that a rotation overtakes. -/
def overtakenLogin : List AuthAction :=
  [.verifyPassword 0 "password-one", .setPassword 1 "password-two" "salt" "t2", .writeFile 1,
    .persist 1, .revokeAll 1, .readRevision 0 "token" 0, .insertSession 0, .readForCheck 0 "token"]

/-- The session is accepted, and its password is not the one that is configured. -/
theorem not_lockedOut_overtakenLogin :
    ∃ s, Machine.run (step plainEnv) firstPassword overtakenLogin = some s ∧
      s.AcceptsToken 0 1 "token" ∧ (s.sessions.get "token").map AuthSession.presented =
        some "password-one" ∧ s.persisted.Accepts plainEnv "password-two" ∧
          ¬ s.persisted.Accepts plainEnv "password-one" := by
  refine ⟨_, rfl, ⟨_, rfl, ?_⟩, rfl, ?_, ?_⟩
  · decide
  · rw [StoredRemoteAdminAuth.Accepts]
    decide
  · rw [StoredRemoteAdminAuth.Accepts]
    decide

end AuthState

end AiOpenRouter
