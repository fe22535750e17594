/-
The server behind the configuration (`sync_runtime_config`, `ProxyRuntime::start` and
`stop`).

A call saves a configuration, and restarts the server when it runs and the
settings of the server differ from those that the call read before its save.  The
steps of any number of calls interleave.

* `SyncState.step` makes one step of one call, and every bind succeeds;
* `Follows`: the server listens where the configuration in memory says, or a call
  is about to bring it there;
* `follows_iff`: what has to hold before a step for this to stay so;
* `listens_of_run`: in a run of such steps the server listens there in the end.
-/
import AiOpenRouter.ConfigSaves
import AiOpenRouter.Machines
import Mathlib.Logic.Function.Basic

namespace AiOpenRouter

/-! ### The server -/

/-- `net::normalized_host` -/
def normalizedHost (host : String) : String :=
  String.ofList (Text.trimEndMatches (· = ']') ((Text.trim host.toList).dropWhile (· = '[')))

/-- `net::bind_candidates`, which are distinct. -/
def bindCandidates (host : String) : List String :=
  let host := normalizedHost host
  if host = "0.0.0.0" then ["0.0.0.0", "::"]
  else if host = "::" then ["::", "0.0.0.0"]
  else if host = "localhost" then ["127.0.0.1", "::1"]
  else [host]

/-- `net::public_host_for_status` -/
def publicHostForStatus (boundHost : String) : String :=
  if boundHost = "0.0.0.0" then "127.0.0.1"
  else if boundHost = "::" then "[::1]"
  else if ':' ∈ boundHost.toList then "[" ++ boundHost ++ "]"
  else boundHost

/-- `RunningServer`: what the listener is bound to, and the address that is shown. -/
structure RunningServer where
  boundHost : String
  port : UInt16
  address : String
  deriving DecidableEq

/-- The server that `start` registers for a configuration, once the first candidate is bound. -/
def RunningServer.ofConfig (config : ProxyConfig) : RunningServer :=
  let boundHost := (bindCandidates config.server.host).headD ""
  { boundHost := boundHost
    port := config.server.port
    address := "http://" ++ publicHostForStatus boundHost ++ ":" ++ toString config.server.port }

/-- `has_server_setting_changed` -/
def hasServerSettingChanged (prev next : ProxyConfig) : Bool :=
  prev.server.host ≠ next.server.host || prev.server.port ≠ next.server.port
    || prev.server.authEnabled ≠ next.server.authEnabled
    || prev.server.localBearerToken ≠ next.server.localBearerToken

/-! ### The machine -/

/-- How far a call has come: it has read the configuration, saved its own, decided to restart the
server, stopped it, found none running, or bound the address that it read. -/
inductive SyncCall where
  | idle
  | called (prev : ProxyConfig)
  | saved (prev next : ProxyConfig)
  | stopping
  | stopped
  | starting
  | bound (config : ProxyConfig)
  | returned

/-- The configuration in memory, the registered server, and the calls. -/
structure SyncState where
  config : ProxyConfig
  server : Option RunningServer
  calls : ℕ → SyncCall := fun _ => .idle

/-- One step of the call with a number. -/
inductive SyncAction where
  | getConfig (i : ℕ)
  | save (i : ℕ) (call : SaveCall)
  | getStatus (i : ℕ)
  | stop (i : ℕ)
  | isRunning (i : ℕ)
  | bind (i : ℕ)
  | register (i : ℕ)

namespace SyncState

def setCall (s : SyncState) (i : ℕ) (phase : SyncCall) : SyncState :=
  { s with calls := Function.update s.calls i phase }

/-- The steps of `save_config`, `sync_runtime_config`, `stop` and `start`. -/
def step (env : SaveEnv) (s : SyncState) : SyncAction → Option SyncState
  | .getConfig i =>
    match s.calls i with
    | .idle => some (s.setCall i (.called s.config))
    | _ => none
  | .save i call =>
    match s.calls i with
    | .called prev =>
      (call.accept env).toOption.map fun next =>
        { s with config := next }.setCall i (.saved prev next)
    | _ => none
  | .getStatus i =>
    match s.calls i with
    | .saved prev next =>
      if s.server.isSome && hasServerSettingChanged prev next then some (s.setCall i .stopping)
      else some (s.setCall i .returned)
    | _ => none
  | .stop i =>
    match s.calls i with
    | .stopping => some ({ s with server := none }.setCall i .stopped)
    | _ => none
  | .isRunning i =>
    match s.calls i with
    | .stopped =>
      if s.server.isSome then some (s.setCall i .returned) else some (s.setCall i .starting)
    | _ => none
  | .bind i =>
    match s.calls i with
    | .starting => some (s.setCall i (.bound s.config))
    | _ => none
  | .register i =>
    match s.calls i with
    | .bound config =>
      some ({ s with server := some (.ofConfig config) }.setCall i .returned)
    | _ => none

/-- No call is under way. -/
def AllReturned (s : SyncState) : Prop := ∀ i, s.calls i = .idle ∨ s.calls i = .returned

/-- The server listens where the configuration in memory says. -/
def Listens (s : SyncState) : Prop := s.server = some (.ofConfig s.config)

/-! ### Calls that bring the server there -/

/-- A call goes on to register this server: it has still to read the configuration, or has read one
that gives it; a call that has just saved does when it finds the server running. -/
def Brings (running : Bool) (goal : RunningServer) : SyncCall → Prop
  | .saved prev next => running = true ∧ hasServerSettingChanged prev next = true
  | .stopping | .stopped | .starting => True
  | .bound config => RunningServer.ofConfig config = goal
  | _ => False

/-- The server listens where the configuration says, or a call brings it there. -/
def Follows (s : SyncState) : Prop :=
  s.Listens ∨ ∃ i, Brings s.server.isSome (.ofConfig s.config) (s.calls i)

def LeadsTo (s : SyncState) (goal : RunningServer) (i : ℕ) : Prop :=
  s.server = some goal ∨ ∃ j ≠ i, Brings s.server.isSome goal (s.calls j)

/-- The steps behind which the server is still brought to the current address.  A save makes another
configuration current: its own call finds the server running and the settings changed, or what goes
on leads to the new address.  A call that stopped the server and finds one running leaves it to
others.  A server that is registered has the current address, or another call follows. -/
def InStep (env : SaveEnv) (s : SyncState) : SyncAction → Prop
  | .save i call => ∀ prev next, s.calls i = .called prev → call.accept env = .ok next →
      (s.server.isSome = true ∧ hasServerSettingChanged prev next = true) ∨
        s.LeadsTo (.ofConfig next) i
  | .isRunning i => s.server = none ∨ s.LeadsTo (.ofConfig s.config) i
  | .register i => ∀ config, s.calls i = .bound config →
      RunningServer.ofConfig config = .ofConfig s.config ∨
        ∃ j ≠ i, Brings true (.ofConfig s.config) (s.calls j)
  | _ => True

variable {env : SaveEnv} {s s' : SyncState} {i : ℕ}

variable {phase : SyncCall}

theorem exists_brings_update {running : Bool} {goal : RunningServer} {calls : ℕ → SyncCall} :
    (∃ j, Brings running goal (Function.update calls i phase j)) ↔
      Brings running goal phase ∨ ∃ j ≠ i, Brings running goal (calls j) := by
  constructor
  · rintro ⟨j, hj⟩
    by_cases hji : j = i
    · subst hji
      rw [Function.update_self] at hj
      exact .inl hj
    · rw [Function.update_of_ne hji] at hj
      exact .inr ⟨j, hji, hj⟩
  · rintro (h | ⟨j, hji, hj⟩)
    · exact ⟨i, by rwa [Function.update_self]⟩
    · exact ⟨j, by rwa [Function.update_of_ne hji]⟩

theorem exists_brings_iff {running : Bool} {goal : RunningServer} {calls : ℕ → SyncCall} (i : ℕ) :
    (∃ j, Brings running goal (calls j)) ↔
      Brings running goal (calls i) ∨ ∃ j ≠ i, Brings running goal (calls j) := by
  rw [← exists_brings_update, Function.update_eq_self]

theorem follows_iff_of_call (hphase : s.calls i = phase) :
    s.Follows ↔ Brings s.server.isSome (.ofConfig s.config) phase ∨
      s.LeadsTo (.ofConfig s.config) i := by
  rw [Follows, exists_brings_iff i, hphase, LeadsTo, Listens]
  tauto

theorem follows_setCall_iff :
    (s.setCall i phase).Follows ↔
      Brings s.server.isSome (.ofConfig s.config) phase ∨ s.LeadsTo (.ofConfig s.config) i := by
  have hrest : (s.setCall i phase).LeadsTo (.ofConfig s.config) i ↔
      s.LeadsTo (.ofConfig s.config) i := by
    refine or_congr .rfl (exists_congr fun j => and_congr_right fun hji => ?_)
    show Brings _ _ (Function.update s.calls i phase j) ↔ _
    rw [Function.update_of_ne hji]
    exact .rfl
  rw [follows_iff_of_call (Function.update_self i phase s.calls), ← hrest]
  exact .rfl

/-! ### One step -/

/-- **Behind a step the server is still brought to the current address exactly when the step is one
of these.** -/
theorem follows_iff {a : SyncAction} (h : s.Follows) (hstep : s.step env a = some s') :
    s'.Follows ↔ s.InStep env a := by
  cases a with
  | getConfig i =>
    cases hcall : s.calls i <;> simp only [step, hcall, reduceCtorEq] at hstep
    cases hstep
    rw [follows_setCall_iff]
    exact iff_of_true (.inr (((follows_iff_of_call hcall).1 h).resolve_left id)) trivial
  | save i call =>
    cases hcall : s.calls i <;> simp only [step, hcall, reduceCtorEq] at hstep
    case called prev =>
      obtain ⟨next, hnext, rfl⟩ := Option.map_eq_some_iff.1 hstep
      -- the memory changes, and so does what the call will bring
      have haccept := toOption_eq_some_iff.1 hnext
      rw [follows_setCall_iff]
      constructor
      · intro hfollows prev' next' hcall' haccept'
        obtain rfl := SyncCall.called.inj (hcall.symm.trans hcall')
        obtain rfl := Except.ok.inj (haccept.symm.trans haccept')
        exact hfollows
      · exact fun hin => hin prev next hcall haccept
  | getStatus i =>
    cases hcall : s.calls i <;> simp only [step, hcall, reduceCtorEq] at hstep
    case saved prev next =>
      have hbefore := (follows_iff_of_call hcall).1 h
      -- the call restarts the server unless it has this configuration
      split_ifs at hstep with hrestart
      · cases hstep
        rw [follows_setCall_iff]
        exact iff_of_true (.inl trivial) trivial
      · cases hstep
        rw [follows_setCall_iff]
        refine iff_of_true (.inr (hbefore.resolve_left fun hbrings => hrestart ?_)) trivial
        rw [hbrings.1, hbrings.2]
        rfl
  | stop i =>
    cases hcall : s.calls i <;> simp only [step, hcall, reduceCtorEq] at hstep
    cases hstep
    rw [follows_setCall_iff]
    exact iff_of_true (.inl trivial) trivial
  | isRunning i =>
    cases hcall : s.calls i <;> simp only [step, hcall, reduceCtorEq] at hstep
    split_ifs at hstep with hserver
    · cases hstep
      rw [follows_setCall_iff]
      have hsome : s.server ≠ none := Option.isSome_iff_ne_none.1 hserver
      exact ⟨fun hfollows => .inr (hfollows.resolve_left id),
        fun hin => .inr (hin.resolve_left hsome)⟩
    · cases hstep
      rw [follows_setCall_iff]
      exact iff_of_true (.inl trivial) (.inl (Option.not_isSome_iff_eq_none.1 hserver))
  | bind i =>
    cases hcall : s.calls i <;> simp only [step, hcall, reduceCtorEq] at hstep
    cases hstep
    rw [follows_setCall_iff]
    exact iff_of_true (.inl rfl) trivial
  | register i =>
    cases hcall : s.calls i <;> simp only [step, hcall, reduceCtorEq] at hstep
    case bound config =>
      cases hstep
      rw [follows_setCall_iff]
      constructor
      · intro hfollows config' hcall'
        obtain rfl := SyncCall.bound.inj (hcall.symm.trans hcall')
        exact (hfollows.resolve_left id).imp_left Option.some.inj
      · exact fun hin => .inr ((hin config hcall).imp_left (congrArg some))

/-! ### Runs -/

theorem Follows.listens (h : s.Follows) (hall : s.AllReturned) : s.Listens := by
  refine h.resolve_right ?_
  rintro ⟨i, hbrings⟩
  rcases hall i with hidle | hreturned
  · rw [hidle] at hbrings
    exact hbrings
  · rw [hreturned] at hbrings
    exact hbrings

/-- **Behind calls that are in step the server listens where the configuration says.** -/
theorem listens_of_run {initial : SyncState} {actions : List SyncAction}
    (hlistens : initial.Listens) (hrun : Machine.run (step env) initial actions = some s)
    (hin : Machine.EachStep (step env) (InStep env) initial actions) (hall : s.AllReturned) :
    s.Listens :=
  Follows.listens (Machine.run_invariant
    (fun _ _ _ hfollows hcond hstep => (follows_iff hfollows hstep).2 hcond)
    (Or.inl hlistens) hin hrun) hall

def onPort (port : UInt16) : ProxyConfig :=
  { defaultConfig with server := { defaultConfig.server with port := port } }

/-- A server that runs on a port, and no calls. -/
def runningOn (port : UInt16) : SyncState :=
  { config := onPort port, server := some (.ofConfig (onPort port)) }

/-- Two calls that move the server; the second saves while the first has stopped it. -/
def sharedMove : List SyncAction :=
  [.getConfig 0, .getConfig 1, .save 0 (.saveConfig (onPort 9002)), .getStatus 0, .stop 0,
    .save 1 (.saveConfig (onPort 9003)), .getStatus 1, .isRunning 0, .bind 0, .register 0]

theorem listens_sharedMove :
    ∃ s, Machine.run (step SaveEnv.plain) (runningOn 9001) sharedMove = some s ∧ s.Listens := by
  have hrun : Machine.run (step SaveEnv.plain) (runningOn 9001) sharedMove = some _ := rfl
  have hlistens : (runningOn 9001).Listens := rfl
  refine ⟨_, hrun, listens_of_run hlistens hrun ?_ ?_⟩
  · refine .cons rfl trivial (.cons rfl trivial (.cons rfl ?_ (.cons rfl trivial (.cons rfl trivial
      (.cons rfl ?_ (.cons rfl trivial (.cons rfl (.inl rfl) (.cons rfl trivial (.cons rfl ?_
        trivial)))))))))
    · intro prev next hprev hnext
      cases hprev
      cases hnext
      exact .inl ⟨rfl, by decide⟩
    · -- the first call has not read its address yet
      exact fun _ _ _ _ => .inr (.inr ⟨0, by decide, trivial⟩)
    · intro config hconfig
      cases hconfig
      exact .inl rfl
  · intro i
    rcases i with _ | _ | i
    · exact .inr rfl
    · exact .inr rfl
    · exact .inl rfl

/-- Two calls that move the server; the second saves while the first has bound its address. -/
def overtakenMove : List SyncAction :=
  [.getConfig 0, .save 0 (.saveConfig (onPort 9002)), .getStatus 0, .stop 0, .isRunning 0, .bind 0,
    .getConfig 1, .save 1 (.saveConfig (onPort 9003)), .getStatus 1, .register 0]

/-- The second call finds no server to restart, and the first registers the old address. -/
theorem not_listens_overtakenMove :
    ∃ s, (runningOn 9001).Listens ∧
      Machine.run (step SaveEnv.plain) (runningOn 9001) overtakenMove = some s ∧
        s.AllReturned ∧ ¬ s.Listens := by
  refine ⟨_, rfl, rfl, fun i => ?_, fun h => ?_⟩
  · match i with
    | 0 => exact .inr rfl
    | 1 => exact .inr rfl
    | i + 2 => exact .inl rfl
  · have hport : (9002 : UInt16) = 9003 :=
      congrArg RunningServer.port (Option.some.inj h)
    exact absurd hport (by decide)

end SyncState

end AiOpenRouter
