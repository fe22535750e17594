/-
The launcher of the background service (`aor-cli/bin/aor.js`).

`daemon.json` records the process that a start spawned. Whether the process lives and whether it
answers are other things: the environment of a command says which processes die, and which health
checks succeed, while the command waits. Of the record there are the fields that the commands read.

* `LauncherWorld.step` runs a command to its end, or lets processes die between two commands;
* `LauncherWorld.tracked_iff`: every living process is the recorded one, all along a run, just if no
  start finds the recorded process alive but not healthy, and survived by it.
-/
import AiOpenRouter.Machines
import Mathlib.Data.Int.Notation

namespace AiOpenRouter

/-! ### The commands -/

/-- The record in `daemon.json`. -/
structure DaemonState where
  pid : ℕ
  port : ℕ
  deriving DecidableEq

/-- What the launcher finds: the record, the port that `readConfiguredPort` returns, and the spawned
processes that live. -/
structure LauncherWorld where
  state : Option DaemonState
  configured : ℕ
  alive : List ℕ
  deriving DecidableEq

inductive LauncherError where
  /-- `Invalid --port. Allowed range: 1-65535`. -/
  | invalidPort
  /-- `aor failed to start on port` .... -/
  | failedToStart (port : ℕ)
  /-- `process.kill` of a process that died in between. -/
  | noSuchProcess
  deriving DecidableEq

structure StartEnv where
  /-- The id of the process that it spawns. -/
  pid : ℕ
  /-- The answer of the recorded process to the health check. -/
  healthy : Bool
  /-- The processes that die while the start waits for that answer. -/
  goneAtCheck : List ℕ
  /-- Whether the spawned process gets healthy. -/
  comesUp : Bool
  /-- The processes that die while the start waits for that. -/
  goneWaiting : List ℕ
  /-- Whether the spawned process dies just before it is sent `SIGTERM`. -/
  goneAtKill : Bool

inductive StopCourse where
  /-- Just before it is sent `SIGTERM`. -/
  | goneAtTerm
  /-- Within the eight seconds behind `SIGTERM`. -/
  | exits
  /-- Later, but just before it is sent `SIGKILL`. -/
  | goneAtKill
  /-- By `SIGKILL`. -/
  | killed

namespace LauncherWorld

/-- `isProcessAlive`. -/
def isProcessAlive (world : LauncherWorld) (pid : ℕ) : Bool := decide (pid ∈ world.alive)

def lose (gone : List ℕ) (world : LauncherWorld) : LauncherWorld :=
  { world with alive := world.alive.filter (· ∉ gone) }

/-- `clearState`. -/
def clearState (world : LauncherWorld) : LauncherWorld := { world with state := none }

def spawn (pid port : ℕ) (world : LauncherWorld) : LauncherWorld :=
  { world with state := some ⟨pid, port⟩, alive := pid :: world.alive }

/-- `commandStart` from its call of `spawn` on. -/
def spawnDaemon (env : StartEnv) (port : ℕ) (world : LauncherWorld) :
    Except LauncherError Unit × LauncherWorld :=
  let world := (world.spawn env.pid port).lose env.goneWaiting
  if env.comesUp then (.ok (), world)
  else if world.isProcessAlive env.pid then
    let world' := world.lose [env.pid]
    if env.goneAtKill then (.error .noSuchProcess, world')
    else (.error (.failedToStart port), world'.clearState)
  else (.error (.failedToStart port), world.clearState)

/-- `state?.pid && isProcessAlive(state.pid)`. -/
def recordedAlive (world : LauncherWorld) : Bool :=
  world.state.any fun state => world.isProcessAlive state.pid

/-- `commandStart` behind the port. -/
def startOn (env : StartEnv) (port : ℕ) (world : LauncherWorld) :
    Except LauncherError Unit × LauncherWorld :=
  if world.recordedAlive then
    if env.healthy then (.ok (), world.lose env.goneAtCheck)
    else spawnDaemon env port (world.lose env.goneAtCheck)
  else spawnDaemon env port world

/-- `validatePort`. -/
def validPort (port : ℤ) : Bool := decide (1 ≤ port ∧ port ≤ 65535)

/-- `commandStart`. The port is the integer behind `--port`; what is no integer throws as a port out
of range does. -/
def commandStart (requestedPort : Option ℤ) (env : StartEnv) (world : LauncherWorld) :
    Except LauncherError Unit × LauncherWorld :=
  match requestedPort with
  | none => startOn env world.configured world
  | some port =>
    if validPort port then startOn env port.toNat { world with configured := port.toNat }
    else (.error .invalidPort, world)

/-- `commandStop`. -/
def commandStop (course : StopCourse) (world : LauncherWorld) :
    Except LauncherError Unit × LauncherWorld :=
  match world.state with
  | none => (.ok (), world)
  | some state =>
    if world.isProcessAlive state.pid then
      let ended := world.lose [state.pid]
      match course with
      | .goneAtTerm | .goneAtKill => (.error .noSuchProcess, ended)
      | .exits | .killed => (.ok (), ended.clearState)
    else (.ok (), world.clearState)

/-- `commandRestart`. -/
def commandRestart (requestedPort : Option ℤ) (course : StopCourse) (env : StartEnv)
    (world : LauncherWorld) : Except LauncherError Unit × LauncherWorld :=
  match commandStop course world with
  | (.ok (), stopped) => commandStart requestedPort env stopped
  | (.error error, stopped) => (.error error, stopped)

/-! ### Runs -/

/-- A command with what happens during it, or what happens between two commands. -/
inductive Action where
  | start (requestedPort : Option ℤ) (env : StartEnv)
  | stop (course : StopCourse)
  | restart (requestedPort : Option ℤ) (course : StopCourse) (env : StartEnv)
  /-- Some processes die. -/
  | died (gone : List ℕ)
  /-- The configuration gets another port. -/
  | configured (port : ℕ)

def step (world : LauncherWorld) : Action → Option LauncherWorld
  | .start requestedPort env => some (commandStart requestedPort env world).2
  | .stop course => some (commandStop course world).2
  | .restart requestedPort course env => some (commandRestart requestedPort course env world).2
  | .died gone => some (world.lose gone)
  | .configured port => some { world with configured := port }

/-- A spawned process does not get the id of one that lives. -/
def Fresh (world : LauncherWorld) : Action → Prop
  | .start _ env | .restart _ _ env => env.pid ∉ world.alive
  | _ => True

instance (world : LauncherWorld) : (action : Action) → Decidable (world.Fresh action)
  | .start _ env | .restart _ _ env => inferInstanceAs (Decidable (env.pid ∉ world.alive))
  | .stop _ | .died _ | .configured _ => inferInstanceAs (Decidable True)

/-- Every living process is the recorded one. -/
def Tracked (world : LauncherWorld) : Prop :=
  ∀ pid ∈ world.alive, world.state.map DaemonState.pid = some pid

def portAccepted (requestedPort : Option ℤ) : Bool := requestedPort.all validPort

/-- A start takes the place of a process that lives on. -/
def Displaces (world : LauncherWorld) : Action → Prop
  | .start requestedPort env =>
    portAccepted requestedPort = true ∧ env.healthy = false ∧
      ∃ pid ∈ world.alive, pid ∉ env.goneAtCheck ∧ pid ∉ env.goneWaiting
  | _ => False

/-! ### Processes that die -/

variable {world : LauncherWorld} {env : StartEnv} (port : ℕ)

theorem mem_alive_lose {gone : List ℕ} {pid : ℕ} :
    pid ∈ (world.lose gone).alive ↔ pid ∈ world.alive ∧ pid ∉ gone := by
  rw [lose, List.mem_filter, decide_eq_true_eq]

theorem tracked_lose (h : world.Tracked) (gone : List ℕ) : (world.lose gone).Tracked :=
  fun pid hpid => h pid (mem_alive_lose.1 hpid).1

theorem alive_eq_nil_of_recorded (h : world.Tracked) (hrecorded : world.recordedAlive = false) :
    world.alive = [] := by
  refine List.eq_nil_iff_forall_not_mem.2 fun pid hpid => ?_
  obtain ⟨state, hstate, rfl⟩ := Option.map_eq_some_iff.1 (h pid hpid)
  rw [recordedAlive, hstate, Option.any_some, isProcessAlive, decide_eq_true hpid] at hrecorded
  cases hrecorded

/-! ### What the commands do -/

theorem spawnDaemon_spec (hfresh : env.pid ∉ world.alive) :
    (∀ pid, pid ∈ (spawnDaemon env port world).2.alive → pid = env.pid ∨
        pid ∈ world.alive ∧ pid ∉ env.goneWaiting) ∧
      (∀ pid ∈ world.alive, pid ∉ env.goneWaiting →
        pid ∈ (spawnDaemon env port world).2.alive) ∧
      ((spawnDaemon env port world).2.state = some ⟨env.pid, port⟩ ∨
        (spawnDaemon env port world).2.state = none ∧
          env.pid ∉ (spawnDaemon env port world).2.alive) := by
  have hmem : ∀ pid, pid ∈ ((world.spawn env.pid port).lose env.goneWaiting).alive ↔
      (pid = env.pid ∨ pid ∈ world.alive) ∧ pid ∉ env.goneWaiting := by
    intro pid
    rw [mem_alive_lose, spawn, List.mem_cons]
  have hold : ∀ pid, pid ∈ ((world.spawn env.pid port).lose env.goneWaiting).alive →
      pid = env.pid ∨ pid ∈ world.alive ∧ pid ∉ env.goneWaiting := by
    intro pid hpid
    obtain ⟨hnew | halive, hgone⟩ := (hmem pid).1 hpid
    · exact .inl hnew
    · exact .inr ⟨halive, hgone⟩
  have hkept : ∀ pid ∈ world.alive, pid ∉ env.goneWaiting →
      pid ∈ ((world.spawn env.pid port).lose env.goneWaiting).alive :=
    fun pid halive hgone => (hmem pid).2 ⟨.inr halive, hgone⟩
  -- the spawned process has ended, the others are as they were
  have hother : ∀ pid ∈ world.alive, pid ∉ env.goneWaiting →
      pid ∈ (((world.spawn env.pid port).lose env.goneWaiting).lose [env.pid]).alive := by
    intro pid halive hgone
    refine mem_alive_lose.2 ⟨hkept pid halive hgone, fun hpid => hfresh ?_⟩
    rwa [← List.mem_singleton.1 hpid]
  have hended : env.pid ∉
      (((world.spawn env.pid port).lose env.goneWaiting).lose [env.pid]).alive :=
    fun hpid => (mem_alive_lose.1 hpid).2 (List.mem_singleton.2 rfl)
  unfold spawnDaemon
  dsimp only
  split_ifs with hup halive hgone
  · exact ⟨hold, hkept, .inl rfl⟩
  · exact ⟨fun pid hpid => hold pid (mem_alive_lose.1 hpid).1, hother, .inl rfl⟩
  · exact ⟨fun pid hpid => hold pid (mem_alive_lose.1 hpid).1, hother, .inr ⟨rfl, hended⟩⟩
  · exact ⟨hold, hkept, .inr ⟨rfl, fun hpid => halive (decide_eq_true hpid)⟩⟩

theorem tracked_spawnDaemon_iff (hfresh : env.pid ∉ world.alive) :
    (spawnDaemon env port world).2.Tracked ↔ ∀ pid ∈ world.alive, pid ∈ env.goneWaiting := by
  obtain ⟨hold, hkept, hstate⟩ := spawnDaemon_spec port hfresh
  constructor
  · intro h pid halive
    by_contra hgone
    have hrecord := h pid (hkept pid halive hgone)
    rcases hstate with hstate | ⟨hstate, -⟩
    · rw [hstate] at hrecord
      obtain rfl : env.pid = pid := Option.some.inj hrecord
      exact hfresh halive
    · rw [hstate] at hrecord
      cases hrecord
  · intro h pid hpid
    rcases hold pid hpid with rfl | ⟨halive, hgone⟩
    · rcases hstate with hstate | ⟨-, hended⟩
      · rw [hstate]
        rfl
      · exact absurd hpid hended
    · exact absurd (h pid halive) hgone

theorem tracked_startOn_of_nil (h : world.alive = []) : (startOn env port world).2.Tracked := by
  have hrecorded : world.recordedAlive = false := by
    cases hstate : world.state with
    | none => rw [recordedAlive, hstate, Option.any_none]
    | some state =>
      rw [recordedAlive, hstate, Option.any_some, isProcessAlive, h]
      exact decide_eq_false List.not_mem_nil
  have hnone : ∀ pid, pid ∉ world.alive := fun pid hpid => List.not_mem_nil (h ▸ hpid)
  rw [startOn, hrecorded, if_neg Bool.false_ne_true, tracked_spawnDaemon_iff port (hnone _)]
  exact fun pid hpid => absurd hpid (hnone pid)

theorem tracked_startOn_iff {env : StartEnv} {world : LauncherWorld} (port : ℕ)
    (h : world.Tracked) (hfresh : env.pid ∉ world.alive) :
    (startOn env port world).2.Tracked ↔ ¬ (env.healthy = false ∧
      ∃ pid ∈ world.alive, pid ∉ env.goneAtCheck ∧ pid ∉ env.goneWaiting) := by
  cases hrecorded : world.recordedAlive with
  | false =>
    have hnil := alive_eq_nil_of_recorded h hrecorded
    refine iff_of_true (tracked_startOn_of_nil port hnil) ?_
    rintro ⟨-, pid, hpid, -⟩
    exact List.not_mem_nil (hnil ▸ hpid)
  | true =>
    rw [startOn, hrecorded, if_pos rfl]
    cases hhealthy : env.healthy with
    | true => exact iff_of_true (tracked_lose h _) fun hdisplaces => nomatch hdisplaces.1
    | false =>
      have hlost : env.pid ∉ (world.lose env.goneAtCheck).alive :=
        fun hpid => hfresh (mem_alive_lose.1 hpid).1
      rw [if_neg Bool.false_ne_true, tracked_spawnDaemon_iff port hlost]
      constructor
      · rintro hall ⟨-, pid, halive, hcheck, hwaiting⟩
        exact hwaiting (hall pid (mem_alive_lose.2 ⟨halive, hcheck⟩))
      · intro hnone pid hpid
        obtain ⟨halive, hcheck⟩ := mem_alive_lose.1 hpid
        by_contra hwaiting
        exact hnone ⟨rfl, pid, halive, hcheck, hwaiting⟩

theorem tracked_commandStart_of_nil (requestedPort : Option ℤ) (h : world.alive = []) :
    (commandStart requestedPort env world).2.Tracked := by
  cases requestedPort with
  | none => exact tracked_startOn_of_nil _ h
  | some port =>
    rw [commandStart]
    split_ifs
    · exact tracked_startOn_of_nil _ h
    · exact fun pid hpid => absurd (h ▸ hpid) List.not_mem_nil

/-- **A start keeps the world tracked just if it takes no living process's place.** -/
theorem tracked_commandStart_iff (requestedPort : Option ℤ) (h : world.Tracked)
    (hfresh : env.pid ∉ world.alive) :
    (commandStart requestedPort env world).2.Tracked ↔
      ¬ world.Displaces (.start requestedPort env) := by
  have haccepted : ∀ displaces : Prop, ¬ displaces ↔ ¬ (true = true ∧ displaces) := fun _ =>
    not_congr ⟨fun hdisplaces => ⟨rfl, hdisplaces⟩, And.right⟩
  cases requestedPort with
  | none =>
    rw [commandStart, tracked_startOn_iff _ h hfresh, Displaces, portAccepted, Option.all_none]
    exact haccepted _
  | some port =>
    rw [commandStart, Displaces, portAccepted, Option.all_some]
    split_ifs with hport
    · have hstart := @tracked_startOn_iff env { world with configured := port.toNat } port.toNat h
        hfresh
      rw [hstart, hport]
      exact haccepted _
    · exact iff_of_true h fun hdisplaces => hport hdisplaces.1

/-- **The next stop ends the process**, whatever happens during it. -/
theorem alive_commandStop (h : world.Tracked) (course : StopCourse) :
    (commandStop course world).2.alive = [] := by
  refine List.eq_nil_iff_forall_not_mem.2 fun pid => ?_
  cases hstate : world.state with
  | none =>
    rw [commandStop, hstate]
    intro hpid
    have hrecord := h pid hpid
    rw [hstate] at hrecord
    cases hrecord
  | some state =>
    have hpid : ∀ pid ∈ world.alive, pid = state.pid := by
      intro pid hpid
      have hrecord := h pid hpid
      rw [hstate] at hrecord
      exact (Option.some.inj hrecord).symm
    have hended : pid ∉ (world.lose [state.pid]).alive := fun hmem =>
      (mem_alive_lose.1 hmem).2 (List.mem_singleton.2 (hpid pid (mem_alive_lose.1 hmem).1))
    rw [commandStop, hstate]
    dsimp only
    split_ifs with halive
    · cases course <;> exact hended
    · intro hmem
      exact halive (decide_eq_true (hpid pid hmem ▸ hmem))

theorem tracked_commandRestart (h : world.Tracked) (requestedPort : Option ℤ) (course : StopCourse)
    (env : StartEnv) : (commandRestart requestedPort course env world).2.Tracked := by
  have hstopped := alive_commandStop h course
  unfold commandRestart
  split
  · rename_i stopped hstop
    rw [hstop] at hstopped
    exact tracked_commandStart_of_nil requestedPort hstopped
  · rename_i error stopped hstop
    rw [hstop] at hstopped
    exact fun pid hpid => absurd (hstopped ▸ hpid) List.not_mem_nil

theorem tracked_step_iff (world : LauncherWorld) (action : Action) (h : world.Tracked)
    (hfresh : world.Fresh action) :
    (∀ world', world.step action = some world' → world'.Tracked) ↔ ¬ world.Displaces action := by
  have hnext : ∀ next : LauncherWorld,
      (∀ world', some next = some world' → world'.Tracked) ↔ next.Tracked :=
    fun next => ⟨fun hall => hall next rfl, fun hnext world' heq => Option.some.inj heq ▸ hnext⟩
  cases action with
  | start requestedPort env =>
    rw [step, hnext]
    exact tracked_commandStart_iff requestedPort h hfresh
  | stop course =>
    rw [step, hnext]
    refine iff_of_true (fun pid hpid => ?_) not_false
    exact absurd (alive_commandStop h course ▸ hpid) List.not_mem_nil
  | restart requestedPort course env =>
    rw [step, hnext]
    exact iff_of_true (tracked_commandRestart h requestedPort course env) not_false
  | died gone =>
    rw [step, hnext]
    exact iff_of_true (tracked_lose h gone) not_false
  | configured port =>
    rw [step, hnext]
    exact iff_of_true h not_false

/-- **Every living process is the recorded one, all along a run, just if no start of it takes the
place of a process that lives on.** -/
theorem tracked_iff {world : LauncherWorld} {actions : List Action} (h : world.Tracked)
    (hfresh : Machine.EachStep step Fresh world actions) :
    Machine.Along step Tracked world actions ↔
      Machine.EachStep step (fun world action => ¬ world.Displaces action) world actions :=
  Machine.along_iff tracked_step_iff h hfresh

/-- Nothing is recorded and nothing runs. -/
def idle : LauncherWorld := ⟨none, 8899, []⟩

/-- A start whose process gets healthy. -/
def startUp (pid : ℕ) (healthy : Bool) : Action := .start none ⟨pid, healthy, [], true, [], false⟩

/-- Starts and a restart, one of whose processes dies of itself. -/
def restarts : List Action :=
  [startUp 5 false, .restart (some 9000) .exits ⟨6, false, [], false, [], false⟩, startUp 7 false,
    .died [7], startUp 8 true]

theorem tracked_restarts : Machine.Along step Tracked idle restarts := by
  refine (tracked_iff (fun pid hpid => absurd hpid List.not_mem_nil) ?_).2 ?_
  · exact .cons rfl (by decide) (.cons rfl (by decide) (.cons rfl (by decide)
      (.cons rfl trivial (.cons rfl (by decide) trivial))))
  · refine .cons rfl ?_ (.cons rfl not_false (.cons rfl ?_ (.cons rfl not_false
      (.cons rfl ?_ trivial))))
    · rintro ⟨-, -, pid, halive, -⟩
      cases halive
    · -- the process of the restart does not come up, and is killed
      rintro ⟨-, -, pid, halive, -⟩
      cases halive
    · rintro ⟨-, hhealthy, -⟩
      cases hhealthy

/-- A start of which the recorded process lives but does not answer: its process is lost, and the
next stop leaves it alive. -/
theorem not_tracked_unhealthy :
    Machine.run step idle [startUp 5 false, startUp 6 false] = some ⟨some ⟨6, 8899⟩, 8899, [6, 5]⟩ ∧
      Machine.run step idle [startUp 5 false, startUp 6 false, .stop .exits] =
        some ⟨none, 8899, [5]⟩ ∧
      ¬ Machine.Along step Tracked idle [startUp 5 false, startUp 6 false] := by
  refine ⟨by decide, by decide, fun h => ?_⟩
  have hrecord := (h.2 _ rfl).2 _ rfl 5 (by decide)
  exact absurd hrecord (by decide)

end LauncherWorld

end AiOpenRouter
