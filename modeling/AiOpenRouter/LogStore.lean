/-
The bounded log of the proxy (`log_store.rs`).

An entry is known by its trace id. `append` pushes an entry, `upsertByTraceId`
replaces the last entry of its trace id or pushes one, and what is more than the
limit is popped at the front.

* `KeepsLog` says what a store holds of a history of operations;
* `keepsLog_apply` is the step, `logStore_keepsLog` the run.
-/
import Mathlib.Data.List.Basic
import Mathlib.Data.List.Nodup

namespace AiOpenRouter

/-! ### The store -/

/-- A log entry: its trace id, and the rest of what it says. -/
structure LogEntry (Body : Type) where
  traceId : String
  body : Body

/-- `LogStore`, without the file that a developer may have the entries written to. -/
structure LogStore (Body : Type) where
  inner : List (LogEntry Body)
  limit : ℕ

variable {Body : Type}

/-- `while guard.len() > self.limit { guard.pop_front() }`. -/
def popExcess {α : Type} (limit : ℕ) : List α → List α
  | [] => []
  | x :: xs => if limit < (x :: xs).length then popExcess limit xs else x :: xs

def replaceFirst (entry : LogEntry Body) : List (LogEntry Body) → Option (List (LogEntry Body))
  | [] => none
  | existing :: rest =>
    if existing.traceId = entry.traceId then some (entry :: rest)
    else (replaceFirst entry rest).map (existing :: ·)

namespace LogStore

/-- `LogStore::new`. -/
def new (limit : ℕ) : LogStore Body where
  inner := []
  limit := limit

/-- `LogStore::append`. -/
def append (entry : LogEntry Body) (store : LogStore Body) : LogStore Body :=
  { store with inner := popExcess store.limit (store.inner ++ [entry]) }

/-- `LogStore::upsert_by_trace_id`: the entries are gone through from the back. -/
def upsertByTraceId (entry : LogEntry Body) (store : LogStore Body) : LogStore Body :=
  match replaceFirst entry store.inner.reverse with
  | some replaced => { store with inner := replaced.reverse }
  | none => { store with inner := popExcess store.limit (store.inner ++ [entry]) }

/-- `LogStore::list`. -/
def list (max : ℕ) (store : LogStore Body) : List (LogEntry Body) :=
  (store.inner.reverse.take max).reverse

/-- `LogStore::clear`. -/
def clear (store : LogStore Body) : LogStore Body :=
  { store with inner := [] }

def traceIds (store : LogStore Body) : List String :=
  store.inner.map LogEntry.traceId

end LogStore

/-! ### Runs -/

/-- An operation that changes the store. -/
inductive LogOp (Body : Type) where
  | append (entry : LogEntry Body)
  | upsertByTraceId (entry : LogEntry Body)
  | clear

/-- What an operation makes of a store. -/
def LogStore.apply (store : LogStore Body) : LogOp Body → LogStore Body
  | .append entry => store.append entry
  | .upsertByTraceId entry => store.upsertByTraceId entry
  | .clear => store.clear

/-- What operations make of a store. -/
def LogStore.run (store : LogStore Body) (ops : List (LogOp Body)) : LogStore Body :=
  ops.foldl LogStore.apply store

def LogOp.IsFresh (store : LogStore Body) : LogOp Body → Prop
  | .append entry => entry.traceId ∉ store.traceIds
  | _ => True

/-- Every operation of a run is fresh where it is made. -/
def FreshAppends : LogStore Body → List (LogOp Body) → Prop
  | _, [] => True
  | store, op :: ops => op.IsFresh store ∧ FreshAppends (store.apply op) ops

/-! ### What a history says of an entry -/

/-- The entry that an operation writes. -/
def LogOp.entry : LogOp Body → Option (LogEntry Body)
  | .append entry => some entry
  | .upsertByTraceId entry => some entry
  | .clear => none

def lastWritten (ops : List (LogOp Body)) (traceId : String) : Option (LogEntry Body) :=
  ((ops.filterMap LogOp.entry).filter (·.traceId = traceId)).getLast?

def LogOp.newId (store : LogStore Body) (op : LogOp Body) : Option String :=
  (op.entry.map LogEntry.traceId).filter (· ∉ store.traceIds)

def insertions : LogStore Body → ℕ → List (LogOp Body) → List (ℕ × String)
  | _, _, [] => []
  | store, time, op :: ops =>
    (op.newId store).toList.map (time, ·) ++ insertions (store.apply op) (time + 1) ops

def insertedAt (limit : ℕ) (ops : List (LogOp Body)) (traceId : String) : Option ℕ :=
  (((insertions (LogStore.new limit) 0 ops).filter (·.2 = traceId)).getLast?).map Prod.fst

/-- **What a store holds of its history**: no more than its limit, each trace id once, of each the
entry written last, in the order of the times at which the ids were last new. -/
structure LogStore.KeepsLog (store : LogStore Body) (ops : List (LogOp Body)) : Prop where
  bounded : store.inner.length ≤ store.limit
  distinct : store.traceIds.Nodup
  latest : ∀ entry ∈ store.inner, lastWritten ops entry.traceId = some entry
  ordered : ∃ times : List ℕ, store.traceIds.map (insertedAt store.limit ops) = times.map some ∧
    times.Pairwise (· < ·)

/-! ### The operations -/

theorem popExcess_eq_drop {α : Type} (limit : ℕ) (xs : List α) :
    popExcess limit xs = xs.drop (xs.length - limit) := by
  induction xs with
  | nil => exact List.drop_nil.symm
  | cons x xs ih =>
    rw [popExcess]
    split_ifs with h
    · have hexcess : (x :: xs).length - limit = xs.length - limit + 1 := by
        rw [List.length_cons] at h ⊢
        omega
      rw [hexcess, List.drop_succ_cons, ih]
    · have hexcess : (x :: xs).length - limit = 0 := by omega
      rw [hexcess, List.drop_zero]

variable {ops : List (LogOp Body)} {limit : ℕ} {op : LogOp Body} {traceId : String}
  {entry : LogEntry Body} (store : LogStore Body)

theorem replaceFirst_eq_none_iff {entries : List (LogEntry Body)} :
    replaceFirst entry entries = none ↔ entry.traceId ∉ entries.map LogEntry.traceId := by
  induction entries with
  | nil => simp [replaceFirst]
  | cons existing rest ih =>
    rw [replaceFirst]
    split_ifs with h
    · simp [h]
    · rw [Option.map_eq_none_iff, ih, List.map_cons, List.mem_cons, not_or]
      exact ⟨fun hrest => ⟨Ne.symm h, hrest⟩, And.right⟩

theorem replaceFirst_eq_some {entries replaced : List (LogEntry Body)}
    (h : replaceFirst entry entries = some replaced) :
    ∃ before existing after, entries = before ++ existing :: after ∧
      replaced = before ++ entry :: after ∧ existing.traceId = entry.traceId := by
  induction entries generalizing replaced with
  | nil => cases h
  | cons existing rest ih =>
    rw [replaceFirst] at h
    split_ifs at h with hid
    · cases h
      exact ⟨[], existing, rest, rfl, rfl, hid⟩
    · obtain ⟨replacedRest, hrest, rfl⟩ := Option.map_eq_some_iff.1 h
      obtain ⟨before, old, after, rfl, rfl, hold⟩ := ih hrest
      exact ⟨existing :: before, old, after, rfl, rfl, hold⟩

/-- **`upsert_by_trace_id` is `append` where the store does not hold the trace id, and puts the
entry in the place of the one that it holds.** -/
theorem upsertByTraceId_cases (entry : LogEntry Body) :
    (entry.traceId ∉ store.traceIds ∧ store.upsertByTraceId entry = store.append entry) ∨
      ∃ before existing after, store.inner = before ++ existing :: after ∧
        existing.traceId = entry.traceId ∧
        store.upsertByTraceId entry = { store with inner := before ++ entry :: after } := by
  unfold LogStore.upsertByTraceId
  cases hreplace : replaceFirst entry store.inner.reverse with
  | none =>
    rw [replaceFirst_eq_none_iff, List.map_reverse, List.mem_reverse] at hreplace
    exact .inl ⟨hreplace, rfl⟩
  | some replaced =>
    obtain ⟨before, existing, after, hinner, rfl, hid⟩ := replaceFirst_eq_some hreplace
    refine .inr ⟨after.reverse, existing, before.reverse, ?_, hid, ?_⟩
    · rw [← List.reverse_reverse store.inner, hinner]
      simp
    · simp

@[simp] theorem LogStore.limit_append (entry : LogEntry Body) :
    (store.append entry).limit = store.limit := rfl

@[simp] theorem LogStore.limit_apply (op : LogOp Body) : (store.apply op).limit = store.limit := by
  cases op with
  | append entry => rfl
  | clear => rfl
  | upsertByTraceId entry =>
    rw [LogStore.apply]
    rcases upsertByTraceId_cases store entry with ⟨-, h⟩ | ⟨before, existing, after, -, -, h⟩
    · rw [h, LogStore.limit_append]
    · rw [h]

@[simp] theorem LogStore.limit_run (ops : List (LogOp Body)) :
    (store.run ops).limit = store.limit := by
  induction ops generalizing store with
  | nil => rfl
  | cons op ops ih => exact (ih _).trans (store.limit_apply op)

/-- `list` gives the last entries, in their order. -/
theorem LogStore.list_eq_drop (max : ℕ) :
    store.list max = store.inner.drop (store.inner.length - max) := by
  rw [LogStore.list, List.take_reverse, List.reverse_reverse]

/-! ### A history with one more operation -/

theorem lastWritten_concat_of_none (h : ∀ entry, op.entry = some entry → entry.traceId ≠ traceId) :
    lastWritten (ops ++ [op]) traceId = lastWritten ops traceId := by
  unfold lastWritten
  rw [List.filterMap_append, List.filter_append]
  cases hentry : op.entry with
  | none => simp [hentry]
  | some entry => simp [hentry, h entry hentry]

theorem lastWritten_concat_self (h : op.entry = some entry) :
    lastWritten (ops ++ [op]) entry.traceId = some entry := by
  unfold lastWritten
  rw [List.filterMap_append, List.filter_append]
  simp [h]

theorem insertions_concat (time : ℕ) (ops : List (LogOp Body)) (op : LogOp Body) :
    insertions store time (ops ++ [op]) =
      insertions store time ops ++
        (op.newId (store.run ops)).toList.map (time + ops.length, ·) := by
  induction ops generalizing store time with
  | nil => simp [insertions, LogStore.run]
  | cons first ops ih =>
    rw [List.cons_append, insertions, ih, insertions, List.append_assoc, List.length_cons,
      Nat.add_right_comm, Nat.add_assoc]
    rfl

theorem lt_of_mem_insertions {store : LogStore Body} {time : ℕ} {insertion : ℕ × String}
    (h : insertion ∈ insertions store time ops) : insertion.1 < time + ops.length := by
  induction ops generalizing store time with
  | nil => cases h
  | cons op ops ih =>
    rw [insertions, List.mem_append] at h
    rcases h with hfirst | hrest
    · obtain ⟨traceId, -, rfl⟩ := List.mem_map.1 hfirst
      rw [List.length_cons]
      omega
    · have hlt := ih hrest
      rw [List.length_cons]
      omega

theorem lt_of_insertedAt {time : ℕ} (h : insertedAt limit ops traceId = some time) :
    time < ops.length := by
  obtain ⟨insertion, hlast, rfl⟩ := Option.map_eq_some_iff.1 h
  have hmem := List.mem_of_mem_filter (List.mem_of_getLast? hlast)
  have hlt := lt_of_mem_insertions hmem
  omega

theorem insertedAt_concat_of_ne (h : op.newId ((LogStore.new limit).run ops) ≠ some traceId) :
    insertedAt limit (ops ++ [op]) traceId = insertedAt limit ops traceId := by
  unfold insertedAt
  rw [insertions_concat, List.filter_append]
  cases hid : op.newId ((LogStore.new limit).run ops) with
  | none => simp
  | some new =>
    have hne : new ≠ traceId := fun heq => h (hid.trans (congrArg some heq))
    simp [hne]

theorem insertedAt_concat_self (h : op.newId ((LogStore.new limit).run ops) = some traceId) :
    insertedAt limit (ops ++ [op]) traceId = some ops.length := by
  unfold insertedAt
  rw [insertions_concat, List.filter_append, h]
  simp

/-! ### Runs keep the log -/

theorem keepsLog_new (limit : ℕ) : (LogStore.new limit : LogStore Body).KeepsLog [] where
  bounded := Nat.zero_le _
  distinct := List.nodup_nil
  latest := fun _ h => absurd h List.not_mem_nil
  ordered := ⟨[], rfl, List.Pairwise.nil⟩

namespace LogStore.KeepsLog

variable {store : LogStore Body} {ops : List (LogOp Body)}

theorem push {limit : ℕ} (h : store.KeepsLog ops) (hrun : store = (LogStore.new limit).run ops)
    {op : LogOp Body} {entry : LogEntry Body} (hentry : op.entry = some entry)
    (hnew : entry.traceId ∉ store.traceIds) : (store.append entry).KeepsLog (ops ++ [op]) := by
  have hlimit : store.limit = limit := by rw [hrun, LogStore.limit_run]; rfl
  have hid : op.newId ((LogStore.new limit).run ops) = some entry.traceId := by
    rw [← hrun, LogOp.newId, hentry]
    simp [hnew]
  -- The store before the excess is popped has everything but the bound.
  have hdrop : (store.append entry).inner =
      (store.inner ++ [entry]).drop ((store.inner ++ [entry]).length - store.limit) :=
    popExcess_eq_drop _ _
  have hids : (store.append entry).traceIds =
      (store.traceIds ++ [entry.traceId]).drop ((store.inner ++ [entry]).length - store.limit) := by
    rw [LogStore.traceIds, hdrop, List.map_drop, List.map_append]
    rfl
  obtain ⟨times, htimes, hsorted⟩ := h.ordered
  have hold : ∀ traceId ∈ store.traceIds,
      insertedAt store.limit (ops ++ [op]) traceId = insertedAt store.limit ops traceId := by
    intro traceId hmem
    rw [hlimit]
    refine insertedAt_concat_of_ne fun heq => hnew ?_
    rw [hid, Option.some_inj] at heq
    rwa [heq]
  refine ⟨?_, ?_, ?_, ?_⟩
  · rw [hdrop, List.length_drop, LogStore.limit_append]
    omega
  · rw [hids]
    exact (List.nodup_append_comm.1 (List.nodup_cons.2 ⟨hnew, h.distinct⟩)).sublist
      (List.drop_sublist _ _)
  · intro held hmem
    rw [hdrop] at hmem
    rcases List.mem_append.1 (List.mem_of_mem_drop hmem) with hmem | hmem
    · rw [lastWritten_concat_of_none]
      · exact h.latest held hmem
      · intro written hwritten heq
        rw [hentry, Option.some_inj] at hwritten
        subst hwritten
        exact hnew (heq ▸ List.mem_map_of_mem hmem)
    · rw [List.mem_singleton.1 hmem]
      exact lastWritten_concat_self hentry
  · refine ⟨(times ++ [ops.length]).drop ((store.inner ++ [entry]).length - store.limit), ?_, ?_⟩
    · rw [hids, LogStore.limit_append, List.map_drop, List.map_drop, List.map_append,
        List.map_append, ← htimes, List.map_congr_left hold]
      rw [hlimit, List.map_singleton, insertedAt_concat_self hid]
      rfl
    · refine List.Pairwise.sublist (List.drop_sublist _ _) ?_
      refine List.pairwise_append.2 ⟨hsorted, List.pairwise_singleton _ _, ?_⟩
      intro time hmem last hlast
      rw [List.mem_singleton.1 hlast]
      obtain ⟨traceId, -, htime⟩ := List.mem_map.1 (htimes ▸ List.mem_map_of_mem hmem)
      exact lt_of_insertedAt htime

theorem replace {limit : ℕ} (h : store.KeepsLog ops) (hrun : store = (LogStore.new limit).run ops)
    {op : LogOp Body} {entry existing : LogEntry Body} {before after : List (LogEntry Body)}
    (hentry : op.entry = some entry) (hinner : store.inner = before ++ existing :: after)
    (hid : existing.traceId = entry.traceId) :
    ({ store with inner := before ++ entry :: after } : LogStore Body).KeepsLog (ops ++ [op]) := by
  have hlimit : store.limit = limit := by rw [hrun, LogStore.limit_run]; rfl
  have hids : ({ store with inner := before ++ entry :: after } : LogStore Body).traceIds =
      store.traceIds := by
    simp [LogStore.traceIds, hinner, hid]
  have hnone : op.newId ((LogStore.new limit).run ops) = none := by
    have hmem : entry.traceId ∈ store.traceIds := by
      simp [LogStore.traceIds, hinner, hid]
    rw [← hrun, LogOp.newId, hentry]
    simp [hmem]
  have hsame : insertedAt store.limit (ops ++ [op]) = insertedAt store.limit ops := by
    funext traceId
    rw [hlimit]
    refine insertedAt_concat_of_ne fun heq => ?_
    rw [hnone] at heq
    cases heq
  -- The other entries have other trace ids.
  have hothers : ∀ held ∈ before ++ after, held.traceId ≠ entry.traceId := by
    intro held hmem heq
    have hnodup : (existing :: (before ++ after)).map LogEntry.traceId |>.Nodup := by
      have hperm : (before ++ existing :: after).Perm (existing :: (before ++ after)) :=
        List.perm_middle
      exact (hperm.map _).nodup_iff.1 (hinner ▸ h.distinct)
    rw [List.map_cons, List.nodup_cons] at hnodup
    exact hnodup.1 (hid.trans heq.symm ▸ List.mem_map_of_mem hmem)
  refine ⟨?_, ?_, ?_, ?_⟩
  · have hbounded := h.bounded
    rw [hinner] at hbounded
    simpa using hbounded
  · rw [hids]
    exact h.distinct
  · intro held hmem
    have hcases : held = entry ∨ held ∈ before ++ after := by
      simp only [List.mem_append, List.mem_cons] at hmem ⊢
      tauto
    rcases hcases with rfl | hmem
    · exact lastWritten_concat_self hentry
    · rw [lastWritten_concat_of_none]
      · refine h.latest held ?_
        rw [hinner]
        simp only [List.mem_append, List.mem_cons] at hmem ⊢
        tauto
      · intro written hwritten heq
        rw [hentry, Option.some_inj] at hwritten
        subst hwritten
        exact hothers held hmem heq.symm
  · rw [hids, hsame]
    exact h.ordered

end LogStore.KeepsLog

theorem keepsLog_apply {store : LogStore Body} (h : store.KeepsLog ops)
    (hrun : store = (LogStore.new limit).run ops) (hfresh : op.IsFresh store) :
    (store.apply op).KeepsLog (ops ++ [op]) := by
  cases op with
  | append entry => exact h.push hrun rfl hfresh
  | clear =>
    exact ⟨Nat.zero_le _, List.nodup_nil, fun _ hmem => absurd hmem List.not_mem_nil,
      [], rfl, List.Pairwise.nil⟩
  | upsertByTraceId entry =>
    rw [LogStore.apply]
    rcases upsertByTraceId_cases store entry with ⟨hnew, heq⟩ | ⟨before, existing, after, hinner,
      hid, heq⟩
    · rw [heq]
      exact h.push hrun rfl hnew
    · rw [heq]
      exact h.replace hrun rfl hinner hid

theorem keepsLog_run {store : LogStore Body} {more : List (LogOp Body)} (h : store.KeepsLog ops)
    (hrun : store = (LogStore.new limit).run ops) (hfresh : FreshAppends store more) :
    (store.run more).KeepsLog (ops ++ more) := by
  induction more generalizing store ops with
  | nil =>
    rw [List.append_nil]
    exact h
  | cons op more ih =>
    have hnext : store.apply op = (LogStore.new limit).run (ops ++ [op]) := by
      rw [hrun, LogStore.run, LogStore.run, List.foldl_append]
      rfl
    have hrest := ih (keepsLog_apply h hrun hfresh.1) hnext hfresh.2
    rwa [List.append_assoc] at hrest

/-- **The log store is a bounded log of the last writes**, and `list` gives the last of its
entries. -/
theorem logStore_keepsLog (limit : ℕ) (ops : List (LogOp Body))
    (hfresh : FreshAppends (LogStore.new limit) ops) :
    ((LogStore.new limit).run ops).inner.length ≤ limit ∧
      ((LogStore.new limit).run ops).KeepsLog ops ∧
      ∀ max, ((LogStore.new limit).run ops).list max =
          ((LogStore.new limit).run ops).inner.drop
            (((LogStore.new limit).run ops).inner.length - max) ∧
        (((LogStore.new limit).run ops).list max).length =
          min max ((LogStore.new limit).run ops).inner.length := by
  have hkeeps : ((LogStore.new limit).run ops).KeepsLog ops :=
    keepsLog_run (keepsLog_new limit) rfl hfresh
  refine ⟨?_, hkeeps, fun max => ⟨LogStore.list_eq_drop _ max, ?_⟩⟩
  · have hbounded := hkeeps.bounded
    rwa [LogStore.limit_run] at hbounded
  · rw [LogStore.list_eq_drop, List.length_drop]
    omega

/-- A run with an eviction, a replaced entry and an id that is new again. -/
theorem logStore_keepsLog_evicted :
    FreshAppends (LogStore.new 2 : LogStore ℕ)
        [.append ⟨"a", 0⟩, .append ⟨"b", 1⟩, .append ⟨"c", 2⟩, .upsertByTraceId ⟨"b", 3⟩,
          .upsertByTraceId ⟨"a", 4⟩] ∧
      ((LogStore.new 2).run [.append ⟨"a", 0⟩, .append ⟨"b", 1⟩, .append ⟨"c", 2⟩,
        .upsertByTraceId ⟨"b", 3⟩, .upsertByTraceId ⟨"a", 4⟩]).KeepsLog
          [.append ⟨"a", 0⟩, .append ⟨"b", 1⟩, .append ⟨"c", 2⟩, .upsertByTraceId ⟨"b", 3⟩,
            .upsertByTraceId ⟨"a", 4⟩] := by
  have hfresh : FreshAppends (LogStore.new 2 : LogStore ℕ)
      [.append ⟨"a", 0⟩, .append ⟨"b", 1⟩, .append ⟨"c", 2⟩, .upsertByTraceId ⟨"b", 3⟩,
        .upsertByTraceId ⟨"a", 4⟩] := by
    refine ⟨?_, ?_, ?_, trivial, trivial, trivial⟩ <;>
      simp [LogOp.IsFresh, LogStore.traceIds, LogStore.apply, LogStore.append, LogStore.new,
        popExcess]
  exact ⟨hfresh, (logStore_keepsLog 2 _ hfresh).2.1⟩

end AiOpenRouter
