/-
The statistics of the request events (`stats_store.rs`).

`aggregateWindow` sums the events of a window by hour, protocol, status and rule.
The rule query groups by group id, group label and rule id, and its rows are put in
a map under `group::rule`, where a later row takes the place of an earlier one.

* `requests_aggregateWindow`: the hours have every matching event;
* `accountsForRules_iff`: the rules have every matching event of theirs exactly when
  no two groups of the query have one key;
* `aggregateWindow_run`: what is cleared before a window does not change its sums.
-/
import AiOpenRouter.HashMaps
import AiOpenRouter.SqlQueries

namespace AiOpenRouter

/-! ### Events and windows -/

/-- A row of `request_events`, without its prices. -/
structure RequestEvent where
  tsEpochMs : ℤ
  hour : String
  groupId : Option String
  groupName : Option String
  ruleId : Option String
  downstreamProtocol : Option String
  model : Option String
  forwardedModel : Option String
  httpStatus : Option ℕ
  errors : ℕ
  inputTokens : ℕ
  outputTokens : ℕ
  cacheReadTokens : ℕ
  cacheWriteTokens : ℕ
  durationMs : ℕ
  hasCost : Bool
  currency : Option String

/-- `RuleSelection`. -/
inductive RuleSelection where
  | all
  | empty
  | selected (keys : List String)

/-- `StatsDimension`. -/
inductive StatsDimension where
  | rule
  | protocol
  | status
  deriving DecidableEq

/-- `format!("{group_id}::{rule_id}")`. -/
def statsRuleKey (groupId ruleId : String) : String := groupId ++ "::" ++ ruleId

/-- The clauses of `build_filters`. -/
def RequestEvent.passesFilters (event : RequestEvent) (selection : RuleSelection)
    (model : Option String) : Bool :=
  (match selection with
    | .all => true
    | .empty => false
    | .selected keys =>
      decide (statsRuleKey (event.groupId.getD "") (event.ruleId.getD "") ∈ keys)) &&
  (match model with
    | none => true
    | some value =>
      decide ((Sql.trimmedOrNull event.forwardedModel).or (Sql.trimmedOrNull event.model) =
        some value))

/-- The `WHERE` of the queries: the window, and the filters. -/
def matchingEvents (events : List RequestEvent) (startMs endMs : ℤ) (selection : RuleSelection)
    (model : Option String) : List RequestEvent :=
  events.filter fun event => decide (startMs ≤ event.tsEpochMs) &&
    decide (event.tsEpochMs < endMs) &&
    event.passesFilters selection model

/-- `group_id IS NOT NULL AND rule_id IS NOT NULL`. -/
def RequestEvent.hasRule (event : RequestEvent) : Bool :=
  event.groupId.isSome && event.ruleId.isSome

/-- `GROUP BY group_id, COALESCE(group_name, group_id), rule_id`. -/
def RequestEvent.ruleGroup (event : RequestEvent) : String × String × String :=
  (event.groupId.getD "", (event.groupName.or event.groupId).getD "", event.ruleId.getD "")

/-- The tokens of an event that the breakdowns count. -/
def RequestEvent.tokens (event : RequestEvent) : ℕ := event.inputTokens + event.outputTokens

/-- `COALESCE(NULLIF(TRIM(downstream_protocol), ''), 'unknown')`. -/
def RequestEvent.protocolKey (event : RequestEvent) : String :=
  (Sql.trimmedOrNull event.downstreamProtocol).getD "unknown"

/-- `COALESCE(CAST(http_status AS TEXT), 'unknown')`. -/
def RequestEvent.statusKey (event : RequestEvent) : String :=
  (event.httpStatus.map toString).getD "unknown"

/-! ### The aggregate -/

/-- `HourlyStatsPoint`, without its costs and speeds. -/
structure HourlyStatsPoint where
  hour : String
  requests : ℕ
  errors : ℕ
  inputTokens : ℕ
  outputTokens : ℕ
  cacheReadTokens : ℕ
  cacheWriteTokens : ℕ
  totalDurationMs : ℕ

/-- `WindowAggregate`, without its cost. -/
structure WindowAggregate where
  requests : ℕ := 0
  errors : ℕ := 0
  inputTokens : ℕ := 0
  outputTokens : ℕ := 0
  cacheReadTokens : ℕ := 0
  cacheWriteTokens : ℕ := 0
  totalDurationMs : ℕ := 0
  currencies : List String := []
  hourly : HashMap HourlyStatsPoint := HashMap.empty
  errorsByStatus : HashMap ℕ := HashMap.empty
  requestsByProtocol : HashMap ℕ := HashMap.empty
  tokensByProtocol : HashMap ℕ := HashMap.empty
  requestsByRule : HashMap (String × ℕ) := HashMap.empty
  tokensByRule : HashMap (String × ℕ) := HashMap.empty

/-- The order in which a query without `ORDER BY` returns its rows. -/
structure RowOrder where
  order : {α : Type} → List α → List α
  perm : ∀ {α : Type} (rows : List α), (order rows).Perm rows

/-- The order in which the model finds the rows. -/
def RowOrder.plain : RowOrder where
  order := id
  perm := List.Perm.refl

abbrev RuleRow := (String × String × String) × List RequestEvent

def ruleRowKey (row : RuleRow) : String := statsRuleKey row.1.1 row.1.2.2

def ruleRowLabel (row : RuleRow) : String := row.1.2.1 ++ "-" ++ row.1.2.2

def ruleRows (matching : List RequestEvent) : List RuleRow :=
  Sql.groupBy RequestEvent.ruleGroup (matching.filter RequestEvent.hasRule)

def hourlyRows (matching : List RequestEvent) : List HourlyStatsPoint :=
  (Sql.groupBy RequestEvent.hour matching).map fun row =>
    { hour := row.1
      requests := row.2.length
      errors := (row.2.map RequestEvent.errors).sum
      inputTokens := (row.2.map RequestEvent.inputTokens).sum
      outputTokens := (row.2.map RequestEvent.outputTokens).sum
      cacheReadTokens := (row.2.map RequestEvent.cacheReadTokens).sum
      cacheWriteTokens := (row.2.map RequestEvent.cacheWriteTokens).sum
      totalDurationMs := (row.2.map RequestEvent.durationMs).sum }

def addCount (counts : HashMap ℕ) (key : String) (count : ℕ) : HashMap ℕ :=
  counts.insert key ((counts.get key).getD 0 + count)

def errorsByStatus (order : RowOrder) (dimension : StatsDimension) (matching : List RequestEvent) :
    HashMap ℕ :=
  (order.order (Sql.groupBy (fun event => (event.statusKey, event.protocolKey))
      (matching.filter fun event => 0 < event.errors))).foldl
    (fun counts row => addCount counts
      (if dimension = .protocol then row.1.2 ++ " · " ++ row.1.1 else row.1.1)
      (row.2.map RequestEvent.errors).sum)
    HashMap.empty

def currenciesOf (matching : List RequestEvent) : List String :=
  (((matching.filter RequestEvent.hasCost).map fun event =>
    (Sql.trimmedOrNull event.currency).getD "").filter fun currency => !currency.isEmpty).dedup

/-- `aggregate_window`. -/
def aggregateWindow (order : RowOrder) (events : List RequestEvent) (startMs endMs : ℤ)
    (selection : RuleSelection) (dimension : StatsDimension) (model : Option String) :
    WindowAggregate :=
  match selection with
  | .empty => {}
  | _ =>
    let matching := matchingEvents events startMs endMs selection model
    let hours := hourlyRows matching
    let protocols := order.order (Sql.groupBy RequestEvent.protocolKey matching)
    let rules := order.order (ruleRows matching)
    { requests := (hours.map HourlyStatsPoint.requests).sum
      errors := (hours.map HourlyStatsPoint.errors).sum
      inputTokens := (hours.map HourlyStatsPoint.inputTokens).sum
      outputTokens := (hours.map HourlyStatsPoint.outputTokens).sum
      cacheReadTokens := (hours.map HourlyStatsPoint.cacheReadTokens).sum
      cacheWriteTokens := (hours.map HourlyStatsPoint.cacheWriteTokens).sum
      totalDurationMs := (hours.map HourlyStatsPoint.totalDurationMs).sum
      currencies := currenciesOf matching
      hourly := HashMap.ofEntries (hours.map fun point => (point.hour, point))
      errorsByStatus := errorsByStatus order dimension matching
      requestsByProtocol :=
        HashMap.ofEntries (protocols.map fun row => (row.1, row.2.length))
      tokensByProtocol :=
        HashMap.ofEntries (protocols.map fun row =>
          (row.1, (row.2.map RequestEvent.tokens).sum))
      requestsByRule :=
        HashMap.ofEntries (rules.map fun row =>
          (ruleRowKey row, ruleRowLabel row, row.2.length))
      tokensByRule :=
        HashMap.ofEntries (rules.map fun row =>
          (ruleRowKey row, ruleRowLabel row, (row.2.map RequestEvent.tokens).sum)) }

/-! ### What the aggregate counts -/

/-- The matching events that have a group and a rule. -/
def ruleEvents (events : List RequestEvent) (startMs endMs : ℤ) (selection : RuleSelection)
    (model : Option String) : List RequestEvent :=
  (matchingEvents events startMs endMs selection model).filter RequestEvent.hasRule

/-- **The rules of an aggregate account for events**: their counts and their tokens sum up to those
of the events, and each rule that an event names has the number of its events. -/
def AccountsForRules (counted : List RequestEvent) (aggregate : WindowAggregate) : Prop :=
  aggregate.requestsByRule.sumOf Prod.snd = counted.length ∧
    aggregate.tokensByRule.sumOf Prod.snd = (counted.map RequestEvent.tokens).sum ∧
    ∀ groupId ruleId, (∃ event ∈ counted, event.groupId = some groupId ∧
        event.ruleId = some ruleId) →
      (aggregate.requestsByRule.get (statsRuleKey groupId ruleId)).map Prod.snd =
        some (counted.countP fun event =>
          event.groupId = some groupId && event.ruleId = some ruleId)

theorem matchingEvents_empty (events : List RequestEvent) (startMs endMs : ℤ)
    (model : Option String) : matchingEvents events startMs endMs .empty model = [] := by
  rw [matchingEvents, List.filter_eq_nil_iff]
  intro event _
  simp [RequestEvent.passesFilters]

theorem order_nil (order : RowOrder) (α : Type) : order.order ([] : List α) = [] :=
  (order.perm []).eq_nil

section

variable (order : RowOrder) (events : List RequestEvent) (startMs endMs : ℤ)
  (selection : RuleSelection) (dimension : StatsDimension) (model : Option String)

theorem rules_aggregateWindow :
    (aggregateWindow order events startMs endMs selection dimension model).requestsByRule =
        HashMap.ofEntries ((order.order
            (ruleRows (matchingEvents events startMs endMs selection model))).map fun row =>
          (ruleRowKey row, ruleRowLabel row, row.2.length)) ∧
      (aggregateWindow order events startMs endMs selection dimension model).tokensByRule =
        HashMap.ofEntries ((order.order
            (ruleRows (matchingEvents events startMs endMs selection model))).map fun row =>
          (ruleRowKey row, ruleRowLabel row, (row.2.map RequestEvent.tokens).sum)) := by
  cases selection with
  | all => exact ⟨rfl, rfl⟩
  | selected keys => exact ⟨rfl, rfl⟩
  | empty =>
    have hrows : ruleRows (matchingEvents events startMs endMs .empty model) = [] := by
      rw [matchingEvents_empty]
      rfl
    rw [hrows, order_nil]
    exact ⟨rfl, rfl⟩

theorem requests_aggregateWindow :
    (aggregateWindow order events startMs endMs selection dimension model).requests =
      (matchingEvents events startMs endMs selection model).length := by
  have hours : ∀ matching, ((hourlyRows matching).map HourlyStatsPoint.requests).sum =
      matching.length := by
    intro matching
    rw [hourlyRows, List.map_map]
    exact Sql.sum_length_groupBy matching
  cases selection with
  | all => exact hours _
  | selected keys => exact hours _
  | empty =>
    rw [matchingEvents_empty]
    rfl

end

/-! ### Rules that are lost -/

theorem eq_of_ruleGroup_eq {event other : RequestEvent} (h : event.hasRule = true)
    (hother : other.hasRule = true) (heq : event.ruleGroup = other.ruleGroup) :
    event.groupId = other.groupId ∧ event.ruleId = other.ruleId := by
  rw [RequestEvent.hasRule, Bool.and_eq_true] at h hother
  obtain ⟨groupId, hgroup⟩ := Option.isSome_iff_exists.1 h.1
  obtain ⟨ruleId, hrule⟩ := Option.isSome_iff_exists.1 h.2
  obtain ⟨groupId', hgroup'⟩ := Option.isSome_iff_exists.1 hother.1
  obtain ⟨ruleId', hrule'⟩ := Option.isSome_iff_exists.1 hother.2
  rw [RequestEvent.ruleGroup, RequestEvent.ruleGroup, hgroup, hgroup', hrule, hrule',
    Prod.mk.injEq, Prod.mk.injEq] at heq
  rw [hgroup, hgroup', hrule, hrule']
  exact ⟨congrArg some heq.1, congrArg some heq.2.2⟩

/-- The key that the aggregate stores an event under. -/
def RequestEvent.storedKey (event : RequestEvent) : String :=
  statsRuleKey (event.groupId.getD "") (event.ruleId.getD "")

theorem ruleRowKey_eq {row : RuleRow} {event : RequestEvent} (hevent : event.ruleGroup = row.1) :
    ruleRowKey row = event.storedKey := by
  rw [ruleRowKey, ← hevent]
  rfl

theorem nodup_ruleRowKey_iff (counted : List RequestEvent) :
    ((Sql.groupBy RequestEvent.ruleGroup counted).map ruleRowKey).Nodup ↔
      ∀ event ∈ counted, ∀ other ∈ counted, event.storedKey = other.storedKey →
        event.ruleGroup = other.ruleGroup := by
  have hrow : ∀ event ∈ counted, (event.ruleGroup, counted.filter fun other =>
      other.ruleGroup = event.ruleGroup) ∈ Sql.groupBy RequestEvent.ruleGroup counted :=
    fun event hevent => Sql.mem_groupBy_iff.2 ⟨⟨event, hevent, rfl⟩, rfl⟩
  have hnodup : (Sql.groupBy RequestEvent.ruleGroup counted).Nodup := by
    refine List.Nodup.of_map Prod.fst ?_
    rw [Sql.map_fst_groupBy]
    exact List.nodup_dedup _
  constructor
  · intro h event hevent other hother heq
    have hrows := List.inj_on_of_nodup_map h (hrow event hevent) (hrow other hother) heq
    exact (Prod.mk.inj hrows).1
  · intro h
    refine (List.nodup_map_iff_inj_on hnodup).2 ?_
    rintro ⟨group, members⟩ hmem ⟨group', members'⟩ hmem' heq
    obtain ⟨⟨event, hevent, rfl⟩, rfl⟩ := Sql.mem_groupBy_iff.1 hmem
    obtain ⟨⟨other, hother, rfl⟩, rfl⟩ := Sql.mem_groupBy_iff.1 hmem'
    rw [h event hevent other hother heq]

/-- **The rules of a window account for every matching event of theirs exactly when the events that
are stored under one key have one group id, one group label and one rule id.** -/
theorem accountsForRules_iff (order : RowOrder) (events : List RequestEvent) (startMs endMs : ℤ)
    (selection : RuleSelection) (dimension : StatsDimension) (model : Option String) :
    AccountsForRules (ruleEvents events startMs endMs selection model)
        (aggregateWindow order events startMs endMs selection dimension model) ↔
      ∀ event ∈ ruleEvents events startMs endMs selection model,
        ∀ other ∈ ruleEvents events startMs endMs selection model,
          event.storedKey = other.storedKey → event.ruleGroup = other.ruleGroup := by
  obtain ⟨hrequests, htokens⟩ :=
    rules_aggregateWindow order events startMs endMs selection dimension model
  rw [← nodup_ruleRowKey_iff]
  unfold AccountsForRules
  rw [hrequests, htokens]
  change _ ↔ ((ruleRows (matchingEvents events startMs endMs selection model)).map ruleRowKey).Nodup
  have hcounted : ruleEvents events startMs endMs selection model =
    (matchingEvents events startMs endMs selection model).filter RequestEvent.hasRule := rfl
  rw [hcounted]
  generalize matchingEvents events startMs endMs selection model = matching
  have hperm := order.perm (ruleRows matching)
  -- the rows of the query, in the order of the query, sum up to the events
  have hlength : (((order.order (ruleRows matching)).map fun row =>
      (ruleRowKey row, ruleRowLabel row, row.2.length)).map fun entry => entry.2.2).sum =
        (matching.filter RequestEvent.hasRule).length := by
    rw [List.map_map, (hperm.map _).sum_eq]
    exact Sql.sum_length_groupBy _
  have htokenSum : (((order.order (ruleRows matching)).map fun row =>
      (ruleRowKey row, ruleRowLabel row, (row.2.map RequestEvent.tokens).sum)).map
        fun entry => entry.2.2).sum =
        ((matching.filter RequestEvent.hasRule).map RequestEvent.tokens).sum := by
    rw [List.map_map, (hperm.map _).sum_eq]
    exact Sql.sum_groupBy RequestEvent.tokens _
  have hkeys : ∀ value : RuleRow → ℕ, (((order.order (ruleRows matching)).map fun row =>
      (ruleRowKey row, ruleRowLabel row, value row)).map Prod.fst).Nodup ↔
        ((ruleRows matching).map ruleRowKey).Nodup := by
    intro value
    rw [List.map_map]
    exact (hperm.map ruleRowKey).nodup_iff
  constructor
  · rintro ⟨hcount, -, -⟩
    rw [← hkeys fun row => row.2.length]
    refine (HashMap.sumOf_ofEntries_eq_iff (f := Prod.snd) fun entry hentry => ?_).1
      (hcount.trans hlength.symm)
    obtain ⟨row, hrow, rfl⟩ := List.mem_map.1 hentry
    exact Sql.length_pos_of_mem_groupBy (hperm.mem_iff.1 hrow)
  · intro hnodup
    refine ⟨?_, ?_, ?_⟩
    · rw [HashMap.sumOf, HashMap.entries_ofEntries ((hkeys _).2 hnodup)]
      exact hlength
    · rw [HashMap.sumOf, HashMap.entries_ofEntries ((hkeys _).2 hnodup)]
      exact htokenSum
    · rintro groupId ruleId ⟨event, hevent, hgroup, hrule⟩
      have hrow : (event.ruleGroup, (matching.filter RequestEvent.hasRule).filter fun other =>
          other.ruleGroup = event.ruleGroup) ∈ ruleRows matching :=
        Sql.mem_groupBy_iff.2 ⟨⟨event, hevent, rfl⟩, rfl⟩
      have hkey : ruleRowKey (event.ruleGroup, (matching.filter RequestEvent.hasRule).filter
          fun other => other.ruleGroup = event.ruleGroup) = statsRuleKey groupId ruleId := by
        rw [@ruleRowKey_eq _ event rfl, RequestEvent.storedKey, hgroup, hrule]
        rfl
      have hmem := List.mem_map_of_mem (f := fun row : RuleRow =>
        (ruleRowKey row, ruleRowLabel row, row.2.length)) (hperm.mem_iff.2 hrow)
      rw [← HashMap.entries_ofEntries ((hkeys fun row => row.2.length).2 hnodup),
        ← HashMap.get_eq_some_iff, hkey] at hmem
      rw [hmem, Option.map_some, ← List.countP_eq_length_filter]
      refine congrArg some (List.countP_congr fun other hother => ?_)
      have hinj := (nodup_ruleRowKey_iff (matching.filter RequestEvent.hasRule)).1 hnodup
      rw [decide_eq_true_eq, Bool.and_eq_true, decide_eq_true_eq, decide_eq_true_eq, ← hgroup,
        ← hrule]
      refine ⟨eq_of_ruleGroup_eq (List.mem_filter.1 hother).2 (List.mem_filter.1 hevent).2,
        fun heq => hinj other hother event hevent ?_⟩
      rw [RequestEvent.storedKey, heq.1, heq.2]
      rfl

/-! ### The stored events -/

/-- What changes the table: an event that `append_log` takes, `clear` and `clear_before`. -/
inductive StatsOp where
  | append (event : RequestEvent)
  | clear
  | clearBefore (beforeEpochMs : ℤ)

/-- The table behind a change of it. -/
def StatsOp.apply (events : List RequestEvent) : StatsOp → List RequestEvent
  | append event => events ++ [event]
  | clear => []
  | clearBefore beforeEpochMs => events.filter fun event =>
    !decide (event.tsEpochMs < beforeEpochMs)

def StatsOp.appended : StatsOp → Option RequestEvent
  | append event => some event
  | _ => none

/-- No event from a time on is deleted. -/
def StatsOp.KeepsFrom (startMs : ℤ) : StatsOp → Prop
  | append _ => True
  | clear => False
  | clearBefore beforeEpochMs => beforeEpochMs ≤ startMs

theorem matchingEvents_run {startMs endMs : ℤ} {selection : RuleSelection} {model : Option String}
    {ops : List StatsOp} (h : ∀ op ∈ ops, op.KeepsFrom startMs) (events : List RequestEvent) :
    matchingEvents (ops.foldl StatsOp.apply events) startMs endMs selection model =
      matchingEvents (events ++ ops.filterMap StatsOp.appended) startMs endMs selection model := by
  induction ops generalizing events with
  | nil => rw [List.foldl_nil, List.filterMap_nil, List.append_nil]
  | cons op ops ih =>
    rw [List.foldl_cons, ih (fun other hother => h other (List.mem_cons_of_mem op hother))]
    cases op with
    | append event => rw [StatsOp.apply, List.append_assoc]; rfl
    | clear => exact absurd (h .clear List.mem_cons_self) id
    | clearBefore beforeEpochMs =>
      have hle : beforeEpochMs ≤ startMs := h _ List.mem_cons_self
      rw [StatsOp.apply, matchingEvents, matchingEvents, List.filter_append, List.filter_append,
        List.filter_filter]
      congr 1
      refine List.filter_congr fun event _ => ?_
      by_cases hbefore : event.tsEpochMs < beforeEpochMs
      · have hstart : ¬ startMs ≤ event.tsEpochMs := by omega
        simp [hstart]
      · simp [hbefore]

/-- **Clearing up to a time leaves the windows behind it alone**: they summarise all events that
have been appended, whatever was cleared before their start. -/
theorem aggregateWindow_run (order : RowOrder) {startMs : ℤ} {ops : List StatsOp}
    (h : ∀ op ∈ ops, op.KeepsFrom startMs) (events : List RequestEvent) (endMs : ℤ)
    (selection : RuleSelection) (dimension : StatsDimension) (model : Option String) :
    aggregateWindow order (ops.foldl StatsOp.apply events) startMs endMs selection dimension model =
      aggregateWindow order (events ++ ops.filterMap StatsOp.appended) startMs endMs selection
        dimension model := by
  unfold aggregateWindow
  split
  · rfl
  · rw [matchingEvents_run h]

def sampleEvent (groupName : String) : RequestEvent where
  tsEpochMs := 1
  hour := "2026-01-01T00:00:00Z"
  groupId := some "dev"
  groupName := some groupName
  ruleId := some "p1"
  downstreamProtocol := none
  model := none
  forwardedModel := none
  httpStatus := some 200
  errors := 0
  inputTokens := 1
  outputTokens := 1
  cacheReadTokens := 0
  cacheWriteTokens := 0
  durationMs := 1
  hasCost := false
  currency := none

theorem aggregateWindow_run_cleared :
    aggregateWindow RowOrder.plain ([.append (sampleEvent "Old"), .clearBefore 1].foldl
        StatsOp.apply []) 1 2 .all .rule none =
      aggregateWindow RowOrder.plain [sampleEvent "Old"] 1 2 .all .rule none :=
  aggregateWindow_run RowOrder.plain (by
    intro op hop
    simp only [List.mem_cons, List.not_mem_nil, or_false] at hop
    rcases hop with rfl | rfl
    · trivial
    · exact Int.le_refl 1) [] 2 .all .rule none

/-- A group that was renamed between two requests loses one of them. -/
theorem not_accountsForRules_renamed :
    (aggregateWindow RowOrder.plain [sampleEvent "Old", sampleEvent "New"] 0 2 .all .rule
        none).requestsByRule.entries = [("dev::p1", "New-p1", 1)] ∧
      ¬ AccountsForRules (ruleEvents [sampleEvent "Old", sampleEvent "New"] 0 2 .all none)
        (aggregateWindow RowOrder.plain [sampleEvent "Old", sampleEvent "New"] 0 2 .all .rule
          none) := by
  refine ⟨by decide, fun h => ?_⟩
  have hcount := h.1
  revert hcount
  decide

end AiOpenRouter
