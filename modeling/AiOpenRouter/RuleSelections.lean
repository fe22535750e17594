/-
The rule keys of a statistics request, in the browser and in the desktop app (`http.ts`,
`ipc.ts`, `http_api.rs`, `stats_store.rs`).

The desktop app sends the keys as a list. The browser joins them with commas and leaves an
empty list out, and the server cuts the text at the commas.

* `deserializeRuleKeys_joinCommas`: what the browser sends is read back as the listed keys, up to
  blanks at their ends, when the list is not empty and no key has a comma;
* `selectsAlike_iff`: the two summaries are one, and count exactly the listed events, in exactly
  this case, where the blanks around a provider id select nothing else (in the dimension of the
  rules: the other dimensions leave the keys out).
-/
import AiOpenRouter.ProviderLookups
import AiOpenRouter.SseParsers
import AiOpenRouter.StatsStore
import AiOpenRouter.ThinkTags
import AiOpenRouter.TrimmedPieces
import Mathlib.Data.List.Sort

namespace AiOpenRouter

/-! ### The request of the browser -/

/-- A value of the object that `buildQuery` is given. -/
inductive QueryValue where
  | missing
  | text (value : String)
  | array (entries : List (Option String))

/-- `QueryArrayFormat`. -/
inductive QueryArrayFormat where
  | repeated
  | csv

/-- `entries.join(",")`. -/
def joinCommas (entries : List String) : String :=
  String.ofList ([','].intercalate (entries.map String.toList))

/-- `buildQuery`, as the pairs of the query. An object has each key once, so that `set` adds a
pair. -/
def buildQuery (params : List (String × QueryValue))
    (arrayFormatByKey : String → Option QueryArrayFormat) : List (String × String) :=
  params.flatMap fun param =>
    match param.2 with
    | .missing => []
    | .text value => [(param.1, value)]
    | .array values =>
      let entries := values.filterMap id
      if entries.isEmpty then [] else
        match (arrayFormatByKey param.1).getD .repeated with
        | .csv => [(param.1, joinCommas entries)]
        | .repeated => entries.map fun entry => (param.1, entry)

/-- `deserialize_rule_keys`. A query gives it a text, and never a list. -/
def deserializeRuleKeys (text : String) : List String :=
  ((text.toList.splitOn ',').map fun item => String.ofList (Text.trim item)).filter (· ≠ "")

/-- The arguments of `getLogsStatsSummary` besides the rule keys. -/
structure StatsCall where
  hours : Option ℕ
  ruleKey : Option String
  dimension : Option String
  enableComparison : Option Bool
  model : Option String

/-- What `buildQuery` makes of the rule keys of a call. -/
def ruleKeysQuery (ruleKeys : Option (List String)) : List (String × String) :=
  buildQuery [("ruleKeys", (ruleKeys.map fun keys => .array (keys.map some)).getD .missing)]
    fun key => if key = "ruleKeys" then some .csv else none

/-- `LogsStatsSummaryQuery::rule_keys`, from the query of a call. -/
def receivedRuleKeys (ruleKeys : Option (List String)) : Option (List String) :=
  ((ruleKeysQuery ruleKeys).find? (·.1 = "ruleKeys")).map fun pair => deserializeRuleKeys pair.2

/-! ### The summary -/

/-- `normalize_rule_key`. -/
def normalizeRuleKey (ruleKey : String) : Option String :=
  let parts := (Text.splitFirst [':', ':'] ruleKey.toList).getD (ruleKey.toList, [])
  let group := Text.trim parts.1
  let rule := Text.trim parts.2
  if group.isEmpty || rule.isEmpty then none
  else some (statsRuleKey (String.ofList group) (String.ofList rule))

/-- A `HashSet` of texts, in the order in which `build_filters` and `selection_to_rule_keys` read
it. -/
def sortedSet (texts : List String) : List String := texts.dedup.insertionSort (· ≤ ·)

/-- `normalize_rule_selection`. -/
def normalizeRuleSelection (ruleKeys : Option (List String)) (legacyRuleKey : Option String) :
    RuleSelection :=
  match ruleKeys with
  | some keys =>
    if keys.isEmpty then .empty
    else
      let set := sortedSet (keys.filterMap normalizeRuleKey)
      if set.isEmpty then .empty else .selected set
  | none =>
    match legacyRuleKey.bind normalizeRuleKey with
    | some single => .selected [single]
    | none => .all

/-- `selection_to_rule_keys`. -/
def selectionToRuleKeys : RuleSelection → Option (List String)
  | .all => none
  | .empty => some []
  | .selected keys => some keys

/-- `normalize_dimension`. -/
def normalizeDimension (dimension : Option String) : StatsDimension :=
  match trimmed (dimension.getD "") with
  | "protocol" => .protocol
  | "status" => .status
  | _ => .rule

/-- `normalize_model_filter`. -/
def normalizeModelFilter (model : Option String) : Option String :=
  (model.map trimmed).filter fun value => value ≠ "" && value ≠ "all"

/-- `StatsRuleOption`. -/
structure StatsRuleOption where
  key : String
  label : String
  groupId : String
  ruleId : String

/-- `query_rule_options`: the rows come in the order of the group and the rule. -/
def queryRuleOptions (order : RowOrder) (events : List RequestEvent) : List StatsRuleOption :=
  let rows := (order.order (((events.filter RequestEvent.hasRule).map fun event =>
    (event.groupId.getD "", event.groupName, event.ruleId.getD "")).dedup)).insertionSort
      fun a b => a.1 < b.1 ∨ a.1 = b.1 ∧ a.2.2 ≤ b.2.2
  rows.map fun row =>
    { key := statsRuleKey row.1 row.2.2
      label := row.2.1.getD row.1 ++ "-" ++ row.2.2
      groupId := row.1
      ruleId := row.2.2 }

/-- `StatsSummaryResult`. Its numbers, hours and breakdowns are those of the aggregate of the
window, and its comparison is computed from this one and from that of the window before. -/
structure StatsSummaryResult where
  dimension : StatsDimension
  hours : ℕ
  ruleKey : Option String
  ruleKeys : Option (List String)
  current : WindowAggregate
  comparison : Option WindowAggregate
  options : List StatsRuleOption

/-- `requested_hours`. -/
def requestedHours (hours : Option ℕ) : ℕ := max 1 (min (hours.getD 24) (24 * 90))

/-- The start of a window of hours, in milliseconds. -/
def windowStart (hours : ℕ) (windowEnd : ℤ) : ℤ := windowEnd - hours * 3600000

/-- The selection of a request: only the dimension of the rules has one. -/
def statsSelection (ruleKeys : Option (List String)) (call : StatsCall) : RuleSelection :=
  match normalizeDimension call.dimension with
  | .rule => normalizeRuleSelection ruleKeys call.ruleKey
  | _ => .all

/-- `normalized_rule_keys`. -/
def normalizedRuleKeys (ruleKeys : Option (List String)) (call : StatsCall) :
    Option (List String) :=
  match normalizeDimension call.dimension with
  | .rule => selectionToRuleKeys (statsSelection ruleKeys call)
  | _ => none

/-- `StatsStore::summarize`. -/
def summarize (order : RowOrder) (events : List RequestEvent) (now : ℤ)
    (ruleKeys : Option (List String)) (call : StatsCall) : StatsSummaryResult :=
  let hours := requestedHours call.hours
  let dimension := normalizeDimension call.dimension
  let selection := statsSelection ruleKeys call
  let aggregate := fun windowEnd =>
    aggregateWindow order events (windowStart hours windowEnd) windowEnd selection dimension
      (normalizeModelFilter call.model)
  let summary : StatsSummaryResult :=
    { dimension := dimension
      hours := hours
      ruleKey := call.ruleKey
      ruleKeys := normalizedRuleKeys ruleKeys call
      current := {}
      comparison := none
      options := [] }
  match selection with
  | .empty => summary
  | _ =>
    { summary with
      current := aggregate now
      comparison :=
        if call.enableComparison.getD false then some (aggregate (windowStart hours now)) else none
      options := queryRuleOptions order events }

/-- The summary that the browser gets. -/
def httpSummary (order : RowOrder) (events : List RequestEvent) (now : ℤ) (ruleKeys : List String)
    (call : StatsCall) : StatsSummaryResult :=
  summarize order events now (receivedRuleKeys (some ruleKeys)) call

/-- The summary that the desktop app gets. -/
def ipcSummary (order : RowOrder) (events : List RequestEvent) (now : ℤ) (ruleKeys : List String)
    (call : StatsCall) : StatsSummaryResult :=
  summarize order events now (some ruleKeys) call

/-! ### What a selection says -/

/-- The text of a rule key. -/
def ruleKeyText (key : String × String) : String := statsRuleKey key.1 key.2

/-- A key of a group of a configuration. The provider may be any: nothing checks the ids in a
routing table. -/
def TakenFrom (config : ProxyConfig) (key : String × String) : Prop :=
  ∃ group ∈ config.groups, key.1 = group.id

/-- An event has a group and a rule, and they form one of the keys. -/
def RequestEvent.isListed (keys : List (String × String)) (event : RequestEvent) : Bool :=
  event.hasRule && decide (event.storedKey ∈ keys.map ruleKeyText)

/-- The events that a request asks for, whatever their rules: those of its window and model. -/
def askedEvents (events : List RequestEvent) (now : ℤ) (call : StatsCall) : List RequestEvent :=
  matchingEvents events (windowStart (requestedHours call.hours) now) now .all
    (normalizeModelFilter call.model)

/-- A key without the blanks around its provider id: none, when nothing is left of the id. -/
def trimmedKeyText (key : String × String) : Option String :=
  if trimmed key.2 = "" then none else some (ruleKeyText (key.1, trimmed key.2))

/-- A summary counts exactly the events of a list: its numbers are those of these events. -/
def CountsExactly (order : RowOrder) (counted : List RequestEvent) (now : ℤ) (call : StatsCall)
    (summary : StatsSummaryResult) : Prop :=
  summary.current =
    aggregateWindow order counted (windowStart (requestedHours call.hours) now) now .all
      (normalizeDimension call.dimension) (normalizeModelFilter call.model)

/-- **A list of rule keys means the same in the browser and in the desktop app**, and is the
selection of the events that it lists. -/
def SelectsAlike (order : RowOrder) (events : List RequestEvent) (now : ℤ)
    (keys : List (String × String)) (call : StatsCall) : Prop :=
  httpSummary order events now (keys.map ruleKeyText) call =
      ipcSummary order events now (keys.map ruleKeyText) call ∧
    CountsExactly order (events.filter (RequestEvent.isListed keys)) now call
      (httpSummary order events now (keys.map ruleKeyText) call) ∧
    CountsExactly order (events.filter (RequestEvent.isListed keys)) now call
      (ipcSummary order events now (keys.map ruleKeyText) call)

/-! ### Keys of an accepted configuration -/

/-- A key whose group is a word. -/
structure PlainKey (key : String × String) : Prop where
  group : key.1 ≠ ""
  chars : ∀ c ∈ key.1.toList, Text.isWhitespace c = false ∧ c ≠ ':' ∧ c ≠ ','

theorem plain_of_groupChar {c : Char} (h : (c.isAlphanum || c = '_' || c = '-') = true) :
    Text.isWhitespace c = false ∧ c ≠ ':' ∧ c ≠ ',' := by
  rw [Bool.or_eq_true, Bool.or_eq_true, decide_eq_true_eq, decide_eq_true_eq] at h
  rcases h with (halnum | rfl) | rfl
  · refine ⟨isWhitespace_of_isAlphanum halnum, ?_, ?_⟩
    · rintro rfl
      exact absurd halnum (by decide)
    · rintro rfl
      exact absurd halnum (by decide)
  · decide
  · decide

/-- **The groups of an accepted configuration are words.** -/
theorem plainKey_of_accepted {env : NormalizeEnv} {config saved : ProxyConfig}
    (haccept : acceptConfig env config = .ok saved) {key : String × String}
    (h : TakenFrom saved key) : PlainKey key := by
  obtain ⟨group, hgroup, hkey⟩ := h
  obtain ⟨rfl, hcheck⟩ := acceptConfig_eq_ok_iff.1 haccept
  have hvalid := validateConfig_ok_iff.1 hcheck
  have husable := hvalid.groups group hgroup
  have hid := husable.id
  rw [trimmed_groupId hvalid hgroup] at hid
  refine ⟨hkey ▸ hid, ?_⟩
  rw [hkey]
  exact fun c hc => plain_of_groupChar (List.all_eq_true.1 husable.chars c hc)

variable {keys : List (String × String)} {text : String}

theorem toList_ruleKeyText (key : String × String) :
    (ruleKeyText key).toList = key.1.toList ++ [':', ':'] ++ key.2.toList := by
  rw [ruleKeyText, statsRuleKey, String.toList_append, String.toList_append]
  rfl

namespace PlainKey

variable {key : String × String}

theorem toList_group_ne (h : PlainKey key) : key.1.toList ≠ [] :=
  fun hnil => h.group (String.toList_eq_nil_iff.1 hnil)

theorem noEdges_group (h : PlainKey key) :
    TrimmedPieces.NoEdges Text.isWhitespace key.1.toList :=
  ⟨fun c hc => (h.chars c (List.mem_of_mem_head? hc)).1,
    fun c hc => (h.chars c (List.mem_of_mem_getLast? hc)).1⟩

theorem normalizeRuleKey_ofList (h : PlainKey key) (rest : List Char) :
    normalizeRuleKey (String.ofList (key.1.toList ++ [':', ':'] ++ rest)) =
      if Text.trim rest = [] then none
      else some (statsRuleKey key.1 (String.ofList (Text.trim rest))) := by
  have hsplit : Text.splitFirst [':', ':'] (key.1.toList ++ [':', ':'] ++ rest) =
      some (key.1.toList, rest) :=
    Text.splitFirst_of_endsFirst _
      (Text.endsFirst_of_notMem fun hcolon => (h.chars ':' hcolon).2.1 rfl)
  have hgroup : Text.trim key.1.toList = key.1.toList := TrimmedPieces.core_eq_self h.noEdges_group
  unfold normalizeRuleKey
  rw [String.toList_ofList, hsplit, Option.getD_some]
  dsimp only
  rw [hgroup, List.isEmpty_eq_false_iff.2 h.toList_group_ne, Bool.false_or, String.ofList_toList]
  exact if_congr List.isEmpty_iff rfl rfl

/-- **A key is read without the blanks around its provider id.** -/
theorem normalizeRuleKey_text (h : PlainKey key) :
    normalizeRuleKey (ruleKeyText key) = trimmedKeyText key := by
  have htext : ruleKeyText key = String.ofList (key.1.toList ++ [':', ':'] ++ key.2.toList) := by
    rw [← toList_ruleKeyText, String.ofList_toList]
  have hempty : Text.trim key.2.toList = [] ↔ trimmed key.2 = "" := by
    rw [← String.toList_eq_nil_iff, trimmed, String.toList_ofList]
  rw [htext, h.normalizeRuleKey_ofList, trimmedKeyText]
  exact if_congr hempty rfl rfl

theorem toList_trimmed_text (h : PlainKey key) : (trimmed (ruleKeyText key)).toList =
    key.1.toList ++ [':', ':'] ++ key.2.toList.rdropWhile Text.isWhitespace := by
  have hgroup : (key.1.toList ++ [':']).dropWhile Text.isWhitespace = key.1.toList ++ [':'] := by
    rw [TrimmedPieces.dropWhile_append_cons (by decide),
      TrimmedPieces.dropWhile_of_head h.noEdges_group.1]
  have htrim := TrimmedPieces.core_append_cons (p := Text.isWhitespace) (a := ':') (by decide)
    (key.1.toList ++ [':']) key.2.toList
  rw [hgroup] at htrim
  have htext : (ruleKeyText key).toList = key.1.toList ++ [':'] ++ ':' :: key.2.toList := by
    rw [toList_ruleKeyText]
    simp
  rw [trimmed, String.toList_ofList, htext]
  refine Eq.trans htrim ?_
  simp

theorem normalizeRuleKey_trimmed (h : PlainKey key) :
    normalizeRuleKey (trimmed (ruleKeyText key)) = trimmedKeyText key := by
  have htrim : Text.trim (key.2.toList.rdropWhile Text.isWhitespace) = Text.trim key.2.toList :=
    TrimmedPieces.core_rdropWhile key.2.toList
  rw [← String.ofList_toList (s := trimmed (ruleKeyText key)), h.toList_trimmed_text,
    h.normalizeRuleKey_ofList, htrim, ← h.normalizeRuleKey_ofList, ← toList_ruleKeyText,
    String.ofList_toList, h.normalizeRuleKey_text]

end PlainKey

/-! ### What the server reads -/

theorem receivedRuleKeys_nil : receivedRuleKeys (some []) = none := rfl

theorem receivedRuleKeys_of_ne_nil {texts : List String} (h : texts ≠ []) :
    receivedRuleKeys (some texts) = some (deserializeRuleKeys (joinCommas texts)) := by
  obtain ⟨first, rest, rfl⟩ := List.exists_cons_of_ne_nil h
  have hentries : ((first :: rest).map some).filterMap id = first :: rest := by
    rw [List.filterMap_map, Function.id_comp, List.filterMap_some]
  unfold receivedRuleKeys ruleKeysQuery buildQuery
  rw [Option.map_some, Option.getD_some, List.flatMap_singleton]
  dsimp only
  rw [hentries]
  rfl

/-- **Keys without commas are read back as they were sent**, up to blanks at their ends. -/
theorem deserializeRuleKeys_joinCommas (hne : keys ≠ []) (hplain : ∀ key ∈ keys, PlainKey key)
    (hcommas : ∀ key ∈ keys, ',' ∉ key.2.toList) :
    deserializeRuleKeys (joinCommas (keys.map ruleKeyText)) =
      (keys.map ruleKeyText).map trimmed := by
  have hsplit : ([','].intercalate ((keys.map ruleKeyText).map String.toList)).splitOn ',' =
      (keys.map ruleKeyText).map String.toList := by
    refine List.splitOn_intercalate ',' ?_ fun hnil => hne ?_
    · intro text htext hcomma
      obtain ⟨_, hmem, rfl⟩ := List.mem_map.1 htext
      obtain ⟨key, hkey, rfl⟩ := List.mem_map.1 hmem
      rw [toList_ruleKeyText, List.mem_append, List.mem_append] at hcomma
      rcases hcomma with (hgroup | hcolon) | hprovider
      · exact ((hplain key hkey).chars ',' hgroup).2.2 rfl
      · exact absurd hcolon (by decide)
      · exact hcommas key hkey hprovider
    · exact List.map_eq_nil_iff.1 (List.map_eq_nil_iff.1 hnil)
  unfold deserializeRuleKeys joinCommas
  rw [String.toList_ofList, hsplit, List.map_map, List.filter_eq_self.2]
  · rfl
  · intro text htext
    obtain ⟨_, hmem, rfl⟩ := List.mem_map.1 htext
    obtain ⟨key, hkey, rfl⟩ := List.mem_map.1 hmem
    refine decide_eq_true fun hempty => ?_
    have hlist := congrArg String.toList hempty
    change (trimmed (ruleKeyText key)).toList = _ at hlist
    rw [(hplain key hkey).toList_trimmed_text] at hlist
    simp at hlist

theorem notMem_of_mem_splitOn {α : Type} [DecidableEq α] {separator : α} {xs part : List α}
    (h : part ∈ xs.splitOn separator) : separator ∉ part := by
  induction xs generalizing part with
  | nil =>
    rw [List.splitOn_nil, List.mem_singleton] at h
    rw [h]
    exact List.not_mem_nil
  | cons x xs ih =>
    obtain ⟨first, rest, hxs⟩ := List.exists_cons_of_ne_nil (List.splitOn_ne_nil separator xs)
    rw [List.splitOn_cons_eq_if_modifyHead, hxs] at h
    rw [hxs] at ih
    split_ifs at h with hx
    · rcases List.mem_cons.1 h with rfl | h
      · exact List.not_mem_nil
      · exact ih h
    · rw [List.modifyHead_cons, List.mem_cons] at h
      rcases h with rfl | h
      · intro hmem
        rcases List.mem_cons.1 hmem with rfl | hmem
        · exact hx (beq_self_eq_true _)
        · exact ih List.mem_cons_self hmem
      · exact ih (List.mem_cons_of_mem _ h)

theorem mem_of_normalizeRuleKey {key normalized : String} {c : Char} (hcolon : c ≠ ':')
    (h : normalizeRuleKey key = some normalized) (hc : c ∈ normalized.toList) :
    c ∈ key.toList := by
  unfold normalizeRuleKey at h
  dsimp only at h
  split_ifs at h
  rw [← Option.some.inj h, statsRuleKey, String.toList_append, String.toList_append,
    List.mem_append, List.mem_append] at hc
  simp only [String.toList_ofList] at hc
  cases hsplit : Text.splitFirst [':', ':'] key.toList with
  | none =>
    rw [hsplit, Option.getD_none] at hc
    rcases hc with (hgroup | hseparator) | hrule
    · exact trim_subset _ hgroup
    · simp at hseparator
      exact absurd hseparator hcolon
    · exact absurd (trim_subset _ hrule) List.not_mem_nil
  | some parts =>
    have hkey := Text.splitFirst_eq_some hsplit
    rw [hsplit, Option.getD_some] at hc
    rw [hkey]
    rcases hc with (hgroup | hseparator) | hrule
    · exact List.mem_append_left _ (List.mem_append_left _ (trim_subset _ hgroup))
    · simp at hseparator
      exact absurd hseparator hcolon
    · exact List.mem_append_right _ (trim_subset _ hrule)

theorem comma_notMem_received {normalized : String}
    (h : normalized ∈ (deserializeRuleKeys text).filterMap normalizeRuleKey) :
    ',' ∉ normalized.toList := by
  obtain ⟨key, hkey, hnormalized⟩ := List.mem_filterMap.1 h
  obtain ⟨part, hpart, rfl⟩ := List.mem_map.1 (List.mem_of_mem_filter hkey)
  intro hcomma
  have hmem := mem_of_normalizeRuleKey (by decide) hnormalized hcomma
  rw [String.toList_ofList] at hmem
  exact notMem_of_mem_splitOn hpart (trim_subset _ hmem)

/-! ### The selections -/

theorem mem_sortedSet {texts : List String} : text ∈ sortedSet texts ↔ text ∈ texts := by
  rw [sortedSet, List.mem_insertionSort, List.mem_dedup]

/-- **A list of keys selects what can be read of it.** -/
theorem normalizeRuleSelection_some (ruleKeys : List String) (legacyRuleKey : Option String) :
    normalizeRuleSelection (some ruleKeys) legacyRuleKey =
      if ruleKeys.filterMap normalizeRuleKey = [] then .empty
      else .selected (sortedSet (ruleKeys.filterMap normalizeRuleKey)) := by
  unfold normalizeRuleSelection
  dsimp only
  by_cases hread : ruleKeys.filterMap normalizeRuleKey = []
  · rw [hread]
    cases ruleKeys <;> rfl
  · have hkeys : ruleKeys.isEmpty = false := List.isEmpty_eq_false_iff.2 fun hnil =>
      hread (by rw [hnil]; rfl)
    obtain ⟨text, htext⟩ := List.exists_mem_of_ne_nil _ hread
    have hset : (sortedSet (ruleKeys.filterMap normalizeRuleKey)).isEmpty = false :=
      List.isEmpty_eq_false_iff_exists_mem.2 ⟨text, mem_sortedSet.2 htext⟩
    rw [hkeys, hset, if_neg hread]
    rfl

theorem filterMap_normalizeRuleKey (hplain : ∀ key ∈ keys, PlainKey key) :
    (keys.map ruleKeyText).filterMap normalizeRuleKey = keys.filterMap trimmedKeyText := by
  rw [List.filterMap_map]
  exact List.filterMap_congr fun key hkey => (hplain key hkey).normalizeRuleKey_text

theorem normalizeRuleSelection_trimmed (hplain : ∀ key ∈ keys, PlainKey key)
    (legacyRuleKey : Option String) :
    normalizeRuleSelection (some ((keys.map ruleKeyText).map trimmed)) legacyRuleKey =
      normalizeRuleSelection (some (keys.map ruleKeyText)) legacyRuleKey := by
  have hread : ((keys.map ruleKeyText).map trimmed).filterMap normalizeRuleKey =
      keys.filterMap trimmedKeyText := by
    rw [List.map_map, List.filterMap_map]
    refine List.filterMap_congr fun key hkey => ?_
    dsimp only [Function.comp]
    exact (hplain key hkey).normalizeRuleKey_trimmed
  rw [normalizeRuleSelection_some, normalizeRuleSelection_some, hread,
    filterMap_normalizeRuleKey hplain]

theorem comma_notMem_returned {key : String} {legacyRuleKey : Option String} {keys : List String}
    (h : selectionToRuleKeys (normalizeRuleSelection (some (deserializeRuleKeys text))
      legacyRuleKey) = some keys)
    (hkey : key ∈ keys) : ',' ∉ key.toList := by
  unfold normalizeRuleSelection at h
  dsimp only at h
  split_ifs at h
  · cases h
    cases hkey
  · cases h
    cases hkey
  · cases h
    exact comma_notMem_received (mem_sortedSet.1 hkey)

/-! ### The summaries -/

theorem aggregateWindow_of_nil {order : RowOrder} {events : List RequestEvent} {startMs endMs : ℤ}
    {selection : RuleSelection} (dimension : StatsDimension) {model : Option String}
    (h : matchingEvents events startMs endMs selection model = []) :
    aggregateWindow order events startMs endMs selection dimension model = {} := by
  have hempty : errorsByStatus order dimension [] = HashMap.empty :=
    congrArg (List.foldl _ HashMap.empty) (order_nil order _)
  cases selection with
  | empty => rfl
  | all =>
    simp only [aggregateWindow, h, hempty, ruleRows, hourlyRows, List.filter_nil, Sql.groupBy,
      List.map_nil, List.dedup_nil, order_nil]
    rfl
  | selected keys =>
    simp only [aggregateWindow, h, hempty, ruleRows, hourlyRows, List.filter_nil, Sql.groupBy,
      List.map_nil, List.dedup_nil, order_nil]
    rfl

theorem aggregateWindow_congr {order : RowOrder} {events events' : List RequestEvent}
    {startMs endMs : ℤ} {selection selection' : RuleSelection} (dimension : StatsDimension)
    {model : Option String}
    (h : matchingEvents events startMs endMs selection model =
      matchingEvents events' startMs endMs selection' model) :
    aggregateWindow order events startMs endMs selection dimension model =
      aggregateWindow order events' startMs endMs selection' dimension model := by
  by_cases hnil : matchingEvents events startMs endMs selection model = []
  · rw [aggregateWindow_of_nil dimension hnil, aggregateWindow_of_nil dimension (h ▸ hnil)]
  · have hne : ∀ {events selection}, matchingEvents events startMs endMs selection model ≠ [] →
        selection ≠ .empty := by
      rintro events _ hfound rfl
      exact hfound (matchingEvents_empty events startMs endMs model)
    have hleft := hne hnil
    have hright := hne (h ▸ hnil)
    cases selection <;> cases selection'
    all_goals first | exact absurd rfl hleft | exact absurd rfl hright |
      simp only [aggregateWindow, h]

theorem mem_keys_requestsByRule {order : RowOrder} {events : List RequestEvent} {startMs endMs : ℤ}
    {selection : RuleSelection} {dimension : StatsDimension} {model : Option String}
    {key : String} :
    key ∈ (aggregateWindow order events startMs endMs selection dimension
        model).requestsByRule.keys ↔
      ∃ event ∈ ruleEvents events startMs endMs selection model, event.storedKey = key := by
  rw [(rules_aggregateWindow order events startMs endMs selection dimension model).1,
    HashMap.mem_keys_ofEntries, List.map_map, List.mem_map]
  constructor
  · rintro ⟨⟨group, members⟩, hrow, rfl⟩
    obtain ⟨⟨event, hevent, hgroup⟩, -⟩ := Sql.mem_groupBy_iff.1 ((order.perm _).mem_iff.1 hrow)
    exact ⟨event, hevent, (ruleRowKey_eq hgroup).symm⟩
  · rintro ⟨event, hevent, rfl⟩
    exact ⟨_, (order.perm _).mem_iff.2 (Sql.mem_groupBy_iff.2 ⟨⟨event, hevent, rfl⟩, rfl⟩),
      @ruleRowKey_eq _ event rfl⟩

/-- **A selection of texts finds the events that form them.** -/
theorem matchingEvents_selected (texts : List String) (events : List RequestEvent)
    (startMs endMs : ℤ) (model : Option String) :
    matchingEvents events startMs endMs
        (if texts = [] then .empty else .selected (sortedSet texts)) model =
      (matchingEvents events startMs endMs .all model).filter
        fun event => decide (event.storedKey ∈ texts) := by
  split_ifs with hnil
  · rw [matchingEvents_empty, hnil]
    simp
  · unfold matchingEvents
    rw [List.filter_filter]
    refine List.filter_congr fun event _ => ?_
    have hselected : decide (event.storedKey ∈ sortedSet texts) =
        decide (event.storedKey ∈ texts) := decide_eq_decide.2 mem_sortedSet
    change (_ && (decide (event.storedKey ∈ sortedSet texts) && _)) = _
    rw [hselected]
    change _ = (_ && (_ && (true && _)))
    rw [Bool.true_and]
    generalize decide (event.storedKey ∈ texts) = listed
    cases listed <;> simp

section

variable {order : RowOrder} {events : List RequestEvent} {now : ℤ}
  {ruleKeys : Option (List String)} {call : StatsCall}

theorem ruleKeys_summarize : (summarize order events now ruleKeys call).ruleKeys =
    normalizedRuleKeys ruleKeys call := by
  unfold summarize
  dsimp only
  cases statsSelection ruleKeys call <;> rfl

theorem current_summarize : (summarize order events now ruleKeys call).current =
    aggregateWindow order events (windowStart (requestedHours call.hours) now) now
      (statsSelection ruleKeys call) (normalizeDimension call.dimension)
      (normalizeModelFilter call.model) := by
  unfold summarize
  dsimp only
  cases statsSelection ruleKeys call <;> rfl

theorem summarize_congr {ruleKeys' : Option (List String)}
    (h : statsSelection ruleKeys call = statsSelection ruleKeys' call) :
    summarize order events now ruleKeys call = summarize order events now ruleKeys' call := by
  unfold summarize normalizedRuleKeys
  rw [h]

end

/-! ### The two selections -/

section

variable {order : RowOrder} {events : List RequestEvent} {now : ℤ} {keys : List (String × String)}
  {call : StatsCall}

theorem matchingEvents_listed (keys : List (String × String)) :
    matchingEvents (events.filter (RequestEvent.isListed keys))
        (windowStart (requestedHours call.hours) now) now .all (normalizeModelFilter call.model) =
      (askedEvents events now call).filter (RequestEvent.isListed keys) := by
  unfold askedEvents matchingEvents
  exact List.filter_comm _ _ _

theorem selectsAlike_all_iff (hdimension : normalizeDimension call.dimension ≠ .rule) :
    SelectsAlike order events now keys call ↔
      ∀ event ∈ askedEvents events now call, event.isListed keys = true := by
  have hselection : ∀ ruleKeys, statsSelection ruleKeys call = .all := by
    intro ruleKeys
    unfold statsSelection
    cases hd : normalizeDimension call.dimension with
    | rule => exact absurd hd hdimension
    | protocol => rfl
    | status => rfl
  have hcounts : ∀ ruleKeys, CountsExactly order (events.filter (RequestEvent.isListed keys)) now
      call (summarize order events now ruleKeys call) ↔
        ∀ event ∈ askedEvents events now call, event.isListed keys = true := by
    intro ruleKeys
    unfold CountsExactly
    rw [current_summarize, hselection]
    constructor
    · intro h
      have hrequests := congrArg WindowAggregate.requests h
      rw [requests_aggregateWindow, requests_aggregateWindow, matchingEvents_listed] at hrequests
      exact List.length_filter_eq_length_iff.1 hrequests.symm
    · intro h
      refine aggregateWindow_congr _ ?_
      rw [matchingEvents_listed, List.filter_eq_self.2 h]
      rfl
  unfold SelectsAlike httpSummary ipcSummary
  rw [hcounts, hcounts, and_self]
  exact and_iff_right (summarize_congr ((hselection _).trans (hselection _).symm))

theorem filter_eq_of_length_eq {α : Type} {p q : α → Bool} {l : List α}
    (hle : ∀ a ∈ l, p a = true → q a = true)
    (hlength : (l.filter p).length = (l.filter q).length) : ∀ a ∈ l, p a = q a := by
  have hfilter : (l.filter q).filter p = l.filter p := by
    rw [List.filter_filter]
    exact List.filter_congr fun a ha => by cases hp : p a <;> simp [hp, hle a ha]
  rw [← hfilter, List.length_filter_eq_length_iff] at hlength
  intro a ha
  cases hq : q a with
  | true => exact hlength a (List.mem_filter.2 ⟨ha, hq⟩)
  | false => exact Bool.eq_false_iff.2 fun hp => Bool.eq_false_iff.1 hq (hle a ha hp)

/-- **A summary counts the listed events** exactly when trimming the provider ids of the keys
selects no other ones. -/
theorem countsExactly_iff (hdimension : normalizeDimension call.dimension = .rule)
    (hplain : ∀ key ∈ keys, PlainKey key) :
    CountsExactly order (events.filter (RequestEvent.isListed keys)) now call
        (ipcSummary order events now (keys.map ruleKeyText) call) ↔
      ∀ event ∈ askedEvents events now call,
        event.isListed keys = decide (event.storedKey ∈ keys.filterMap trimmedKeyText) := by
  have hselection : statsSelection (some (keys.map ruleKeyText)) call =
      if keys.filterMap trimmedKeyText = [] then .empty
      else .selected (sortedSet (keys.filterMap trimmedKeyText)) := by
    unfold statsSelection
    rw [hdimension]
    dsimp only
    rw [normalizeRuleSelection_some, filterMap_normalizeRuleKey hplain]
  have hfound : matchingEvents events (windowStart (requestedHours call.hours) now) now
      (statsSelection (some (keys.map ruleKeyText)) call) (normalizeModelFilter call.model) =
        (askedEvents events now call).filter
          fun event => decide (event.storedKey ∈ keys.filterMap trimmedKeyText) := by
    rw [hselection]
    exact matchingEvents_selected _ _ _ _ _
  unfold CountsExactly ipcSummary
  rw [current_summarize]
  constructor
  · intro h
    refine filter_eq_of_length_eq (fun event hevent hlisted => ?_) ?_
    · -- the rule of a listed event is among those of the summary
      have hrule : event.storedKey ∈ (aggregateWindow order
          (events.filter (RequestEvent.isListed keys))
          (windowStart (requestedHours call.hours) now) now .all
          (normalizeDimension call.dimension)
          (normalizeModelFilter call.model)).requestsByRule.keys := by
        refine mem_keys_requestsByRule.2 ⟨event, List.mem_filter.2 ⟨?_, ?_⟩, rfl⟩
        · rw [matchingEvents_listed]
          exact List.mem_filter.2 ⟨hevent, hlisted⟩
        · exact (Bool.and_eq_true_iff.1 hlisted).1
      rw [← h, mem_keys_requestsByRule] at hrule
      obtain ⟨other, hother, hkey⟩ := hrule
      have hmatching := (List.mem_filter.1 hother).1
      rw [hfound] at hmatching
      rw [← hkey]
      exact (List.mem_filter.1 hmatching).2
    · have hrequests := congrArg WindowAggregate.requests h
      rw [requests_aggregateWindow, requests_aggregateWindow, matchingEvents_listed, hfound]
        at hrequests
      exact hrequests.symm
  · intro h
    refine aggregateWindow_congr _ ?_
    rw [matchingEvents_listed, hfound]
    exact (List.filter_congr h).symm

theorem usable_of_same (hdimension : normalizeDimension call.dimension = .rule)
    (hplain : ∀ key ∈ keys, PlainKey key)
    (h : httpSummary order events now (keys.map ruleKeyText) call =
      ipcSummary order events now (keys.map ruleKeyText) call) :
    keys ≠ [] ∧ ∀ key ∈ keys, ',' ∉ key.2.toList := by
  have hreturned := congrArg StatsSummaryResult.ruleKeys h
  unfold httpSummary ipcSummary at hreturned
  rw [ruleKeys_summarize, ruleKeys_summarize] at hreturned
  have hrule : ∀ ruleKeys, normalizedRuleKeys ruleKeys call =
      selectionToRuleKeys (normalizeRuleSelection ruleKeys call.ruleKey) := by
    intro ruleKeys
    unfold normalizedRuleKeys statsSelection
    rw [hdimension]
  rw [hrule, hrule] at hreturned
  have hne : keys ≠ [] := by
    rintro rfl
    rw [List.map_nil, receivedRuleKeys_nil] at hreturned
    unfold normalizeRuleSelection at hreturned
    dsimp only [List.isEmpty_nil] at hreturned
    rw [if_pos rfl] at hreturned
    cases hlegacy : call.ruleKey.bind normalizeRuleKey with
    | none =>
      rw [hlegacy] at hreturned
      cases hreturned
    | some single =>
      rw [hlegacy] at hreturned
      cases hreturned
  refine ⟨hne, fun key hkey hcomma => ?_⟩
  -- a comma is left when the blanks are trimmed, and the app returns the key with it
  have hleft : ',' ∈ (trimmed key.2).toList := by
    obtain ⟨front, rest, hprovider⟩ := List.append_of_mem hcomma
    have htrim : Text.trim (front ++ ',' :: rest) =
        front.dropWhile Text.isWhitespace ++ ',' :: rest.rdropWhile Text.isWhitespace :=
      TrimmedPieces.core_append_cons (by decide) front rest
    rw [trimmed, String.toList_ofList, hprovider, htrim]
    exact List.mem_append_right _ List.mem_cons_self
  have hread : ruleKeyText (key.1, trimmed key.2) ∈ keys.filterMap trimmedKeyText := by
    refine List.mem_filterMap.2 ⟨key, hkey, if_neg fun hempty => ?_⟩
    rw [hempty] at hleft
    exact absurd hleft (by decide)
  rw [receivedRuleKeys_of_ne_nil (fun hnil => hne (List.map_eq_nil_iff.1 hnil)),
    normalizeRuleSelection_some (keys.map ruleKeyText), filterMap_normalizeRuleKey hplain,
    if_neg (List.ne_nil_of_mem hread)] at hreturned
  refine comma_notMem_returned hreturned (mem_sortedSet.2 hread) ?_
  rw [toList_ruleKeyText]
  exact List.mem_append_right _ hleft

end

/-- **A selection of rules means the same in the browser and in the desktop app exactly when its
list is not empty, no provider id has a comma, and the blanks around the provider ids select no
other events.** Requests of the other dimensions are answered alike, and count the listed events
when these are all. -/
theorem selectsAlike_iff {env : NormalizeEnv} {config saved : ProxyConfig}
    (haccept : acceptConfig env config = .ok saved) {keys : List (String × String)}
    (hkeys : ∀ key ∈ keys, TakenFrom saved key) (order : RowOrder) (events : List RequestEvent)
    (now : ℤ) (call : StatsCall) :
    SelectsAlike order events now keys call ↔
      (normalizeDimension call.dimension = .rule ∧
          keys ≠ [] ∧ (∀ key ∈ keys, ',' ∉ key.2.toList) ∧
            ∀ event ∈ askedEvents events now call,
              event.isListed keys = decide (event.storedKey ∈ keys.filterMap trimmedKeyText)) ∨
        (normalizeDimension call.dimension ≠ .rule ∧
          ∀ event ∈ askedEvents events now call, event.isListed keys = true) := by
  have hplain : ∀ key ∈ keys, PlainKey key := fun key hkey =>
    plainKey_of_accepted haccept (hkeys key hkey)
  by_cases hdimension : normalizeDimension call.dimension = .rule
  · rw [or_iff_left fun hother => hother.1 hdimension, and_iff_right hdimension,
      ← countsExactly_iff hdimension hplain]
    constructor
    · intro h
      obtain ⟨hne, hcommas⟩ := usable_of_same hdimension hplain h.1
      exact ⟨hne, hcommas, h.2.2⟩
    · rintro ⟨hne, hcommas, hcounts⟩
      have hselection : statsSelection (some ((keys.map ruleKeyText).map trimmed)) call =
          statsSelection (some (keys.map ruleKeyText)) call := by
        unfold statsSelection
        rw [normalizeRuleSelection_trimmed hplain]
      have hsame : httpSummary order events now (keys.map ruleKeyText) call =
          ipcSummary order events now (keys.map ruleKeyText) call := by
        unfold httpSummary ipcSummary
        rw [receivedRuleKeys_of_ne_nil (fun hnil => hne (List.map_eq_nil_iff.1 hnil)),
          deserializeRuleKeys_joinCommas hne hplain hcommas, summarize_congr hselection]
      exact ⟨hsame, hsame ▸ hcounts, hcounts⟩
  · rw [or_iff_right fun hother => hdimension hother.1, and_iff_right hdimension]
    exact selectsAlike_all_iff hdimension

/-- A request of the last hour. -/
def lastHour : StatsCall where
  hours := some 1
  ruleKey := none
  dimension := some "rule"
  enableComparison := none
  model := none

theorem selectsAlike_oneRule :
    ∃ saved, acceptConfig NormalizeEnv.plain (oneRouteConfig "p1") = .ok saved ∧
      SelectsAlike RowOrder.plain [sampleEvent "Dev",
        { sampleEvent "Dev" with ruleId := some "p2" }]
        2 [("dev", "p1")] lastHour := by
  refine ⟨_, rfl, ?_⟩
  refine (@selectsAlike_iff NormalizeEnv.plain (oneRouteConfig "p1") _ rfl [("dev", "p1")] ?_
    RowOrder.plain _ 2 lastHour).2 (.inl ⟨by decide, by decide, by decide, by decide⟩)
  intro key hkey
  rw [List.mem_singleton.1 hkey]
  exact ⟨_, List.mem_singleton_self _, rfl⟩

/-- A configuration whose provider has a comma in its id. -/
def commaConfig : ProxyConfig :=
  { defaultConfig with
    providers := [sampleProvider "a,b"]
    groups := [{ id := "dev", name := "Dev"
                 routingTable := [⟨"default", "a,b", "gpt"⟩], models := none
                 providerIds := some ["a,b"], activeProviderId := none, providers := none
                 failover := none }] }

/-- A request of the provider with the comma. -/
def commaEvent : RequestEvent := { sampleEvent "Dev" with ruleId := some "a,b" }

/-- The browser counts no request of a provider with a comma in its id, and with no rule selected
it counts every request. -/
theorem not_selectsAlike_comma :
    (∃ saved, acceptConfig NormalizeEnv.plain commaConfig = .ok saved ∧
        TakenFrom saved ("dev", "a,b")) ∧
      ((httpSummary RowOrder.plain [commaEvent] 2 [ruleKeyText ("dev", "a,b")]
          lastHour).current.requests = 0 ∧
        (ipcSummary RowOrder.plain [commaEvent] 2 [ruleKeyText ("dev", "a,b")]
          lastHour).current.requests = 1) ∧
      ((httpSummary RowOrder.plain [commaEvent] 2 [] lastHour).current.requests = 1 ∧
        (ipcSummary RowOrder.plain [commaEvent] 2 [] lastHour).current.requests = 0) ∧
      ¬ SelectsAlike RowOrder.plain [commaEvent] 2 [("dev", "a,b")] lastHour ∧
      ¬ SelectsAlike RowOrder.plain [commaEvent] 2 [] lastHour := by
  have hcomma : (httpSummary RowOrder.plain [commaEvent] 2 [ruleKeyText ("dev", "a,b")]
      lastHour).current.requests = 0 ∧
        (ipcSummary RowOrder.plain [commaEvent] 2 [ruleKeyText ("dev", "a,b")]
          lastHour).current.requests = 1 := by decide
  have hempty : (httpSummary RowOrder.plain [commaEvent] 2 [] lastHour).current.requests = 1 ∧
      (ipcSummary RowOrder.plain [commaEvent] 2 [] lastHour).current.requests = 0 := by decide
  refine ⟨⟨_, rfl, _, List.mem_singleton_self _, rfl⟩, hcomma, hempty,
    fun h => ?_, fun h => ?_⟩
  · have hsame := congrArg (fun summary => summary.current.requests) h.1
    exact absurd (hcomma.1.symm.trans (hsame.trans hcomma.2)) (by decide)
  · have hsame := congrArg (fun summary => summary.current.requests) h.1
    exact absurd (hempty.1.symm.trans (hsame.trans hempty.2)) (by decide)

end AiOpenRouter
