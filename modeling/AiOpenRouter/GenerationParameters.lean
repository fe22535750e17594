/-
The generation parameters of a request through the six request converters.

* `Generation` is what a request asks: a temperature, its positive output-token
  limits, and a tool choice in the terms that the three protocols share;
* `Generation.KeptIn` says that a converted request asks the same;
* a lemma for each converter says what its result asks, and
  `generationKept_iff` when that is what the caller asked.
-/
import AiOpenRouter.ChatRequestToClaude
import AiOpenRouter.ClaudeRequestToResponses

namespace AiOpenRouter

/-! ### What a request asks -/

inductive ToolChoice where
  | auto
  | never
  | required
  | tool (name : String)
  deriving DecidableEq

def ToolChoice.ofClaude (choice : Json) : Option ToolChoice :=
  match choice.asStr.or (choice.getStr "type") with
  | some "auto" => some auto
  | some "none" => some never
  | some "any" => some required
  | some "tool" => (choice.getStr "name").map tool
  | _ => none

def ToolChoice.ofChat (choice : Json) : Option ToolChoice :=
  match choice.asStr.or (choice.getStr "type") with
  | some "auto" => some auto
  | some "none" => some never
  | some "required" => some required
  | some "function" => ((choice.get "function").bind (·.getStr "name")).map tool
  | _ => none

def ToolChoice.ofResponses (choice : Json) : Option ToolChoice :=
  match choice.asStr.or (choice.getStr "type") with
  | some "auto" => some auto
  | some "none" => some never
  | some "required" => some required
  | some "function" => (choice.getStr "name").map tool
  | _ => none

structure Generation where
  temperature : Option Json
  limits : List Json
  toolChoice : Option ToolChoice

def presentField (req : Json) (key : String) : Option Json := (req.get key).filter (¬ ·.isNull)

def positiveField (req : Json) (key : String) : Option Json :=
  (req.get key).filter isPositiveInteger

/-- What a Claude request asks. -/
def claudeGeneration (req : Json) : Generation where
  temperature := presentField req "temperature"
  limits := (positiveField req "max_tokens").toList
  toolChoice := (req.get "tool_choice").bind ToolChoice.ofClaude

/-- What a chat request asks: it has two names for the limit. -/
def chatGeneration (req : Json) : Generation where
  temperature := presentField req "temperature"
  limits := (positiveField req "max_completion_tokens").toList ++
    (positiveField req "max_tokens").toList
  toolChoice := (req.get "tool_choice").bind ToolChoice.ofChat

/-- What a Responses request asks. -/
def responsesGeneration (req : Json) : Generation where
  temperature := presentField req "temperature"
  limits := (positiveField req "max_output_tokens").toList
  toolChoice := (req.get "tool_choice").bind ToolChoice.ofResponses

/-- What a parsed Claude request asks. -/
def ClaudeRequest.generation (req : ClaudeRequest) : Generation where
  temperature := req.temperature.map Json.num
  limits := ((req.maxTokens.map Json.int).filter isPositiveInteger).toList
  toolChoice := req.toolChoice.bind ToolChoice.ofClaude

/-- What a chat request asks before it is printed. -/
def OpenAIRequest.generation (req : OpenAIRequest) : Generation where
  temperature := req.temperature.map Json.num
  limits := ((req.maxCompletionTokens.map Json.int).filter isPositiveInteger).toList ++
    ((req.maxTokens.map Json.int).filter isPositiveInteger).toList
  toolChoice := req.toolChoice.bind ToolChoice.ofChat

/-- What is given on is what was asked, where something was asked. -/
structure Generation.KeptIn (asked given : Generation) : Prop where
  temperature : ∀ value, asked.temperature = some value → given.temperature = some value
  limit : asked.limits ≠ [] → ∃ limit ∈ asked.limits, given.limits = [limit]
  toolChoice : ∀ choice, asked.toolChoice = some choice → given.toolChoice = some choice

theorem forall_ne_some_iff {α : Type} {asked : Option α} :
    (∀ value, asked = some value → (none : Option α) = some value) ↔ asked = none := by
  cases asked <;> simp

/-! ### The six converters -/

/-- The first of two fields holds a positive integer where it is present, or the second does not
hold one either. -/
def FirstLimitHolds (req : Json) (first second : String) : Prop :=
  ∀ value, req.get first = some value → isPositiveInteger value = true ∨
    positiveField req second = none

variable (env : Env) (req : ClaudeRequest) (model : String)

theorem generation_claudeReqToOpenai :
    (claudeReqToOpenai env req model).generation =
      { req.generation with toolChoice := none } := by
  simp [OpenAIRequest.generation, claudeReqToOpenai, ClaudeRequest.generation]

/-- Chat → Claude: the tool choice is dropped, and the limit is the value of `max_tokens` where it
is present. -/
theorem generation_openaiReqToClaude (req : Json) (model : String) :
    claudeGeneration (openaiReqToClaude env req model) =
      { temperature := presentField req "temperature"
        limits := (((req.get "max_tokens" <|> req.get "max_completion_tokens").or
          (some (.int 8192))).filter isPositiveInteger).toList
        toolChoice := none } := by
  simp [claudeGeneration, openaiReqToClaude, presentField, positiveField, Json.get,
    List.lookup_cons]

/-- Responses → Claude: the tool choice is dropped, and the limit must be an `i64`. -/
theorem generation_openaiResponsesReqToClaude (req : Json) (model : String) :
    claudeGeneration (openaiResponsesReqToClaude env req model) =
      { temperature := presentField req "temperature"
        limits := (((((req.getI64 "max_output_tokens").filter (0 < ·)).map Json.int).or
          (some (.int 8192))).filter isPositiveInteger).toList
        toolChoice := none } := by
  simp [claudeGeneration, openaiResponsesReqToClaude, presentField, positiveField, Json.get,
    List.lookup_cons]

/-- Chat → Responses: the temperature and the tool choice are dropped, and the limit is the value
of `max_completion_tokens` where it is present. -/
theorem generation_openaiChatToResponses (req : Json) (model : String) :
    responsesGeneration (openaiChatToResponses env req model) =
      { temperature := none
        limits := ((req.get "max_completion_tokens" <|> req.get "max_tokens").filter
          isPositiveInteger).toList
        toolChoice := none } := by
  simp [responsesGeneration, openaiChatToResponses, presentField, positiveField, Json.get,
    List.lookup_cons]

theorem generation_openaiResponsesReqToChat (req : Json) (model : String) :
    chatGeneration (openaiResponsesReqToChat env req model) =
      { temperature := none
        limits := (positiveField req "max_output_tokens").toList
        toolChoice := none } := by
  simp [chatGeneration, openaiResponsesReqToChat, presentField, positiveField, Json.get,
    List.lookup_cons]

theorem mapClaudeToolChoice_eq {choice : Json} {asked : ToolChoice}
    (h : ToolChoice.ofClaude choice = some asked) :
    (mapClaudeToolChoiceToOpenaiResponses (some choice)).bind ToolChoice.ofResponses =
      if asked = .tool "" then none else some asked := by
  cases choice with
  | null => cases h
  | bool b => cases h
  | num n => cases h
  | arr items => cases h
  | str text =>
    unfold ToolChoice.ofClaude at h
    split at h
    · rename_i htype
      cases h
      cases htype
      rfl
    · rename_i htype
      cases h
      cases htype
      rfl
    · rename_i htype
      cases h
      cases htype
      rfl
    · cases h
    · cases h
  | obj fields =>
    have htype : (Json.obj fields).asStr.or ((Json.obj fields).getStr "type") =
        (Json.obj fields).getStr "type" := rfl
    unfold ToolChoice.ofClaude at h
    rw [htype] at h
    split at h
    · rename_i hauto
      cases h
      simp only [mapClaudeToolChoiceToOpenaiResponses, hauto]
      rfl
    · rename_i hnone
      cases h
      simp only [mapClaudeToolChoiceToOpenaiResponses, hnone]
      rfl
    · rename_i hany
      cases h
      simp only [mapClaudeToolChoiceToOpenaiResponses, hany]
      rfl
    · rename_i htool
      obtain ⟨name, hname, rfl⟩ := Option.map_eq_some_iff.1 h
      simp only [mapClaudeToolChoiceToOpenaiResponses, htool, hname]
      -- a choice without a name is dropped by the converter
      by_cases hempty : name = ""
      · subst hempty
        rfl
      · have hne : (some name).filter (· ≠ "") = some name := by simp [hempty]
        have htool' : ¬ ToolChoice.tool name = .tool "" := by simpa using hempty
        rw [hne, if_neg htool']
        rfl
    · cases h

theorem generation_claudeReqToOpenaiResponses :
    responsesGeneration (claudeReqToOpenaiResponses env req model) =
      { req.generation with
        toolChoice := if req.tools.getD [] = [] then none
          else ToolChoice.ofResponses (responsesToolChoice req) } := by
  have htemperature : (req.temperature.map Json.num).filter (fun t => !t.isNull) =
      req.temperature.map Json.num := by
    cases req.temperature <;> rfl
  have hlimit : ((req.maxTokens.filter (0 < ·)).map Json.int).filter isPositiveInteger =
      (req.maxTokens.map Json.int).filter isPositiveInteger := by
    cases hmax : req.maxTokens with
    | none => rfl
    | some n =>
      by_cases hn : 0 < n
      · rw [Option.filter_some_pos (by simpa using hn)]
      · have hnot : isPositiveInteger (Json.int n) = false := by
          simp [isPositiveInteger, Json.int, hn]
        rw [Option.filter_some_neg (by simpa using hn), Option.map_some,
          Option.filter_some_neg hnot]
        rfl
  unfold claudeReqToOpenaiResponses
  split
  · rename_i hnil
    simp [responsesGeneration, ClaudeRequest.generation, presentField, positiveField, Json.get,
      List.lookup_cons, hnil, htemperature, hlimit]
  · rename_i hne
    simp [responsesGeneration, ClaudeRequest.generation, presentField, positiveField, Json.get,
      List.lookup_cons, htemperature, hlimit]
    exact fun hnil => absurd hnil hne

/-! ### When the parameters are kept -/

theorem firstLimit_iff {first second fallback : Option Json} {limits : List Json}
    (hlimits : ∀ limit, limit ∈ limits ↔ first.filter isPositiveInteger = some limit ∨
      second.filter isPositiveInteger = some limit) :
    (limits ≠ [] → ∃ limit ∈ limits,
        (((first <|> second).or fallback).filter isPositiveInteger).toList = [limit]) ↔
      ∀ value, first = some value → isPositiveInteger value = true ∨
        second.filter isPositiveInteger = none := by
  cases first with
  | none =>
    refine ⟨fun _ _ hvalue => (nomatch hvalue), fun _ hne => ?_⟩
    obtain ⟨limit, hmem⟩ := List.exists_mem_of_ne_nil limits hne
    rcases (hlimits limit).1 hmem with h | h
    · cases h
    · refine ⟨limit, hmem, ?_⟩
      cases second with
      | none => cases h
      | some value => exact congrArg Option.toList h
  | some value =>
    have hgiven : ((some value <|> second).or fallback) = some value := rfl
    rw [hgiven]
    by_cases hvalue : isPositiveInteger value = true
    · rw [Option.filter_some_pos hvalue] at hlimits ⊢
      exact ⟨fun _ _ heq => .inl (Option.some.inj heq ▸ hvalue),
        fun _ _ => ⟨value, (hlimits value).2 (.inl rfl), rfl⟩⟩
    · rw [Option.filter_some_neg (Bool.eq_false_iff.2 hvalue)] at hlimits ⊢
      constructor
      · intro h other heq
        refine .inr (Option.eq_none_iff_forall_ne_some.2 fun limit hlimit => ?_)
        have hne : limits ≠ [] := List.ne_nil_of_mem ((hlimits limit).2 (.inr hlimit))
        obtain ⟨_, -, hnone⟩ := h hne
        cases hnone
      · intro h hne
        obtain ⟨limit, hmem⟩ := List.exists_mem_of_ne_nil limits hne
        have hsecond := (h value rfl).resolve_left hvalue
        rcases (hlimits limit).1 hmem with hlimit | hlimit
        · cases hlimit
        · rw [hsecond] at hlimit
          cases hlimit

theorem singleLimit {limit : Option Json} :
    limit.toList ≠ [] → ∃ value ∈ limit.toList, limit.toList = [value] := by
  cases limit with
  | none => exact fun hne => absurd rfl hne
  | some value => exact fun _ => ⟨value, List.mem_singleton_self value, rfl⟩

theorem keptIn_iff_of_none (asked : Generation) (limits : List Json) :
    asked.KeptIn { temperature := none, limits := limits, toolChoice := none } ↔
      asked.temperature = none ∧ asked.toolChoice = none ∧
        (asked.limits ≠ [] → ∃ limit ∈ asked.limits, limits = [limit]) := by
  constructor
  · intro h
    exact ⟨forall_ne_some_iff.1 h.temperature, forall_ne_some_iff.1 h.toolChoice, h.limit⟩
  · rintro ⟨htemperature, htoolChoice, hlimit⟩
    exact ⟨forall_ne_some_iff.2 htemperature, hlimit, forall_ne_some_iff.2 htoolChoice⟩

theorem keptIn_iff_of_temperature (asked : Generation) (limits : List Json) :
    asked.KeptIn { temperature := asked.temperature, limits := limits, toolChoice := none } ↔
      asked.toolChoice = none ∧
        (asked.limits ≠ [] → ∃ limit ∈ asked.limits, limits = [limit]) := by
  constructor
  · intro h
    exact ⟨forall_ne_some_iff.1 h.toolChoice, h.limit⟩
  · rintro ⟨htoolChoice, hlimit⟩
    exact ⟨fun _ hvalue => hvalue, hlimit, forall_ne_some_iff.2 htoolChoice⟩

theorem generationKept_claudeToChat_iff :
    req.generation.KeptIn (claudeReqToOpenai env req model).generation ↔
      req.generation.toolChoice = none := by
  rw [generation_claudeReqToOpenai]
  refine (keptIn_iff_of_temperature req.generation _).trans ?_
  exact ⟨fun h => h.1, fun h => ⟨h, singleLimit⟩⟩

theorem generationKept_chatToClaude_iff (req : Json) (model : String) :
    (chatGeneration req).KeptIn (claudeGeneration (openaiReqToClaude env req model)) ↔
      (chatGeneration req).toolChoice = none ∧
        FirstLimitHolds req "max_tokens" "max_completion_tokens" := by
  have hlimits : ∀ limit, limit ∈ (chatGeneration req).limits ↔
      positiveField req "max_tokens" = some limit ∨
        positiveField req "max_completion_tokens" = some limit := by
    intro limit
    simp only [chatGeneration, positiveField, List.mem_append, Option.mem_toList, or_comm]
  rw [generation_openaiReqToClaude]
  exact (keptIn_iff_of_temperature (chatGeneration req) _).trans (and_congr_right fun _ =>
    firstLimit_iff hlimits)

theorem generationKept_chatToResponses_iff (req : Json) (model : String) :
    (chatGeneration req).KeptIn (responsesGeneration (openaiChatToResponses env req model)) ↔
      (chatGeneration req).temperature = none ∧ (chatGeneration req).toolChoice = none ∧
        FirstLimitHolds req "max_completion_tokens" "max_tokens" := by
  have hlimits : ∀ limit, limit ∈ (chatGeneration req).limits ↔
      positiveField req "max_completion_tokens" = some limit ∨
        positiveField req "max_tokens" = some limit := by
    intro limit
    simp only [chatGeneration, positiveField, List.mem_append, Option.mem_toList]
  rw [generation_openaiChatToResponses,
    ← Option.or_none (o := (req.get "max_completion_tokens" <|> req.get "max_tokens"))]
  exact (keptIn_iff_of_none _ _).trans
    (and_congr_right fun _ => and_congr_right fun _ => firstLimit_iff hlimits)

theorem generationKept_responsesToChat_iff (req : Json) (model : String) :
    (responsesGeneration req).KeptIn (chatGeneration (openaiResponsesReqToChat env req model)) ↔
      (responsesGeneration req).temperature = none ∧
        (responsesGeneration req).toolChoice = none := by
  rw [generation_openaiResponsesReqToChat]
  refine (keptIn_iff_of_none _ _).trans ?_
  exact ⟨fun h => ⟨h.1, h.2.1⟩, fun h => ⟨h.1, h.2, singleLimit⟩⟩

theorem exists_int_of_isPositiveInteger {value : Json} (h : isPositiveInteger value = true) :
    ∃ n : ℤ, value = .int n ∧ 0 < n := by
  unfold isPositiveInteger at h
  split at h
  · rename_i n
    rw [Bool.and_eq_true] at h
    exact ⟨n, rfl, of_decide_eq_true h.1⟩
  · cases h

/-- A positive limit that is an `i64`. -/
def LimitIsI64 (req : Json) : Prop :=
  ∀ limit, positiveField req "max_output_tokens" = some limit → limit.asI64.isSome

theorem generationKept_responsesToClaude_iff (req : Json) (model : String) :
    (responsesGeneration req).KeptIn
        (claudeGeneration (openaiResponsesReqToClaude env req model)) ↔
      (responsesGeneration req).toolChoice = none ∧ LimitIsI64 req := by
  rw [generation_openaiResponsesReqToClaude]
  refine (keptIn_iff_of_temperature (responsesGeneration req) _).trans (and_congr_right fun _ => ?_)
  unfold LimitIsI64 responsesGeneration
  cases hfield : positiveField req "max_output_tokens" with
  | none => exact ⟨fun _ _ h => (nomatch h), fun _ h => absurd rfl h⟩
  | some limit =>
    obtain ⟨hget, hpos⟩ := Option.filter_eq_some_iff.1 hfield
    obtain ⟨n, rfl, hn⟩ := exists_int_of_isPositiveInteger hpos
    have hi64 : req.getI64 "max_output_tokens" = (Json.int n).asI64 := by
      rw [Json.getI64, hget, Option.bind_some]
    rw [hi64]
    cases hasI64 : (Json.int n).asI64 with
    | none =>
      -- The default is no limit of the caller: it would be an `i64`.
      constructor
      · intro h
        obtain ⟨other, hother, hgiven⟩ := h (by simp)
        rw [List.mem_singleton.1 hother] at hgiven
        have hdefault : Json.int 8192 = Json.int n := List.head_eq_of_cons_eq hgiven
        rw [← hdefault] at hasI64
        cases hasI64
      · intro h
        have := h _ rfl
        rw [hasI64] at this
        cases this
    | some m =>
      have hm : n = m := by
        have hdef : (Json.int n).asI64 =
            if -9223372036854775808 ≤ n ∧ n < 9223372036854775808 then some n else none := rfl
        rw [hdef] at hasI64
        split_ifs at hasI64
        exact Option.some.inj hasI64
      have hgiven : ((((some m).filter (0 < ·)).map Json.int).or (some (.int 8192))).filter
          isPositiveInteger = some (Json.int n) := by
        rw [← hm, Option.filter_some_pos (by simpa using hn)]
        exact Option.filter_some_pos hpos
      rw [hgiven]
      exact ⟨fun _ limit hlimit => by rw [← Option.some.inj hlimit, hasI64]; rfl,
        fun _ _ => ⟨.int n, List.mem_singleton_self _, rfl⟩⟩

theorem generationKept_claudeToResponses_iff :
    req.generation.KeptIn (responsesGeneration (claudeReqToOpenaiResponses env req model)) ↔
      ∀ choice, req.generation.toolChoice = some choice →
        req.tools.getD [] ≠ [] ∧ choice ≠ .tool "" := by
  -- a choice without a name is the only one that is lost
  have hchoice : ∀ choice, req.generation.toolChoice = some choice →
      (ToolChoice.ofResponses (responsesToolChoice req) = some choice ↔ choice ≠ .tool "") := by
    intro choice hasked
    obtain ⟨source, hsource, hread⟩ := Option.bind_eq_some_iff.1 hasked
    have hmapped := mapClaudeToolChoice_eq hread
    rw [← hsource] at hmapped
    unfold responsesToolChoice
    cases hmap : mapClaudeToolChoiceToOpenaiResponses req.toolChoice with
    | some mapped =>
      rw [hmap, Option.bind_some] at hmapped
      by_cases hempty : choice = .tool ""
      · simp [hempty, hmapped]
      · simp [hempty, hmapped]
    | none =>
      have hempty : choice = .tool "" := by
        by_contra hne
        rw [hmap, if_neg hne] at hmapped
        cases hmapped
      subst hempty
      by_cases hresult : hasClaudeToolResult req.messages = true
      · simp [hresult, ToolChoice.ofResponses, Json.asStr]
      · simp [hresult, ToolChoice.ofResponses, Json.asStr]
  rw [generation_claudeReqToOpenaiResponses]
  constructor
  · intro h choice hasked
    have hgiven := h.toolChoice choice hasked
    by_cases htools : req.tools.getD [] = []
    · simp [htools] at hgiven
    · exact ⟨htools, (hchoice choice hasked).1 (by simpa [htools] using hgiven)⟩
  · intro h
    refine ⟨fun _ hvalue => hvalue, singleLimit, fun choice hasked => ?_⟩
    obtain ⟨htools, hne⟩ := h choice hasked
    rw [if_neg htools]
    exact (hchoice choice hasked).2 hne

/-- **When the generation parameters survive each of the six converters.** -/
theorem generationKept_iff (env : Env) (model : String) :
    (∀ req : ClaudeRequest, req.generation.KeptIn (claudeReqToOpenai env req model).generation ↔
      req.generation.toolChoice = none) ∧
    (∀ req : Json, (chatGeneration req).KeptIn
      (claudeGeneration (openaiReqToClaude env req model)) ↔
      (chatGeneration req).toolChoice = none ∧
        FirstLimitHolds req "max_tokens" "max_completion_tokens") ∧
    (∀ req : ClaudeRequest,
      req.generation.KeptIn (responsesGeneration (claudeReqToOpenaiResponses env req model)) ↔
        ∀ choice, req.generation.toolChoice = some choice →
          req.tools.getD [] ≠ [] ∧ choice ≠ .tool "") ∧
    (∀ req : Json, (responsesGeneration req).KeptIn
        (claudeGeneration (openaiResponsesReqToClaude env req model)) ↔
      (responsesGeneration req).toolChoice = none ∧ LimitIsI64 req) ∧
    (∀ req : Json, (chatGeneration req).KeptIn
        (responsesGeneration (openaiChatToResponses env req model)) ↔
      (chatGeneration req).temperature = none ∧ (chatGeneration req).toolChoice = none ∧
        FirstLimitHolds req "max_completion_tokens" "max_tokens") ∧
    ∀ req : Json, (responsesGeneration req).KeptIn
        (chatGeneration (openaiResponsesReqToChat env req model)) ↔
      (responsesGeneration req).temperature = none ∧
        (responsesGeneration req).toolChoice = none :=
  ⟨fun req => generationKept_claudeToChat_iff env req model,
    fun req => generationKept_chatToClaude_iff env req model,
    fun req => generationKept_claudeToResponses_iff env req model,
    fun req => generationKept_responsesToClaude_iff env req model,
    fun req => generationKept_chatToResponses_iff env req model,
    fun req => generationKept_responsesToChat_iff env req model⟩

/-- A chat request with a temperature and a tool choice. -/
def choosyChatRequest : Json :=
  .obj [("model", .str "gpt-4.1"), ("messages", .arr []), ("temperature", .num (.float "0.2")),
    ("tool_choice", .str "required")]

/-- Neither its temperature nor its tool choice reaches a Responses upstream, and its tool choice
reaches no Claude upstream. -/
theorem not_generationKept_chat :
    ¬ (chatGeneration choosyChatRequest).KeptIn
        (responsesGeneration (openaiChatToResponses (Env.ofValues []) choosyChatRequest "gpt")) ∧
      ¬ (chatGeneration choosyChatRequest).KeptIn
        (claudeGeneration (openaiReqToClaude (Env.ofValues []) choosyChatRequest "claude")) := by
  constructor
  · rw [generationKept_chatToResponses_iff]
    rintro ⟨htemperature, -⟩
    cases htemperature
  · rw [generationKept_chatToClaude_iff]
    rintro ⟨htoolChoice, -⟩
    exact absurd htoolChoice (by decide)

end AiOpenRouter
