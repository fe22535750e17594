/-
The placeholder calls of a text (`parse_strict_text_tool_call`), and what the converter of a whole
response makes of a text with placeholders.

A placeholder is found by three searches: for the marker, for the name of an allowed tool behind
it, and for a `)]` before which the text is a JSON object. The last one does not stop inside of the
arguments, since no object goes on behind its last brace (`JsonText.blank_of_object_append`).

* `findPlaceholder_text`: the first placeholder of a text is found;
* `parseStrictTextToolCall_decodes`: a placeholder of printed arguments gives its name and them;
* `takePart_placeholders`: a text with placeholders gives one tool use, that of the first, and its
  other placeholders and the text around are dropped.
-/
import AiOpenRouter.JsonTexts
import AiOpenRouter.ResponsesStreamToClaude
import AiOpenRouter.SseParsers

namespace AiOpenRouter

open Text

/-! ### Placeholders -/

def Json.textKind : Json → JsonText.Kind
  | .null => .null
  | .bool _ => .bool
  | .num _ => .number
  | .str _ => .string
  | .arr _ => .array
  | .obj _ => .object

/-- The parser accepts JSON texts only, and gives a value of the kind of the text. -/
def Env.ReadsTexts (env : Env) : Prop :=
  ∀ text value, env.fromStr text = .ok value → JsonText.IsText value.textKind text.toList

/-- A call as a placeholder spells it. -/
structure Placeholder where
  blanks : List Char
  name : String
  json : String
  arguments : List (String × Json)

/-- `[Tool Call: name(json)]`. -/
def Placeholder.text (call : Placeholder) : List Char :=
  toolCallMarker ++
    (call.blanks ++ ((call.name ++ "(").toList ++ (call.json.toList ++ toolCallClose)))

/-- Names that a placeholder can spell: without a parenthesis, and without a blank in front. -/
def SpellableNames (toolNames : List String) : Prop :=
  ∀ name ∈ toolNames, '(' ∉ name.toList ∧ ∀ c ∈ name.toList.head?, isWhitespace c = false

/-- A placeholder of an allowed tool, with an object as arguments. -/
structure Placeholder.WellFormed (env : Env) (toolNames : List String) (call : Placeholder) :
    Prop where
  blanks : ∀ c ∈ call.blanks, isWhitespace c = true
  name : call.name ∈ toolNames
  json : env.fromStr call.json = .ok (.obj call.arguments)

/-! ### The arguments -/

theorem splitFirst_toolCallClose (todo after : List Char) :
    splitFirst toolCallClose (todo ++ toolCallClose ++ after) = some (todo, after) ∨
      ∃ before more, todo = before ++ toolCallClose ++ more ∧
        splitFirst toolCallClose (todo ++ toolCallClose ++ after) =
          some (before, more ++ toolCallClose ++ after) := by
  cases hsplit : splitFirst toolCallClose (todo ++ toolCallClose ++ after) with
  | none => exact absurd ⟨todo, after, rfl⟩ (splitFirst_eq_none_iff.1 hsplit)
  | some parts =>
    obtain ⟨before, rest⟩ := parts
    obtain ⟨htext, hends⟩ := (splitFirst_eq_some_iff (by decide)).1 hsplit
    rw [List.append_assoc, List.append_assoc] at htext
    rcases List.append_eq_append_iff.1 htext with ⟨more, hbefore, hmore⟩ | ⟨more, htodo, hmore⟩
    · -- the first close would be behind the one of the text
      have hprefix : toolCallClose <+: more ++ toolCallClose := by
        refine @List.prefix_of_prefix_length_le _ _ _ (toolCallClose ++ after) ⟨after, rfl⟩
          ⟨rest, by rw [hmore, List.append_assoc]⟩ ?_
        rw [List.length_append]
        omega
      obtain ⟨right, hright⟩ := hprefix
      have hnil := hends todo right (by rw [hbefore, List.append_assoc, List.append_assoc, hright])
      rw [hnil, List.append_nil] at hright
      obtain rfl : more = [] := List.append_left_eq_self.1 hright.symm
      rw [List.append_nil] at hbefore
      obtain rfl : after = rest := List.append_cancel_left hmore
      rw [hbefore]
      exact .inl rfl
    · -- between the two closes: nothing, one character (impossible), or more
      rcases more with _ | ⟨c, _ | ⟨d, more⟩⟩
      · obtain rfl : rest = after := List.append_cancel_left hmore
        rw [List.append_nil] at htodo
        rw [htodo]
        exact .inl rfl
      · change ')' :: ']' :: rest = c :: ')' :: ']' :: after at hmore
        exact absurd (List.cons.inj (List.cons.inj hmore).2).1 (by decide)
      · change ')' :: ']' :: rest = c :: d :: (more ++ (toolCallClose ++ after)) at hmore
        simp only [List.cons.injEq] at hmore
        obtain ⟨rfl, rfl, rfl⟩ := hmore
        refine .inr ⟨before, more, ?_, ?_⟩
        · rw [htodo, List.append_assoc]
          rfl
        · rw [List.append_assoc]

/-- **The arguments end at their own close**: at an earlier one they are no object yet. -/
theorem closedArguments_object {env : Env} (hreads : env.ReadsTexts) {json : String}
    {fields : List (String × Json)} (hjson : env.fromStr json = .ok (.obj fields))
    (after : List Char) : ∀ (todo seen : List Char), seen ++ todo = json.toList →
      closedArguments env seen (todo ++ toolCallClose ++ after) = some (.obj fields) := by
  intro todo
  induction hn : todo.length using Nat.strong_induction_on generalizing todo with
  | _ n ih =>
    intro seen hseen
    rw [closedArguments_eq]
    rcases splitFirst_toolCallClose todo after with hsplit | ⟨before, more, htodo, hsplit⟩
    · rw [hsplit]
      dsimp only
      rw [hseen, String.ofList_toList, hjson]
    · rw [hsplit]
      dsimp only
      have hrest : closedArguments env (seen ++ before ++ toolCallClose)
          (more ++ toolCallClose ++ after) = some (.obj fields) := by
        refine ih more.length ?_ more rfl (seen ++ before ++ toolCallClose) ?_
        · rw [← hn, htodo]
          simp only [List.length_append]
          have hclose : toolCallClose.length = 2 := by decide
          omega
        · rw [← hseen, htodo]
          simp only [List.append_assoc]
      -- a text that is cut short is no object
      have hno : ∀ found, env.fromStr (String.ofList (seen ++ before)) ≠ .ok (.obj found) := by
        intro found hfound
        have hobject := hreads _ _ hfound
        have htext := hreads _ _ hjson
        rw [String.toList_ofList] at hobject
        rw [← hseen, htodo, List.append_assoc before, ← List.append_assoc seen] at htext
        have hblank := JsonText.blank_of_object_append hobject htext
        exact absurd (hblank ')' (List.mem_append_left _ List.mem_cons_self)) (by decide)
      cases hread : env.fromStr (String.ofList (seen ++ before)) with
      | error _ => exact hrest
      | ok value =>
        cases value with
        | obj found => exact absurd hread (hno found)
        | null | bool _ | num _ | str _ | arr _ => exact hrest

/-! ### The tool -/

theorem stripPrefix_name_eq_some {candidate name : String} {rest rest' : List Char}
    (hcandidate : '(' ∉ candidate.toList) (hname : '(' ∉ name.toList)
    (h : stripPrefix (candidate ++ "(") ((name ++ "(").toList ++ rest) = some rest') :
    candidate = name := by
  have htext := stripPrefix_eq_some h
  rw [String.toList_append, String.toList_append] at htext
  have hsplit := splitFirst_of_endsFirst rest (@endsFirst_of_notMem '(' [] _ hname)
  have hsplit' := splitFirst_of_endsFirst rest' (@endsFirst_of_notMem '(' [] _ hcandidate)
  have hsame : name.toList ++ ['('] ++ rest = candidate.toList ++ ['('] ++ rest' := htext
  rw [hsame, hsplit'] at hsplit
  exact String.toList_inj.1 (Prod.mk.inj (Option.some.inj hsplit)).1

theorem matchTool_name {toolNames : List String} (hnames : SpellableNames toolNames) {name : String}
    (hname : name ∈ toolNames) (rest : List Char) :
    matchTool toolNames ((name ++ "(").toList ++ rest) = some (name, rest) := by
  have hopen := (hnames name hname).1
  unfold matchTool
  induction toolNames with
  | nil => cases hname
  | cons candidate toolNames ih =>
    rw [List.findSome?_cons]
    by_cases hcandidate : candidate = name
    · rw [hcandidate, stripPrefix_append]
      rfl
    · have hnone : stripPrefix (candidate ++ "(") ((name ++ "(").toList ++ rest) = none := by
        cases hstrip : stripPrefix (candidate ++ "(") ((name ++ "(").toList ++ rest) with
        | none => rfl
        | some rest' =>
          exact absurd (stripPrefix_name_eq_some (hnames candidate List.mem_cons_self).1 hopen
            hstrip) hcandidate
      rw [hnone]
      refine ih (fun other hother => hnames other (List.mem_cons_of_mem _ hother)) ?_
      rcases List.mem_cons.1 hname with heq | hmem
      · exact absurd heq.symm hcandidate
      · exact hmem

theorem trimStart_blanks {blanks rest : List Char} (hblanks : ∀ c ∈ blanks, isWhitespace c = true)
    (hrest : ∀ c ∈ rest.head?, isWhitespace c = false) : trimStart (blanks ++ rest) = rest := by
  unfold trimStart
  rw [List.dropWhile_append_of_pos hblanks]
  cases rest with
  | nil => rfl
  | cons c rest => exact List.dropWhile_cons_of_neg (Bool.eq_false_iff.1 (hrest c rfl))

variable {before : List Char}

theorem splitFirst_marker (hbefore : ¬ toolCallMarker <:+: before) (rest : List Char) :
    splitFirst toolCallMarker (before ++ toolCallMarker ++ rest) = some (before, rest) :=
  splitFirst_of_endsFirst rest
    (@endsFirst_of_notInfix '[' "Tool Call:".toList before (by decide) hbefore)

/-- **The first placeholder of a text is found.** -/
theorem findPlaceholder_text {env : Env} (hreads : env.ReadsTexts) {toolNames : List String}
    (hnames : SpellableNames toolNames) {call : Placeholder} (hcall : call.WellFormed env toolNames)
    (hbefore : ¬ toolCallMarker <:+: before) (after : List Char) :
    findPlaceholder env toolNames (before ++ call.text ++ after) =
      some ⟨call.name, .obj call.arguments⟩ := by
  have htext : before ++ call.text ++ after = before ++ toolCallMarker ++ (call.blanks ++
      ((call.name ++ "(").toList ++ (call.json.toList ++ toolCallClose ++ after))) := by
    unfold Placeholder.text
    simp only [List.append_assoc]
  have hhead : ∀ c ∈ ((call.name ++ "(").toList ++
      (call.json.toList ++ toolCallClose ++ after)).head?, isWhitespace c = false := by
    rw [String.toList_append]
    intro c hc
    cases hlist : call.name.toList with
    | nil =>
      rw [hlist] at hc
      cases hc
      decide
    | cons d rest =>
      rw [hlist] at hc
      exact (hnames call.name hcall.name).2 c (by rw [hlist]; exact hc)
  rw [htext, findPlaceholder_eq, splitFirst_marker hbefore]
  dsimp only
  rw [trimStart_blanks hcall.blanks hhead, matchTool_name hnames hcall.name]
  dsimp only
  rw [closedArguments_object hreads hcall.json after call.json.toList [] rfl]

theorem parseStrictTextToolCall_text {env : Env} (hreads : env.ReadsTexts)
    {allowedToolNames : List String} (hnames : SpellableNames allowedToolNames) {call : Placeholder}
    (hcall : call.WellFormed env allowedToolNames) (hbefore : ¬ toolCallMarker <:+: before)
    (after : List Char) :
    parseStrictTextToolCall env allowedToolNames (before ++ call.text ++ after) =
      some ⟨call.name, .obj call.arguments⟩ := by
  unfold parseStrictTextToolCall
  refine findPlaceholder_text hreads (fun name hname => hnames name ?_)
    ⟨hcall.blanks, ?_, hcall.json⟩ hbefore after
  · exact (List.mem_insertionSort _).1 hname
  · exact (List.mem_insertionSort _).2 hcall.name

/-- **A placeholder of an allowed tool is decoded**, whatever stands in its arguments and around
it; and what is decoded from a text is an object for an allowed tool. -/
theorem parseStrictTextToolCall_decodes {env : Env} (hreads : env.ReadsTexts)
    {allowedToolNames : List String} (hnames : SpellableNames allowedToolNames) :
    (∀ name ∈ allowedToolNames, ∀ arguments,
      env.fromStr (env.toStr (.obj arguments)) = .ok (.obj arguments) →
        ∀ before after : String, ¬ toolCallMarker <:+: before.toList →
          parseStrictTextToolCall env allowedToolNames (before ++ "[Tool Call: " ++ name ++ "(" ++
            env.toStr (.obj arguments) ++ ")]" ++ after).toList =
              some ⟨name, .obj arguments⟩) ∧
      ∀ text parsed, parseStrictTextToolCall env allowedToolNames text = some parsed →
        parsed.name ∈ allowedToolNames ∧ ∃ fields, parsed.arguments = .obj fields := by
  constructor
  · intro name hname arguments hround before after hbefore
    have hcall : Placeholder.WellFormed env allowedToolNames
        ⟨[' '], name, env.toStr (.obj arguments), arguments⟩ :=
      ⟨fun c hc => by rw [List.mem_singleton.1 hc]; decide, hname, hround⟩
    have hparsed := parseStrictTextToolCall_text hreads hnames hcall hbefore after.toList
    rw [← hparsed]
    congr 1
    simp only [String.toList_append, Placeholder.text, List.append_assoc]
    rfl
  · intro text parsed h
    obtain ⟨hmem, hobject, -⟩ := findPlaceholder_spec h
    exact ⟨(List.mem_insertionSort _).1 hmem, hobject⟩

/-- Arguments with the close of a placeholder in a string. -/
def closeArguments : List (String × Json) := [("a", .str ")]")]

/-- The parser of these arguments. -/
def closeEnv : Env := Env.ofValues [.obj closeArguments]

theorem closeEnv_readsTexts : closeEnv.ReadsTexts := by
  intro text value h
  obtain ⟨hmem, rfl⟩ := compact_of_fromStr_ofValues h
  rw [List.mem_singleton.1 hmem]
  have hkey : JsonText.Quoted ['a'] := .unescaped (by decide) (by decide) (by decide) .nil
  have hclose : JsonText.Quoted [')', ']'] :=
    .unescaped (by decide) (by decide) (by decide)
      (.unescaped (by decide) (by decide) (by decide) .nil)
  have hnone : JsonText.Blank [] := fun _ hc => absurd hc List.not_mem_nil
  exact ⟨[], _, [], rfl, hnone, .object (.member hnone hkey hnone hnone (.string hclose) hnone),
    hnone⟩

theorem spellable_of_head {name : List Char} (hparen : '(' ∉ name)
    (hhead : name.head?.all (fun c => !isWhitespace c) = true) :
    '(' ∉ name ∧ ∀ c ∈ name.head?, isWhitespace c = false := by
  refine ⟨hparen, fun c hc => ?_⟩
  rw [Option.mem_def.1 hc] at hhead
  simpa using hhead

theorem parseStrictTextToolCall_decodes_close :
    parseStrictTextToolCall closeEnv ["Bash", "Bash2"]
        ("Run: " ++ "[Tool Call: " ++ "Bash2" ++ "(" ++ closeEnv.toStr (.obj closeArguments) ++
          ")]" ++ " now").toList =
      some ⟨"Bash2", .obj closeArguments⟩ := by
  refine (@parseStrictTextToolCall_decodes closeEnv closeEnv_readsTexts ["Bash", "Bash2"] ?_).1
    "Bash2" (by decide) closeArguments rfl "Run: " " now" ?_
  · intro name hname
    rcases List.mem_cons.1 hname with rfl | hname
    · exact spellable_of_head (by decide) (by decide)
    · rw [List.mem_singleton.1 hname]
      exact spellable_of_head (by decide) (by decide)
  · exact splitFirst_eq_none_iff.1 (by decide)

/-! ### What a whole response makes of it -/

/-- A text with placeholders: what stands before the first one, and behind each of them. -/
def placeholdersText (before : List Char) (calls : List (Placeholder × List Char)) : List Char :=
  before ++ calls.flatMap fun call => call.1.text ++ call.2

/-- Blocks lose nothing of a text with placeholders: there is a tool use for each of them, in
their order, and the text around is there. -/
def KeepsPlaceholders (before : List Char) (calls : List (Placeholder × List Char))
    (blocks : List AnswerBlock) : Prop :=
  (answerTools blocks).map Prod.snd =
      calls.map (fun call => (call.1.name, .ok (.obj call.1.arguments))) ∧
    answerText blocks = String.ofList (before ++ calls.flatMap Prod.snd)

/-- **A text with placeholders gives one tool use, that of the first placeholder**: nothing is lost
exactly when there is no other one, and no text around it. -/
theorem takePart_placeholders {env : Env} (hreads : env.ReadsTexts)
    {options : ResponsesToClaudeOptions} (henabled : options.textToolCallFallbackEnabled = true)
    (hnames : SpellableNames options.allowedToolNames) {before : List Char}
    (hbefore : ¬ toolCallMarker <:+: before) {call : Placeholder × List Char}
    {calls : List (Placeholder × List Char)}
    (hcalls : ∀ other ∈ call :: calls, other.1.WellFormed env options.allowedToolNames)
    (acc : WholeAnswer) {part : Json} (htype : part.getStr "type" = some "output_text")
    (htext : part.getStr "text" = some (String.ofList (placeholdersText before (call :: calls)))) :
    ∃ block, WholeAnswer.takePart env options acc part =
        { content := acc.content ++ [block]
          hasToolUse := true
          uuidsDrawn := acc.uuidsDrawn + 1 } ∧
      (∃ id, readContent block = .toolUse id call.1.name (.ok (.obj call.1.arguments))) ∧
        (KeepsPlaceholders before (call :: calls) [readContent block] ↔
          before = [] ∧ call.2 = [] ∧ calls = []) := by
  have hparsed : options.recognise env (String.ofList (placeholdersText before (call :: calls))) =
      some ⟨call.1.name, .obj call.1.arguments⟩ := by
    have hfirst := parseStrictTextToolCall_text hreads hnames (hcalls call List.mem_cons_self)
      hbefore (call.2 ++ calls.flatMap fun other => other.1.text ++ other.2)
    unfold ResponsesToClaudeOptions.recognise
    rw [henabled, if_pos rfl, parseTextToolCallFallback, String.toList_ofList, placeholdersText,
      List.flatMap_cons, List.append_assoc, ← List.append_assoc before, hfirst]
    rfl
  refine ⟨recognisedBlock ("fallback_call_" ++ simpleUuid (env.uuidV4 acc.uuidsDrawn))
    ⟨call.1.name, .obj call.1.arguments⟩, ?_,
    ⟨_, WholeAnswer.readContent_recognisedBlock _ _⟩, ?_⟩
  · unfold WholeAnswer.takePart
    rw [htype]
    dsimp only
    rw [htext]
    dsimp only
    rw [hparsed]
    rfl
  · rw [WholeAnswer.readContent_recognisedBlock]
    have htools : ∀ id, (answerTools [.toolUse id call.1.name (.ok (.obj call.1.arguments))]).map
        Prod.snd = [(call.1.name, .ok (.obj call.1.arguments))] := fun _ => rfl
    have hnone : ∀ id, answerText [.toolUse id call.1.name (.ok (.obj call.1.arguments))] = "" :=
      fun _ => rfl
    unfold KeepsPlaceholders
    rw [htools, hnone, List.map_cons]
    constructor
    · rintro ⟨htools, htext⟩
      obtain rfl : calls = [] := List.map_eq_nil_iff.1 (List.cons.inj htools).2.symm
      have hnil := congrArg String.toList htext
      rw [List.flatMap_singleton, @String.toList_ofList (before ++ call.2)] at hnil
      obtain ⟨hbefore, hbehind⟩ := List.append_eq_nil_iff.1 hnil.symm
      exact ⟨hbefore, hbehind, rfl⟩
    · rintro ⟨rfl, hbehind, rfl⟩
      refine ⟨rfl, ?_⟩
      rw [List.flatMap_singleton, hbehind]
      rfl

/-- A placeholder of a tool. -/
def closeCall : Placeholder := ⟨[' '], "Bash", (Json.obj closeArguments).compact, closeArguments⟩

def textResponse (text : List Char) : Json :=
  .obj [("output", .arr [.obj [("type", .str "message"), ("content", .arr [.obj
    [("type", .str "output_text"), ("text", .str (String.ofList text))]])]])]

theorem closeCall_wellFormed : closeCall.WellFormed closeEnv ["Bash"] :=
  ⟨List.forall_mem_singleton.2 rfl, List.mem_singleton.2 rfl, rfl⟩

theorem spellableNames_bash : SpellableNames ["Bash"] := by
  intro name hname
  rw [List.mem_singleton.1 hname]
  exact spellable_of_head (by decide) (by decide)

theorem parseTextToolCallFallback_spec_close :
    "Bash" ∈ ["Bash"] ∧ (∃ fields, Json.obj closeArguments = .obj fields) ∧
      (HasPlaceholder closeEnv ("".toList ++ closeCall.text ++ []) ⟨"Bash", .obj closeArguments⟩ ∨
        resolveAllowedToolName ["Bash"] "Bash" = some "Bash" ∧
          HasCommandArray closeEnv ("".toList ++ closeCall.text ++ []) (.obj closeArguments)) :=
  @parseTextToolCallFallback_spec ("".toList ++ closeCall.text ++ []) closeEnv ["Bash"]
    ⟨"Bash", .obj closeArguments⟩ (by
      rw [parseTextToolCallFallback, parseStrictTextToolCall_text closeEnv_readsTexts
        spellableNames_bash closeCall_wellFormed (splitFirst_eq_none_iff.1 (by decide))]
      rfl)

theorem takePart_placeholders_bash :
    ∃ block, WholeAnswer.takePart closeEnv bashFallback {}
        (.obj [("type", .str "output_text"), ("text", .str (String.ofList
          (placeholdersText "Run: ".toList [(closeCall, []), (closeCall, [])])))]) =
        { content := [block], hasToolUse := true, uuidsDrawn := 1 } ∧
      (∃ id, readContent block = .toolUse id "Bash" (.ok (.obj closeArguments))) ∧
        (KeepsPlaceholders "Run: ".toList [(closeCall, []), (closeCall, [])] [readContent block] ↔
          "Run: ".toList = [] ∧ ([] : List Char) = [] ∧ [(closeCall, ([] : List Char))] = []) := by
  have hbefore : ¬ toolCallMarker <:+: "Run: ".toList := splitFirst_eq_none_iff.1 (by decide)
  refine @takePart_placeholders closeEnv closeEnv_readsTexts bashFallback rfl spellableNames_bash _
    hbefore (closeCall, []) [(closeCall, [])] ?_ {} _ rfl rfl
  intro other hother
  rcases List.mem_cons.1 hother with rfl | hother
  · exact closeCall_wellFormed
  · rw [List.mem_singleton.1 hother]
    exact closeCall_wellFormed

/-- Of two calls with a text in front the second one and the text are lost. -/
theorem not_keepsPlaceholders_twoCalls :
    (messageAnswer (openaiResponsesRespToClaudeWithOptions closeEnv bashFallback (textResponse
        (placeholdersText "Run: ".toList [(closeCall, []), (closeCall, [])])))).length = 1 ∧
      ¬ KeepsPlaceholders "Run: ".toList [(closeCall, []), (closeCall, [])]
        (messageAnswer (openaiResponsesRespToClaudeWithOptions closeEnv bashFallback (textResponse
          (placeholdersText "Run: ".toList [(closeCall, []), (closeCall, [])])))) := by
  have hlength : (messageAnswer (openaiResponsesRespToClaudeWithOptions closeEnv bashFallback
      (textResponse (placeholdersText "Run: ".toList
        [(closeCall, []), (closeCall, [])])))).length = 1 := by decide +kernel
  refine ⟨hlength, fun h => ?_⟩
  have htools := congrArg List.length h.1
  rw [List.length_map, List.length_map] at htools
  have hle := List.length_filterMap_le AnswerBlock.toolPart (messageAnswer
    (openaiResponsesRespToClaudeWithOptions closeEnv bashFallback (textResponse
      (placeholdersText "Run: ".toList [(closeCall, []), (closeCall, [])]))))
  rw [hlength] at hle
  change (answerTools _).length = 2 at htools
  change (answerTools _).length ≤ 1 at hle
  omega

end AiOpenRouter
