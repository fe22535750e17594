/-
Tool calls written as text (`parse_text_tool_call_fallback`).

Some models write a tool call into their text instead of sending one.  Two
forms are recognised: the placeholder `[Tool Call: name(arguments)]`, and a JSON
object with a `command` array that starts with a shell.  The set of allowed
tool names is a list, in the order in which it is iterated.

A recognised call is of an allowed tool, its arguments are an object, and it stands in
the text in one of the two forms (`parseTextToolCallFallback_spec`).
-/
import AiOpenRouter.SseParsers
import AiOpenRouter.StreamContext
import AiOpenRouter.ThinkTags

namespace AiOpenRouter

open Text

/-- `ParsedTextToolCall`. -/
structure ParsedTextToolCall where
  name : String
  arguments : Json

/-! ### Placeholders -/

/-- `MARKER`. -/
def toolCallMarker : List Char := "[Tool Call:".toList

def toolCallClose : List Char := ")]".toList

/-- The arguments in `seen ++ rest`: they end at the first `)]` of `rest` before which they are a
JSON object. -/
def closedArguments (env : Env) (seen rest : List Char) : Option Json :=
  match _hclose : splitFirst toolCallClose rest with
  | none => none
  | some (before, after) =>
    match env.fromStr (String.ofList (seen ++ before)) with
    | .ok (.obj fields) => some (.obj fields)
    | _ => closedArguments env (seen ++ before ++ toolCallClose) after
termination_by rest.length
decreasing_by
  have hlength := length_of_splitFirst _hclose
  have hclose : toolCallClose.length = 2 := by decide
  omega

/-- The first tool that is called at the start of a text, and what follows its parenthesis. -/
def matchTool (toolNames : List String) (inner : List Char) : Option (String × List Char) :=
  toolNames.findSome? fun name => (stripPrefix (name ++ "(") inner).map fun rest => (name, rest)

/-- The loop of `parse_strict_text_tool_call` over the markers of a text. -/
def findPlaceholder (env : Env) (toolNames : List String) (text : List Char) :
    Option ParsedTextToolCall :=
  match _hmarker : splitFirst toolCallMarker text with
  | none => none
  | some (_, inner) =>
    match matchTool toolNames (trimStart inner) with
    | none => findPlaceholder env toolNames inner
    | some (name, rest) =>
      match closedArguments env [] rest with
      | some arguments => some ⟨name, arguments⟩
      | none => findPlaceholder env toolNames inner
termination_by text.length
decreasing_by
  all_goals
    have hlength := length_of_splitFirst _hmarker
    have hmarker : toolCallMarker.length = 11 := by decide
    omega

/-- `parse_strict_text_tool_call`: longer tool names come first. -/
def parseStrictTextToolCall (env : Env) (allowedToolNames : List String) (text : List Char) :
    Option ParsedTextToolCall :=
  findPlaceholder env
    (allowedToolNames.insertionSort fun a b => b.utf8ByteSize ≤ a.utf8ByteSize) text

/-! ### Command arrays -/

/-- `resolve_allowed_tool_name`. -/
def resolveAllowedToolName (allowedToolNames : List String) (preferred : String) :
    Option String :=
  if preferred ∈ allowedToolNames then some preferred
  else
    allowedToolNames.find? fun name =>
      name.toList.map Char.toLower = preferred.toList.map Char.toLower

/-- The loop of `find_json_object_end`: how many characters come before the closing brace. -/
def scanObject (depth : ℤ) (inString escaped : Bool) : List Char → Option ℕ
  | [] => none
  | b :: rest =>
    if inString then
      if escaped then (scanObject depth true false rest).map (· + 1)
      else (scanObject depth (b ≠ '"') (b = '\\') rest).map (· + 1)
    else if b = '"' then (scanObject depth true false rest).map (· + 1)
    else if b = '\x7b' then (scanObject (wrapI32 (depth + 1)) false false rest).map (· + 1)
    else if b = '\x7d' then
      if wrapI32 (depth - 1) = 0 then some 0
      else (scanObject (wrapI32 (depth - 1)) false false rest).map (· + 1)
    else (scanObject depth false false rest).map (· + 1)

/-- `is_shell_program`. -/
def isShellProgram (program : String) : Bool :=
  program ∈ ["bash", "/bin/bash", "sh", "/bin/sh", "zsh", "/bin/zsh"]

def shellCommand : List String → String
  | flag :: first :: rest =>
    if flag = "-lc" ∨ flag = "-c" then " ".intercalate (first :: rest)
    else " ".intercalate (flag :: first :: rest)
  | arguments => " ".intercalate arguments

def commandOptions (value : Json) (arguments : List (String × Json)) : List (String × Json) :=
  let arguments :=
    match value.getStr "description" with
    | some description =>
      if trim description.toList = [] then arguments
      else Json.insertField arguments "description" (.str description)
    | none => arguments
  match (value.getI64 "timeout").or (value.getI64 "timeout_ms") with
  | some timeout =>
    if 0 < timeout then Json.insertField arguments "timeout" (.int timeout) else arguments
  | none => arguments

/-- `normalize_bash_command_array_arguments`. -/
def normalizeBashCommandArrayArguments (value : Json) : Option Json :=
  match ((value.get "command").bind Json.asArray).bind fun command => command.mapM Json.asStr with
  | some (shell :: arguments) =>
    let commandText := trim (shellCommand arguments).toList
    if isShellProgram shell ∧ commandText ≠ [] then
      some (.obj (commandOptions value [("command", .str (String.ofList commandText))]))
    else none
  | _ => none

/-- The loop of `parse_command_array_text_tool_call` over the opening braces of a text. -/
def findCommandArray (env : Env) (text : List Char) : Option Json :=
  match _hopen : splitFirst ['\x7b'] text with
  | none => none
  | some (_, after) =>
    let object := '\x7b' :: after
    let value := (scanObject 0 false false object).bind fun last =>
      (env.fromStr (String.ofList (object.take (last + 1)))).toOption
    match value.bind normalizeBashCommandArrayArguments with
    | some arguments => some arguments
    | none => findCommandArray env after
termination_by text.length
decreasing_by
  have hlength := length_of_splitFirst _hopen
  rw [List.length_singleton] at hlength
  omega

/-- `parse_command_array_text_tool_call`. -/
def parseCommandArrayTextToolCall (env : Env) (allowedToolNames : List String)
    (text : List Char) : Option ParsedTextToolCall :=
  (resolveAllowedToolName allowedToolNames "Bash").bind fun name =>
    (findCommandArray env text).map fun arguments => ⟨name, arguments⟩

/-- `parse_text_tool_call_fallback`. -/
def parseTextToolCallFallback (env : Env) (allowedToolNames : List String) (text : List Char) :
    Option ParsedTextToolCall :=
  (parseStrictTextToolCall env allowedToolNames text).or
    (parseCommandArrayTextToolCall env allowedToolNames text)

/-! ### What is recognised -/

variable {text : List Char} {arguments : Json} (env : Env)

theorem parseTextToolCallFallback_of_plain (allowedToolNames : List String)
    (hmarker : splitFirst toolCallMarker text = none) (hbrace : splitFirst ['\x7b'] text = none) :
    parseTextToolCallFallback env allowedToolNames text = none := by
  have hplaceholder : ∀ toolNames, findPlaceholder env toolNames text = none := by
    intro toolNames
    rw [findPlaceholder]
    split <;> simp_all
  have hcommand : findCommandArray env text = none := by
    rw [findCommandArray]
    split <;> simp_all
  rw [parseTextToolCallFallback, parseStrictTextToolCall, hplaceholder,
    parseCommandArrayTextToolCall, hcommand]
  cases resolveAllowedToolName allowedToolNames "Bash" <;> rfl

theorem closedArguments_eq (seen rest : List Char) :
    closedArguments env seen rest =
      match splitFirst toolCallClose rest with
      | none => none
      | some (before, after) =>
        match env.fromStr (String.ofList (seen ++ before)) with
        | .ok (.obj fields) => some (.obj fields)
        | _ => closedArguments env (seen ++ before ++ toolCallClose) after := by
  rw [closedArguments]
  split <;> rename_i heq <;> rw [heq]

theorem findPlaceholder_eq (toolNames : List String) (text : List Char) :
    findPlaceholder env toolNames text =
      match splitFirst toolCallMarker text with
      | none => none
      | some (_, inner) =>
        match matchTool toolNames (trimStart inner) with
        | none => findPlaceholder env toolNames inner
        | some (name, rest) =>
          match closedArguments env [] rest with
          | some arguments => some ⟨name, arguments⟩
          | none => findPlaceholder env toolNames inner := by
  rw [findPlaceholder]
  split <;> rename_i heq <;> rw [heq]

theorem findCommandArray_eq (text : List Char) :
    findCommandArray env text =
      match splitFirst ['\x7b'] text with
      | none => none
      | some (_, after) =>
        match ((scanObject 0 false false ('\x7b' :: after)).bind fun last =>
            (env.fromStr (String.ofList (('\x7b' :: after).take (last + 1)))).toOption).bind
              normalizeBashCommandArrayArguments with
        | some arguments => some arguments
        | none => findCommandArray env after := by
  rw [findCommandArray]
  split <;> rename_i heq <;> rw [heq]

theorem closedArguments_spec {env : Env} {seen rest : List Char}
    (h : closedArguments env seen rest = some arguments) :
    (∃ fields, arguments = .obj fields) ∧ ∃ object after,
      rest = object ++ (toolCallClose ++ after) ∧
        env.fromStr (String.ofList (seen ++ object)) = .ok arguments := by
  induction seen, rest using closedArguments.induct env with
  | case1 seen rest hclose =>
    rw [closedArguments_eq, hclose] at h
    cases h
  | case2 seen rest before after hclose fields hread =>
    rw [closedArguments_eq, hclose] at h
    dsimp only at h
    rw [hread] at h
    obtain rfl := Option.some.inj h
    refine ⟨⟨fields, rfl⟩, before, after, ?_, hread⟩
    rw [splitFirst_eq_some hclose, List.append_assoc]
  | case3 seen rest before after hclose hread ih =>
    rw [closedArguments_eq, hclose] at h
    dsimp only at h
    split at h
    · rename_i fields hobject
      exact absurd hobject (hread fields)
    · -- this close belongs to the arguments
      obtain ⟨hobject, object, after', hafter, hvalue⟩ := ih h
      refine ⟨hobject, before ++ (toolCallClose ++ object), after', ?_, ?_⟩
      · rw [splitFirst_eq_some hclose, hafter]
        simp only [List.append_assoc]
      · simpa only [List.append_assoc] using hvalue

theorem matchTool_spec {toolNames : List String} {inner rest : List Char} {name : String}
    (h : matchTool toolNames inner = some (name, rest)) :
    name ∈ toolNames ∧ inner = (name ++ "(").toList ++ rest := by
  obtain ⟨candidate, hmem, hcandidate⟩ := List.exists_of_findSome?_eq_some h
  obtain ⟨_, hstrip, heq⟩ := Option.map_eq_some_iff.1 hcandidate
  obtain ⟨rfl, rfl⟩ := Prod.mk.inj heq
  exact ⟨hmem, stripPrefix_eq_some hstrip⟩

/-- A call stands in the text as a placeholder. -/
def HasPlaceholder (env : Env) (text : List Char) (parsed : ParsedTextToolCall) : Prop :=
  ∃ before blanks object after, text = before ++ (toolCallMarker ++ (blanks ++
      ((parsed.name ++ "(").toList ++ (object ++ (toolCallClose ++ after))))) ∧
    (∀ c ∈ blanks, isWhitespace c = true) ∧
    env.fromStr (String.ofList object) = .ok parsed.arguments

theorem HasPlaceholder.append_left {env : Env} {parsed : ParsedTextToolCall}
    (h : HasPlaceholder env text parsed) (front : List Char) :
    HasPlaceholder env (front ++ text) parsed := by
  obtain ⟨before, blanks, object, after, rfl, hblanks, hvalue⟩ := h
  exact ⟨front ++ before, blanks, object, after, (List.append_assoc ..).symm, hblanks, hvalue⟩

theorem findPlaceholder_spec {env : Env} {toolNames : List String} {parsed : ParsedTextToolCall}
    (h : findPlaceholder env toolNames text = some parsed) :
    parsed.name ∈ toolNames ∧ (∃ fields, parsed.arguments = .obj fields) ∧
      HasPlaceholder env text parsed := by
  induction text using findPlaceholder.induct env toolNames with
  | case1 text hmarker =>
    rw [findPlaceholder_eq, hmarker] at h
    cases h
  | case2 text skipped inner hmarker hmatch ih =>
    rw [findPlaceholder_eq, hmarker] at h
    dsimp only at h
    rw [hmatch] at h
    obtain ⟨hname, hobject, hfound⟩ := ih h
    exact ⟨hname, hobject, splitFirst_eq_some hmarker ▸ hfound.append_left _⟩
  | case3 text skipped inner hmarker name rest hmatch arguments hclose =>
    rw [findPlaceholder_eq, hmarker] at h
    dsimp only at h
    rw [hmatch] at h
    dsimp only at h
    rw [hclose] at h
    cases h
    obtain ⟨hname, hinner⟩ := matchTool_spec hmatch
    obtain ⟨hobject, object, after, hrest, hvalue⟩ := closedArguments_spec hclose
    refine ⟨hname, hobject, skipped, inner.takeWhile isWhitespace, object, after, ?_,
      List.all_eq_true.1 List.all_takeWhile, hvalue⟩
    rw [← hrest, ← hinner, trimStart, List.takeWhile_append_dropWhile, splitFirst_eq_some hmarker,
      List.append_assoc]
  | case4 text skipped inner hmarker name rest hmatch hclose ih =>
    rw [findPlaceholder_eq, hmarker] at h
    dsimp only at h
    rw [hmatch] at h
    dsimp only at h
    rw [hclose] at h
    obtain ⟨hname, hobject, hfound⟩ := ih h
    exact ⟨hname, hobject, splitFirst_eq_some hmarker ▸ hfound.append_left _⟩

theorem normalizeBashCommandArrayArguments_eq_obj {value : Json}
    (h : normalizeBashCommandArrayArguments value = some arguments) :
    ∃ fields, arguments = .obj fields := by
  unfold normalizeBashCommandArrayArguments at h
  split at h
  · dsimp only at h
    split_ifs at h
    exact ⟨_, (Option.some_inj.1 h).symm⟩
  · cases h

/-- Arguments come from a command array in the text. -/
def HasCommandArray (env : Env) (text : List Char) (arguments : Json) : Prop :=
  ∃ before object after value, text = before ++ (object ++ after) ∧
    env.fromStr (String.ofList object) = .ok value ∧
    normalizeBashCommandArrayArguments value = some arguments

theorem findCommandArray_spec {env : Env} (h : findCommandArray env text = some arguments) :
    HasCommandArray env text arguments := by
  induction text using findCommandArray.induct env with
  | case1 text hopen =>
    rw [findCommandArray_eq, hopen] at h
    cases h
  | case2 text skipped after hopen object value found hvalue =>
    rw [findCommandArray_eq, hopen] at h
    dsimp only at h
    rw [hvalue] at h
    cases h
    obtain ⟨value', hread, hnormal⟩ := Option.bind_eq_some_iff.1 hvalue
    obtain ⟨last, -, hlast⟩ := Option.bind_eq_some_iff.1 hread
    refine ⟨skipped, object.take (last + 1), object.drop (last + 1), value', ?_,
      toOption_eq_some_iff.1 hlast, hnormal⟩
    rw [List.take_append_drop, splitFirst_eq_some hopen, List.append_assoc]
    rfl
  | case3 text skipped after hopen object value hvalue ih =>
    rw [findCommandArray_eq, hopen] at h
    dsimp only at h
    rw [hvalue] at h
    obtain ⟨before, object, rest, value, hafter, hread, hnormal⟩ := ih h
    refine ⟨skipped ++ ['\x7b'] ++ before, object, rest, value, ?_, hread, hnormal⟩
    rw [splitFirst_eq_some hopen, hafter, List.append_assoc (skipped ++ ['\x7b'])]

theorem mem_of_resolveAllowedToolName {allowedToolNames : List String} {preferred name : String}
    (h : resolveAllowedToolName allowedToolNames preferred = some name) :
    name ∈ allowedToolNames := by
  unfold resolveAllowedToolName at h
  split_ifs at h with hmem
  · rwa [← Option.some_inj.1 h]
  · exact List.mem_of_find?_eq_some h

/-- **A recognised call is of an allowed tool, its arguments are an object, and the text says it**,
in a placeholder or in a command array. -/
theorem parseTextToolCallFallback_spec {env : Env} {allowedToolNames : List String}
    {parsed : ParsedTextToolCall}
    (h : parseTextToolCallFallback env allowedToolNames text = some parsed) :
    parsed.name ∈ allowedToolNames ∧ (∃ fields, parsed.arguments = .obj fields) ∧
      (HasPlaceholder env text parsed ∨
        resolveAllowedToolName allowedToolNames "Bash" = some parsed.name ∧
          HasCommandArray env text parsed.arguments) := by
  rcases Option.or_eq_some_iff.1 h with h | ⟨-, h⟩
  · obtain ⟨hmem, hobject, hfound⟩ := findPlaceholder_spec h
    exact ⟨(List.mem_insertionSort _).1 hmem, hobject, .inl hfound⟩
  · obtain ⟨name, hname, hparsed⟩ := Option.bind_eq_some_iff.1 h
    obtain ⟨arguments, harguments, rfl⟩ := Option.map_eq_some_iff.1 hparsed
    have hfound : HasCommandArray env text arguments := findCommandArray_spec harguments
    obtain ⟨_, _, _, _, -, -, hnormal⟩ := id hfound
    exact ⟨mem_of_resolveAllowedToolName hname,
      normalizeBashCommandArrayArguments_eq_obj hnormal, .inr ⟨hname, hfound⟩⟩

end AiOpenRouter
