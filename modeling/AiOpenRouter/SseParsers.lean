/-
The two parsers of event blocks, compared.

`parse_sse` trims a line and wants `data: ` with the space; a later data line
replaces an earlier one.  `parse_sse_block` trims carriage returns only, takes
`data:` without the space, too, and joins the data lines.

* `parsersAgree_iff` — on which blocks the two agree;
* `not_parsersAgree_noSpace` — not on a data line without the optional space.
-/
import AiOpenRouter.Sse
import Mathlib.Data.List.Induction

namespace AiOpenRouter

open Text

/-- The parsers extract the same name and payload; no payload is no data line. -/
def ParsersAgree (event : Bytes) : Prop :=
  match parseSseBlock event with
  | none => (parseSse event).2 = ""
  | some (eventType, data) => parseSse event = (eventType, data) ∧ data ≠ ""

instance (event : Bytes) : Decidable (ParsersAgree event) := by
  unfold ParsersAgree
  exact match parseSseBlock event with
    | none => inferInstance
    | some (_, _) => inferInstance

/-! ### Lines -/

def blockLines (event : Bytes) : List (List Char) := lines (fromUtf8Lossy event)

def trimmedEvent (line : List Char) : Option (List Char) := stripPrefix "event: " (trim line)

def trimmedData (line : List Char) : Option (List Char) := stripPrefix "data: " (trim line)

def bareLine (line : List Char) : List Char := trimEndMatches (· == '\r') line

def fieldEvent (line : List Char) : Option (List Char) :=
  (stripPrefix "event: " (bareLine line)).map trim

/-- A data value: what follows `data: `, or `data:` and any blanks. -/
def fieldData (line : List Char) : Option (List Char) :=
  stripPrefix "data: " (bareLine line) <|> (stripPrefix "data:" (bareLine line)).map trimStart

def lastValue (values : List (List Char)) : List Char := values.getLast?.getD []

/-- The lines read alike: no data line in either reading; or one field `data`, not empty, which is
also the last data line of the trimmed reading, and the same last event name. -/
def ReadAlike (ls : List (List Char)) : Prop :=
  (ls.filterMap fieldData = [] ∧ ls.filterMap trimmedData = []) ∨
  ∃ value, value ≠ [] ∧ ls.filterMap fieldData = [value] ∧
    (ls.filterMap trimmedData).getLast? = some value ∧
    lastValue (ls.filterMap trimmedEvent) = lastValue (ls.filterMap fieldEvent)

theorem lastValue_append (values : List (List Char)) (v : List Char) :
    lastValue (values ++ [v]) = v := by
  simp [lastValue]

variable {v line : List Char} (s : List Char)

theorem stripPrefix_eq_some {pre : String} (h : stripPrefix pre line = some v) :
    line = pre.toList ++ v := by
  rw [stripPrefix, List.dropPrefix?_eq_some_iff] at h
  obtain ⟨pre', rfl, hpre⟩ := h
  rw [eq_of_beq hpre]

theorem stripPrefix_data_of_event (h : stripPrefix "event: " line = some v) :
    stripPrefix "data: " line = none ∧ stripPrefix "data:" line = none := by
  rw [stripPrefix_eq_some h]
  exact ⟨rfl, rfl⟩

/-! ### What the parsers read -/

theorem parseSse_eq (event : Bytes) :
    parseSse event
      = (String.ofList (lastValue ((blockLines event).filterMap trimmedEvent)),
         String.ofList (lastValue ((blockLines event).filterMap trimmedData))) := by
  rw [parseSse, blockLines]
  induction lines (fromUtf8Lossy event) using List.reverseRecOn with
  | nil => rfl
  | append_singleton ls line ih =>
    rw [List.foldl_append, ih, List.filterMap_append, List.filterMap_append]
    simp only [List.foldl_cons, List.foldl_nil, List.filterMap_cons, List.filterMap_nil,
      trimmedEvent, trimmedData]
    rcases hevent : stripPrefix "event: " (trim line) with _ | evt
    · rcases stripPrefix "data: " (trim line) with _ | data
      · simp only [List.append_nil]
      · simp only [List.append_nil, lastValue_append]
    · rw [(stripPrefix_data_of_event hevent).1]
      simp only [List.append_nil, lastValue_append]

theorem parseSseBlockLines_eq (event : Bytes) :
    parseSseBlockLines event
      = (String.ofList (lastValue ((blockLines event).filterMap fieldEvent)),
         ((blockLines event).filterMap fieldData).map String.ofList) := by
  rw [parseSseBlockLines, blockLines]
  induction lines (fromUtf8Lossy event) using List.reverseRecOn with
  | nil => rfl
  | append_singleton ls line ih =>
    rw [List.foldl_append, ih, List.filterMap_append, List.filterMap_append]
    simp only [List.foldl_cons, List.foldl_nil, List.filterMap_cons, List.filterMap_nil,
      fieldEvent, fieldData, bareLine]
    generalize trimEndMatches (· == '\r') line = bare
    rcases hevent : stripPrefix "event: " bare with _ | evt
    · rcases stripPrefix "data: " bare with _ | data
      · rcases stripPrefix "data:" bare with _ | data
        · simp
        · simp
      · simp
    · rw [(stripPrefix_data_of_event hevent).1, (stripPrefix_data_of_event hevent).2]
      simp [lastValue_append]

/-! ### Values -/

theorem newline_not_mem_lines : ∀ line ∈ lines s, '\n' ∉ line := by
  induction s using lines.induct with
  | case1 => simp [lines]
  | case2 rest ih => simpa [lines] using ih
  | case3 rest ih => simpa [lines] using ih
  | case4 c rest hlf hcr hnil ih =>
    rw [lines.eq_4 _ _ hlf hcr, hnil]
    simpa using fun h => hlf h.symm
  | case5 c rest hlf hcr line more hlines ih =>
    rw [lines.eq_4 _ _ hlf hcr, hlines]
    rw [hlines] at ih
    intro line' hmem
    rcases List.mem_cons.1 hmem with rfl | hmem
    · rw [List.mem_cons, not_or]
      exact ⟨fun h => hlf h.symm, ih line (by simp)⟩
    · exact ih line' (by simp [hmem])

theorem trim_subset : trim s ⊆ s := by
  intro c hc
  rw [trim, trimEndMatches, List.mem_reverse] at hc
  have hstart := (List.dropWhile_sublist _).subset hc
  rw [List.mem_reverse, trimStart] at hstart
  exact (List.dropWhile_sublist _).subset hstart

theorem trim_ne_append_space (t : List Char) : trim s ≠ t ++ [' '] := by
  intro h
  rw [trim, trimEndMatches] at h
  have hrev : (trimStart s).reverse.dropWhile isWhitespace = ' ' :: t.reverse := by
    rw [← List.reverse_reverse ((trimStart s).reverse.dropWhile isWhitespace), h]
    simp
  have hspace := List.head_dropWhile_not (p := isWhitespace) (l := (trimStart s).reverse)
    (by rw [hrev]; simp)
  rw [List.head_of_mem_head? (by rw [hrev]; rfl)] at hspace
  exact absurd hspace (by decide)

theorem trimmedData_ne_nil (h : trimmedData line = some v) : v ≠ [] := by
  rintro rfl
  have heq := stripPrefix_eq_some h
  rw [List.append_nil] at heq
  exact trim_ne_append_space line "data:".toList heq

theorem newline_not_mem_trimmedData {ls : List (List Char)} (h : ∀ line ∈ ls, '\n' ∉ line) :
    '\n' ∉ lastValue (ls.filterMap trimmedData) := by
  rw [lastValue]
  rcases hlast : (ls.filterMap trimmedData).getLast? with _ | v
  · simp
  · obtain ⟨line, hline, hv⟩ := List.mem_filterMap.1 (List.mem_of_getLast? hlast)
    intro hmem
    have heq := stripPrefix_eq_some hv
    exact h line hline (trim_subset line (by rw [heq]; exact List.mem_append_right _ hmem))

theorem newline_mem_intercalate (a b : String) (rest : List String) :
    '\n' ∈ ("\n".intercalate (a :: b :: rest)).toList := by
  rw [String.intercalate_cons_cons]
  simp

theorem lastValue_eq_iff {values : List (List Char)} (hv : v ≠ []) :
    lastValue values = v ↔ values.getLast? = some v := by
  rw [lastValue]
  rcases values.getLast? with _ | w
  · simpa using hv.symm
  · simp

theorem lastValue_eq_nil_iff {values : List (List Char)} (h : ∀ v ∈ values, v ≠ []) :
    lastValue values = [] ↔ values = [] := by
  rw [lastValue]
  rcases hlast : values.getLast? with _ | w
  · simpa using hlast
  · have hw := List.mem_of_getLast? hlast
    refine iff_of_false (h w hw) fun hnil => ?_
    rw [hnil] at hw
    simp at hw

/-- **The parsers agree** exactly on the blocks whose lines read alike. -/
theorem parsersAgree_iff (event : Bytes) : ParsersAgree event ↔ ReadAlike (blockLines event) := by
  have hnewline : '\n' ∉ lastValue ((blockLines event).filterMap trimmedData) :=
    newline_not_mem_trimmedData (newline_not_mem_lines (fromUtf8Lossy event))
  have hdata : ∀ v ∈ (blockLines event).filterMap trimmedData, v ≠ [] := by
    intro v hv
    obtain ⟨line, -, hline⟩ := List.mem_filterMap.1 hv
    exact trimmedData_ne_nil hline
  rw [ParsersAgree, parseSseBlock, parseSseBlockLines_eq, parseSse_eq, ReadAlike]
  generalize (blockLines event).filterMap trimmedData = trimmed at hnewline hdata ⊢
  rcases (blockLines event).filterMap fieldData with _ | ⟨v, _ | ⟨w, rest⟩⟩
  · -- no field `data`
    simp only [List.map_nil, if_true, true_and, List.nil_eq, reduceCtorEq, false_and, and_false,
      exists_false, or_false]
    rw [← lastValue_eq_nil_iff hdata, ← String.ofList_nil, String.ofList_inj]
  · -- one field `data`
    simp only [List.map_cons, List.map_nil, reduceCtorEq, if_false, false_and, false_or,
      String.intercalate_singleton, Prod.mk.injEq, String.ofList_inj, List.cons.injEq, and_true]
    rw [← String.ofList_nil, ne_eq, String.ofList_inj]
    constructor
    · rintro ⟨⟨hevent, hlast⟩, hv⟩
      exact ⟨v, hv, rfl, (lastValue_eq_iff hv).1 hlast, hevent⟩
    · rintro ⟨v', hv, rfl, hlast, hevent⟩
      exact ⟨⟨hevent, (lastValue_eq_iff hv).2 hlast⟩, hv⟩
  · -- several: the payload of `parse_sse` is one line
    simp only [List.map_cons, reduceCtorEq, if_false, false_and, false_or, List.cons.injEq,
      and_false, exists_false, iff_false]
    rintro ⟨heq, -⟩
    have hmem := newline_mem_intercalate (String.ofList v) (String.ofList w)
      (rest.map String.ofList)
    rw [← (Prod.mk.inj heq).2, String.toList_ofList] at hmem
    exact hnewline hmem

/-- An ordinary block is read alike. -/
example : ParsersAgree (eventBlock "message_stop" "\x7b\x7d") := by decide +kernel

/-- A data line without the space after the colon: `parse_sse` finds no data. -/
theorem not_parsersAgree_noSpace :
    parseSse (utf8Bytes "data:x\n\n") = ("", "") ∧
    parseSseBlock (utf8Bytes "data:x\n\n") = some ("", "x") ∧
    ¬ ParsersAgree (utf8Bytes "data:x\n\n") := by
  decide +kernel

end AiOpenRouter
