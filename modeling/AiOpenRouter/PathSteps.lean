/-
The paths of quota mappings (`extract_json_path`).

A path is rendered as a `$` with its steps behind it: a key behind a dot or in quotes and brackets,
or an index in brackets (`StepText`). The scanner takes more than that (`ReadAs`): it trims keys,
reads indices with leading zeros, and skips spaces between steps.

* `followPath_eq`: a text that is read as some steps leads where the steps lead;
* `readAs_of_followPath`: a text that leads anywhere is read as some steps;
* `extractJsonPath_exact`: both for whole paths.
-/
import AiOpenRouter.ExpressionGrammar
import Mathlib

namespace AiOpenRouter

open Text

/-! ### Steps -/

/-- A step into a value. An index is a `usize`. -/
inductive PathStep where
  | key (name : List Char)
  | index (n : ℕ) (fits : n < 18446744073709551616)

def PathStep.follow (value : Json) : PathStep → Option Json
  | key name => value.get (String.ofList name)
  | index n _ => value.getIndex n

def followSteps (value : Json) : List PathStep → Option Json
  | [] => some value
  | step :: steps => (step.follow value).bind fun next => followSteps next steps

inductive StepText : PathStep → List Char → Prop
  | dot {name : List Char} : name ≠ [] → '.' ∉ name → '[' ∉ name → trim name = name →
      StepText (.key name) ('.' :: name)
  | quoted {name : List Char} (quote : Char) : (quote = '\'' ∨ quote = '"') → quote ∉ name →
      trim name = name → StepText (.key name) ('[' :: quote :: (name ++ [quote, ']']))
  | index {n : ℕ} (fits : n < 18446744073709551616) :
      StepText (.index n fits) ('[' :: (n.repr.toList ++ [']']))

inductive ReadAs : List Char → List PathStep → Prop
  | nil : ReadAs [] []
  | space {c : Char} {rest : List Char} {steps : List PathStep} : isWhitespace c = true →
      ReadAs rest steps → ReadAs (c :: rest) steps
  | dot {s rest : List Char} {steps : List PathStep} : s ≠ [] → '.' ∉ s → '[' ∉ s →
      ReadAs rest steps → ReadAs ('.' :: (s ++ rest)) (.key (trim s) :: steps)
  | quoted {s rest : List Char} {steps : List PathStep} (quote : Char) :
      (quote = '\'' ∨ quote = '"') → quote ∉ s → ReadAs rest steps →
      ReadAs ('[' :: quote :: (s ++ quote :: ']' :: rest)) (.key (trim s) :: steps)
  | index {digits rest : List Char} {steps : List PathStep} {n : ℕ}
      (fits : n < 18446744073709551616) : digits ≠ [] → digits.all Char.isDigit = true →
      readIndex digits = some n → ReadAs rest steps →
      ReadAs ('[' :: (digits ++ ']' :: rest)) (.index n fits :: steps)

/-- A whole path that is read as some steps. -/
def PathReadAs (path : List Char) (steps : List PathStep) : Prop :=
  ∃ rest, path = '$' :: rest ∧ ReadAs rest steps

/-! ### Renderings are read -/

theorem readIndex_repr {n : ℕ} (h : n < 18446744073709551616) :
    readIndex n.repr.toList = some n := by
  rw [readIndex, String.ofList_toList, Nat.toNat?_repr, Option.filter_some,
    if_pos (decide_eq_true h)]

variable {rest space : List Char} {steps : List PathStep} {current : Json}

theorem ReadAs.append_space (hspace : IsSpace space) (h : ReadAs rest steps) :
    ReadAs (space ++ rest) steps := by
  induction space with
  | nil => exact h
  | cons c space ih =>
    rw [IsSpace, List.all_cons, Bool.and_eq_true] at hspace
    exact .space hspace.1 (ih hspace.2)

theorem StepText.readAs {step : PathStep} {text : List Char} (htext : StepText step text)
    (h : ReadAs rest steps) : ReadAs (text ++ rest) (step :: steps) := by
  cases htext with
  | @dot name hne hdot hbracket htrim =>
    have hread := ReadAs.dot hne hdot hbracket h
    rwa [htrim] at hread
  | @quoted name quote hquote hname htrim =>
    have hread := ReadAs.quoted quote hquote hname h
    rw [htrim] at hread
    simpa only [List.cons_append, List.append_assoc, List.nil_append] using hread
  | @index n fits =>
    have hdigits : n.repr.toList.all Char.isDigit = true := by
      rw [List.all_eq_true]
      intro c hc
      rw [Nat.toList_repr] at hc
      exact Nat.isDigit_of_mem_toDigits (by decide) (by decide) hc
    have hne : n.repr.toList ≠ [] := by
      rw [Nat.toList_repr]
      exact Nat.toDigits_ne_nil
    have hread := ReadAs.index fits hne hdigits (readIndex_repr fits) h
    simpa only [List.cons_append, List.append_assoc, List.nil_append] using hread

/-- Rendered steps with spaces in front of them and at the end. -/
inductive Rendered : List Char → List PathStep → Prop
  | nil {space : List Char} : IsSpace space → Rendered space []
  | cons {space text rest : List Char} {step : PathStep} {steps : List PathStep} : IsSpace space →
      StepText step text → Rendered rest steps →
      Rendered (space ++ (text ++ rest)) (step :: steps)

theorem Rendered.readAs {text : List Char} (h : Rendered text steps) : ReadAs text steps := by
  induction h with
  | @nil space hspace =>
    have hread := ReadAs.append_space hspace .nil
    rwa [List.append_nil] at hread
  | cons hspace htext _ ih => exact (htext.readAs ih).append_space hspace

/-! ### What is read leads where the steps lead -/

theorem pathStep_space {c : Char} (hc : isWhitespace c = true) :
    pathStep current c rest = some (current, rest) := by
  rw [pathStep.eq_def, if_pos hc]

theorem pathStep_dot (current : Json) (rest : List Char) :
    pathStep current '.' rest =
      if (rest.takeWhile fun c => c ≠ '.' && c ≠ '[').isEmpty then none
      else (current.getTrimmed (rest.takeWhile fun c => c ≠ '.' && c ≠ '[')).map fun value =>
        (value, rest.drop (rest.takeWhile fun c => c ≠ '.' && c ≠ '[').length) := by
  rw [pathStep.eq_def, if_neg (by decide), if_pos rfl]

theorem pathStep_quoted {quote : Char} {inside : List Char} (hquote : quote = '\'' ∨ quote = '"') :
    pathStep current '[' (quote :: inside) = quotedStep current quote inside := by
  rw [pathStep.eq_def, if_neg (by decide), if_neg (by decide), if_pos rfl]
  dsimp only
  rw [if_pos hquote]

theorem pathStep_index {c : Char} (hc : ¬ (c = '\'' ∨ c = '"')) :
    pathStep current '[' (c :: rest) = indexStep current (c :: rest) := by
  rw [pathStep.eq_def, if_neg (by decide), if_neg (by decide), if_pos rfl]
  dsimp only
  rw [if_neg hc]

theorem followPath_space (hspace : IsSpace space) (fuel : ℕ) (current : Json) (rest : List Char) :
    followPath (fuel + space.length) current (space ++ rest) = followPath fuel current rest := by
  induction space with
  | nil => rfl
  | cons c space ih =>
    rw [IsSpace, List.all_cons, Bool.and_eq_true] at hspace
    show (pathStep current c (space ++ rest)).bind _ = _
    rw [pathStep_space hspace.1]
    exact ih hspace.2

theorem ReadAs.exists_space (h : ReadAs rest steps) :
    ∃ space behind, IsSpace space ∧ rest = space ++ behind ∧
      ∀ c ∈ behind.head?, c = '.' ∨ c = '[' := by
  induction h with
  | nil => exact ⟨[], [], rfl, rfl, fun _ h => nomatch h⟩
  | @space c rest steps hc _ ih =>
    obtain ⟨space, behind, hspace, rfl, hbehind⟩ := ih
    refine ⟨c :: space, behind, ?_, rfl, hbehind⟩
    rw [IsSpace, List.all_cons, hc, hspace, Bool.and_self]
  | dot _ _ _ _ _ =>
    exact ⟨[], _, rfl, rfl, fun c hc => .inl (Option.some.inj hc).symm⟩
  | quoted _ _ _ _ _ =>
    exact ⟨[], _, rfl, rfl, fun c hc => .inr (Option.some.inj hc).symm⟩
  | index _ _ _ _ _ _ =>
    exact ⟨[], _, rfl, rfl, fun c hc => .inr (Option.some.inj hc).symm⟩

theorem trim_append_space {s : List Char} (hspace : IsSpace space) :
    trim (s ++ space) = trim s := by
  have hend : ∀ t : List Char, trimEndMatches isWhitespace (t ++ space) =
      trimEndMatches isWhitespace t := fun t => by
    have hall : ∀ c ∈ space.reverse, isWhitespace c = true := fun c hc =>
      List.all_eq_true.1 hspace c (List.mem_reverse.1 hc)
    rw [trimEndMatches, trimEndMatches, List.reverse_append, List.dropWhile_append_of_pos hall]
  have hdropped : space.dropWhile isWhitespace = [] :=
    List.dropWhile_eq_nil_iff.2 (List.all_eq_true.1 hspace)
  rw [trim, trim, trimStart, trimStart, List.dropWhile_append]
  split_ifs with hempty
  · rw [hdropped, List.isEmpty_iff.1 hempty]
  · exact hend _

theorem takeWhile_key {s behind : List Char} (hdot : '.' ∉ s) (hbracket : '[' ∉ s)
    (hspace : IsSpace space) (hbehind : ∀ c ∈ behind.head?, c = '.' ∨ c = '[') :
    (s ++ (space ++ behind)).takeWhile (fun c => c ≠ '.' && c ≠ '[') = s ++ space := by
  have hkey : ∀ c ∈ s ++ space, (decide (c ≠ '.') && decide (c ≠ '[')) = true := by
    intro c hc
    rw [Bool.and_eq_true, decide_eq_true_eq, decide_eq_true_eq]
    rcases List.mem_append.1 hc with hc | hc
    · exact ⟨fun h => hdot (h ▸ hc), fun h => hbracket (h ▸ hc)⟩
    · exact ⟨fun h => hspace.not_mem (c := '.') (by decide) (h ▸ hc),
        fun h => hspace.not_mem (c := '[') (by decide) (h ▸ hc)⟩
  have hstop : behind.takeWhile (fun c => c ≠ '.' && c ≠ '[') = [] := by
    cases behind with
    | nil => rfl
    | cons c behind =>
      rw [List.takeWhile_cons, if_neg]
      rcases hbehind c rfl with rfl | rfl <;> decide
  rw [← List.append_assoc, List.takeWhile_append_of_pos hkey, hstop, List.append_nil]

theorem followPath_eq (h : ReadAs rest steps) {fuel : ℕ} (hfuel : rest.length ≤ fuel)
    (current : Json) : followPath fuel current rest = followSteps current steps := by
  induction h generalizing fuel current with
  | nil => cases fuel <;> rfl
  | @space c rest steps hc _ ih =>
    obtain _ | fuel := fuel
    · cases hfuel
    · show (pathStep current c rest).bind _ = _
      rw [pathStep_space hc]
      exact ih (Nat.le_of_succ_le_succ hfuel) current
  | @dot s rest steps hne hdot hbracket hread ih =>
    obtain _ | fuel := fuel
    · cases hfuel
    · obtain ⟨space, behind, hspace, rfl, hbehind⟩ := hread.exists_space
      have hlength : (space ++ behind).length ≤ fuel + space.length := by
        rw [List.length_cons, List.length_append, List.length_append] at hfuel
        rw [List.length_append]
        omega
      -- the key ends at the next step, with the spaces in front of it trimmed off
      have hkey := takeWhile_key hdot hbracket hspace hbehind
      have hnot : (s ++ space).isEmpty = false :=
        List.isEmpty_eq_false_iff.2 (List.append_ne_nil_of_left_ne_nil hne _)
      have hdrop : (s ++ (space ++ behind)).drop (s ++ space).length = behind := by
        rw [← List.append_assoc, List.drop_left]
      show (pathStep current '.' (s ++ (space ++ behind))).bind _ = _
      rw [pathStep_dot, hkey, hnot, if_neg Bool.false_ne_true, hdrop, Json.getTrimmed,
        trim_append_space hspace, followSteps, PathStep.follow]
      cases current.get (String.ofList (trim s)) with
      | none => rfl
      | some value =>
        show followPath fuel value behind = followSteps value steps
        rw [← ih hlength value, followPath_space hspace]
  | @quoted s rest steps quote hquote hmem _ ih =>
    obtain _ | fuel := fuel
    · cases hfuel
    · have hlength : rest.length ≤ fuel := by
        simp only [List.length_cons, List.length_append] at hfuel
        omega
      -- the key ends at its quote
      have hkey : (s ++ quote :: ']' :: rest).takeWhile (fun c => c ≠ quote) = s := by
        have hall : ∀ c ∈ s, decide (c ≠ quote) = true := fun c hc =>
          decide_eq_true fun hc' => hmem (hc' ▸ hc)
        rw [List.takeWhile_append_of_pos hall, List.takeWhile_cons, if_neg (by simp),
          List.append_nil]
      show (pathStep current '[' (quote :: (s ++ quote :: ']' :: rest))).bind _ = _
      rw [pathStep_quoted hquote, quotedStep]
      rw [hkey, List.drop_left, followSteps, PathStep.follow, Json.getTrimmed]
      cases current.get (String.ofList (trim s)) with
      | none => rfl
      | some value => exact ih hlength value
  | @index digits rest steps n fits hne hdigits hindex _ ih =>
    obtain _ | fuel := fuel
    · cases hfuel
    · have hlength : rest.length ≤ fuel := by
        simp only [List.length_cons, List.length_append] at hfuel
        omega
      obtain ⟨c, tail, rfl⟩ := List.exists_cons_of_ne_nil hne
      -- a digit is no quote
      have hc : ¬ (c = '\'' ∨ c = '"') := by
        rw [List.all_cons, Bool.and_eq_true] at hdigits
        rintro (rfl | rfl)
        · exact absurd hdigits.1 (by decide)
        · exact absurd hdigits.1 (by decide)
      have htake : (c :: (tail ++ ']' :: rest)).takeWhile Char.isDigit = c :: tail := by
        rw [← List.cons_append, List.takeWhile_append_of_pos (List.all_eq_true.1 hdigits),
          List.takeWhile_cons, if_neg (by decide), List.append_nil]
      have hdrop : (c :: (tail ++ ']' :: rest)).drop (c :: tail).length = ']' :: rest := by
        rw [← List.cons_append, List.drop_left]
      show (pathStep current '[' (c :: (tail ++ ']' :: rest))).bind _ = _
      rw [pathStep_index hc, indexStep]
      rw [htake, hdrop]
      show ((readIndex (c :: tail)).bind fun index => (current.getIndex index).map fun value =>
        (value, rest)).bind (fun next => followPath fuel next.1 next.2) = _
      rw [hindex, followSteps, PathStep.follow]
      show ((current.getIndex n).map _).bind _ = _
      cases current.getIndex n with
      | none => rfl
      | some value => exact ih hlength value

/-! ### What leads anywhere is read -/

theorem readAs_of_pathStep {c : Char} {next : Json × List Char}
    (h : pathStep current c rest = some next) (hread : ReadAs next.2 steps) :
    ∃ steps', ReadAs (c :: rest) steps' := by
  by_cases hblank : isWhitespace c = true
  · rw [pathStep_space hblank] at h
    cases h
    exact ⟨steps, .space hblank hread⟩
  by_cases hdot : c = '.'
  · subst hdot
    rw [pathStep_dot] at h
    generalize hkey : rest.takeWhile (fun c => c ≠ '.' && c ≠ '[') = key at h
    split_ifs at h with hempty
    obtain ⟨value, -, rfl⟩ := Option.map_eq_some_iff.1 h
    -- a key behind a dot
    have hplain : ∀ c ∈ key, c ≠ '.' ∧ c ≠ '[' := fun c hc => by
      rw [← hkey] at hc
      have hmem := @List.mem_takeWhile_imp _ (fun c => c ≠ '.' && c ≠ '[') _ _ hc
      rwa [Bool.and_eq_true, decide_eq_true_eq, decide_eq_true_eq] at hmem
    have hsplit : key ++ rest.drop key.length = rest := by
      rw [← hkey]
      exact List.prefix_iff_eq_append.1 (List.takeWhile_prefix _)
    refine ⟨.key (trim key) :: steps, ?_⟩
    rw [← hsplit]
    exact .dot (fun hnil => hempty (List.isEmpty_iff.2 hnil)) (fun hmem => (hplain _ hmem).1 rfl)
      (fun hmem => (hplain _ hmem).2 rfl) hread
  by_cases hbracket : c = '['
  · subst hbracket
    cases rest with
    | nil => cases h
    | cons quote inside =>
      by_cases hquote : quote = '\'' ∨ quote = '"'
      · rw [pathStep_quoted hquote, quotedStep] at h
        generalize hkey : inside.takeWhile (fun c => c ≠ quote) = key at h
        split at h
        · rename_i closing behind hdrop
          obtain ⟨value, -, rfl⟩ := Option.map_eq_some_iff.1 h
          -- a key in quotes: the quote is the first one that stands behind the key
          have hsplit : key ++ closing :: ']' :: behind = inside := by
            rw [← hdrop, ← hkey]
            exact List.prefix_iff_eq_append.1 (List.takeWhile_prefix _)
          have hall : ∀ c ∈ key, decide (c ≠ quote) = true := fun c hc => by
            rw [← hkey] at hc
            exact @List.mem_takeWhile_imp _ (fun c => c ≠ quote) _ _ hc
          have hclosing : closing = quote := by
            by_contra hne
            have hlonger := hkey
            rw [← hsplit, List.takeWhile_append_of_pos hall, List.takeWhile_cons,
              if_pos (decide_eq_true hne)] at hlonger
            exact absurd (List.append_right_eq_self.1 hlonger) (List.cons_ne_nil _ _)
          subst hclosing
          refine ⟨.key (trim key) :: steps, ?_⟩
          rw [← hsplit]
          exact .quoted closing hquote (fun hmem => of_decide_eq_true (hall _ hmem) rfl) hread
        · cases h
      · rw [pathStep_index hquote, indexStep] at h
        generalize hdigits : (quote :: inside).takeWhile Char.isDigit = digits at h
        split at h
        · rename_i behind hdrop
          split_ifs at h with hempty
          obtain ⟨n, hindex, h⟩ := Option.bind_eq_some_iff.1 h
          obtain ⟨value, -, rfl⟩ := Option.map_eq_some_iff.1 h
          -- an index
          have hsplit : digits ++ ']' :: behind = quote :: inside := by
            rw [← hdrop, ← hdigits]
            exact List.prefix_iff_eq_append.1 (List.takeWhile_prefix _)
          have hall : digits.all Char.isDigit = true := by
            rw [← hdigits]
            exact List.all_eq_true.2 fun c hc => List.mem_takeWhile_imp hc
          have hfits : n < 18446744073709551616 := by
            have hkept := (Option.filter_eq_some_iff.1 hindex).2
            simpa using hkept
          refine ⟨.index n hfits :: steps, ?_⟩
          rw [← hsplit]
          exact .index hfits (fun hnil => hempty (List.isEmpty_iff.2 hnil)) hall hindex hread
        · cases h
  · rw [pathStep.eq_def, if_neg hblank, if_neg hdot, if_neg hbracket] at h
    cases h

/-- **A text that leads anywhere is read as some steps.** -/
theorem readAs_of_followPath {fuel : ℕ} {value : Json}
    (h : followPath fuel current rest = some value) : ∃ steps, ReadAs rest steps := by
  induction fuel generalizing current rest with
  | zero =>
    cases rest with
    | nil => exact ⟨[], .nil⟩
    | cons c rest => cases h
  | succ fuel ih =>
    cases rest with
    | nil => exact ⟨[], .nil⟩
    | cons c rest =>
      obtain ⟨next, hstep, hrest⟩ := Option.bind_eq_some_iff.1 h
      obtain ⟨steps, hread⟩ := ih hrest
      exact readAs_of_pathStep hstep hread

/-- **`extract_json_path` navigates exactly**: a rendered path leads where its steps lead, and so
does whatever is read as steps; any other text leads nowhere. -/
theorem extractJsonPath_exact (root : Json) :
    (∀ text steps, Rendered text steps →
      extractJsonPath root ('$' :: text) = followSteps root steps) ∧
    (∀ path steps, PathReadAs path steps → extractJsonPath root path = followSteps root steps) ∧
    ∀ path, (∀ steps, ¬ PathReadAs path steps) → extractJsonPath root path = none := by
  refine ⟨fun text steps h => followPath_eq h.readAs (Nat.le_refl _) root, ?_, fun path h => ?_⟩
  · rintro path steps ⟨rest, rfl, hread⟩
    exact followPath_eq hread (Nat.le_refl _) root
  · cases hfound : extractJsonPath root path with
    | none => rfl
    | some value =>
      obtain ⟨rest, rfl⟩ :=
        exists_dollar_of_resolves ⟨root, Option.isSome_iff_exists.2 ⟨_, hfound⟩⟩
      obtain ⟨steps, hread⟩ := readAs_of_followPath hfound
      exact absurd ⟨rest, rfl, hread⟩ (h steps)

example : Rendered ".data [0]['a.b'] ".toList
    [.key "data".toList, .index 0 (by decide), .key "a.b".toList] :=
  @Rendered.cons [] ".data".toList _ _ _ rfl (.dot (by decide) (by decide) (by decide) (by decide))
    (@Rendered.cons [' '] "[0]".toList _ _ _ rfl (.index (by decide))
      (@Rendered.cons [] "['a.b']".toList [' '] _ _ rfl
        (.quoted '\'' (.inl rfl) (by decide) (by decide)) (.nil rfl)))

/-- An empty key cannot be written behind a dot, and a key may have spaces around it. -/
theorem renderings_differ :
    extractJsonPath (.obj [("", .bool true)]) "$.".toList = none ∧
      followSteps (.obj [("", .bool true)]) [.key []] = some (.bool true) ∧
      extractJsonPath (.obj [("a", .bool true)]) "$. a".toList = some (.bool true) :=
  ⟨by rfl, by rfl, by rfl⟩

end AiOpenRouter
