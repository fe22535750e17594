/-
The token usage of a stream (`StreamTokenAccumulator`).

Every chunk is decoded on its own, complete lines are cut out of a text buffer,
and the field-wise maximum over the usages of the `data:` lines is kept.

* `extractTokenUsage` reads the usage of one payload;
* `streamUsage_eq`: the chunks matter only through the decoded text, and its
  last line is never read;
* `streamUsage_iff`: when this is the maximum over the lines of the text.

What is relied on in `serde_json` is `ReadsNumbers`: a string literal affects
no number, and no JSON text starts outside ASCII.
-/
import AiOpenRouter.Json
import AiOpenRouter.LineFraming
import AiOpenRouter.LossyDecoding
import Mathlib.Order.Lattice

namespace AiOpenRouter

/-! ### Usage -/

/-- `TokenUsage`. -/
@[ext]
structure TokenUsage where
  inputTokens : ℕ := 0
  outputTokens : ℕ := 0
  cacheReadTokens : ℕ := 0
  cacheWriteTokens : ℕ := 0
  deriving DecidableEq

namespace TokenUsage

/-- Usages are ordered field by field. -/
instance : LE TokenUsage where
  le u v := u.inputTokens ≤ v.inputTokens ∧ u.outputTokens ≤ v.outputTokens ∧
    u.cacheReadTokens ≤ v.cacheReadTokens ∧ u.cacheWriteTokens ≤ v.cacheWriteTokens

instance : DecidableLE TokenUsage := fun u v =>
  inferInstanceAs (Decidable (u.inputTokens ≤ v.inputTokens ∧
    u.outputTokens ≤ v.outputTokens ∧ u.cacheReadTokens ≤ v.cacheReadTokens ∧
    u.cacheWriteTokens ≤ v.cacheWriteTokens))

instance : Max TokenUsage where
  max u v :=
    { inputTokens := max u.inputTokens v.inputTokens
      outputTokens := max u.outputTokens v.outputTokens
      cacheReadTokens := max u.cacheReadTokens v.cacheReadTokens
      cacheWriteTokens := max u.cacheWriteTokens v.cacheWriteTokens }

instance : SemilatticeSup TokenUsage where
  le_refl _ := ⟨le_rfl, le_rfl, le_rfl, le_rfl⟩
  le_trans _ _ _ h h' :=
    ⟨h.1.trans h'.1, h.2.1.trans h'.2.1, h.2.2.1.trans h'.2.2.1, h.2.2.2.trans h'.2.2.2⟩
  le_antisymm _ _ h h' := TokenUsage.ext (h.1.antisymm h'.1) (h.2.1.antisymm h'.2.1)
    (h.2.2.1.antisymm h'.2.2.1) (h.2.2.2.antisymm h'.2.2.2)
  sup u v := max u v
  le_sup_left _ _ := ⟨le_max_left .., le_max_left .., le_max_left .., le_max_left ..⟩
  le_sup_right _ _ := ⟨le_max_right .., le_max_right .., le_max_right .., le_max_right ..⟩
  sup_le _ _ _ h h' := ⟨max_le h.1 h'.1, max_le h.2.1 h'.2.1, max_le h.2.2.1 h'.2.2.1,
    max_le h.2.2.2 h'.2.2.2⟩

instance : OrderBot TokenUsage where
  bot := {}
  bot_le _ := ⟨Nat.zero_le _, Nat.zero_le _, Nat.zero_le _, Nat.zero_le _⟩

/-- The field-wise maximum of usages. -/
def maximum (usages : List TokenUsage) : TokenUsage := usages.foldl (· ⊔ ·) ⊥

def reported (usage : TokenUsage) : Option TokenUsage := if usage = ⊥ then none else some usage

theorem reported_inj {u v : TokenUsage} : reported u = reported v ↔ u = v := by
  constructor
  · intro h
    unfold reported at h
    split_ifs at h with hu hv hv
    · rw [hu, hv]
    · exact Option.some_inj.1 h
  · rintro rfl
    rfl

theorem foldl_sup_le {usages : List TokenUsage} {a x : TokenUsage} :
    usages.foldl (· ⊔ ·) a ≤ x ↔ a ≤ x ∧ ∀ u ∈ usages, u ≤ x := by
  induction usages generalizing a with
  | nil => simp
  | cons u usages ih => rw [List.foldl_cons, ih, sup_le_iff, List.forall_mem_cons, and_assoc]

theorem maximum_le {usages : List TokenUsage} {x : TokenUsage} :
    maximum usages ≤ x ↔ ∀ u ∈ usages, u ≤ x := by
  rw [maximum, foldl_sup_le]
  exact and_iff_right bot_le

end TokenUsage

/-- `first_u64`: the first number that is not zero, else the first number. -/
def firstU64 (obj : Json) (fields : List String) : ℕ :=
  let seen := fields.flatMap fun field =>
    [[field], ["input_tokens_details", field], ["prompt_tokens_details", field]].filterMap
      fun path => (obj.pointer path).bind Json.asU64
  ((seen.find? (0 < ·)).or seen.head?).getD 0

/-- `normalize_input_tokens` -/
def normalizeInputTokens (usage : Json) (rawInputTokens cacheReadTokens : ℕ) : ℕ :=
  let hasOpenaiCachedDetails :=
    ((((usage.get "input_tokens_details").or (usage.get "prompt_tokens_details")).bind
      (·.get "cached_tokens")).bind Json.asU64).isSome
  let hasOpenaiPromptFields :=
    ((usage.get "prompt_tokens").bind Json.asU64).isSome ||
      ((usage.get "completion_tokens").bind Json.asU64).isSome
  if (hasOpenaiCachedDetails || hasOpenaiPromptFields) && cacheReadTokens ≤ rawInputTokens then
    rawInputTokens - cacheReadTokens
  else rawInputTokens

def usageOf (usage : Json) : TokenUsage :=
  let rawInputTokens :=
    firstU64 usage ["input_tokens", "prompt_tokens", "inputTokens", "promptTokens"]
  let outputTokens :=
    firstU64 usage ["output_tokens", "completion_tokens", "outputTokens", "completionTokens"]
  let cacheReadTokens :=
    firstU64 usage ["cache_read_input_tokens", "cache_read_tokens", "prompt_cache_hit_tokens",
      "cached_tokens"]
  let cacheWriteTokens :=
    firstU64 usage ["cache_creation_input_tokens", "cache_write_input_tokens",
      "prompt_cache_miss_tokens", "cache_creation_tokens"]
  { inputTokens := normalizeInputTokens usage rawInputTokens cacheReadTokens
    outputTokens, cacheReadTokens, cacheWriteTokens }

/-- `extract_token_usage` -/
def extractTokenUsage (payload : Json) : Option TokenUsage :=
  let usage := (((payload.get "usage").or (payload.pointer ["response", "usage"])).or
    (payload.pointer ["message", "usage"])).or (payload.pointer ["delta", "usage"])
  usage.bind fun usage => (usageOf usage).reported

/-! ### The accumulator -/

def popCarriageReturn (line : List Char) : List Char :=
  if line.getLast? = some '\r' then line.dropLast else line

/-- The usage on a line, as `consume_line` reads it. -/
def lineUsage (env : Env) (line : List Char) : Option TokenUsage :=
  (Text.stripPrefix "data:" line).bind fun rest =>
    let payload := Text.trimStart rest
    if payload = [] ∨ payload = "[DONE]".toList then none
    else (env.fromStr (String.ofList payload)).toOption.bind extractTokenUsage

/-- `StreamTokenAccumulator` -/
structure StreamTokenAccumulator extends TokenUsage where
  lineBuffer : List Char := []

namespace StreamTokenAccumulator

/-- `consume_line` -/
def consumeLine (env : Env) (acc : StreamTokenAccumulator) (line : List Char) :
    StreamTokenAccumulator :=
  match lineUsage env line with
  | none => acc
  | some usage =>
    { acc with
      inputTokens := max acc.inputTokens usage.inputTokens
      outputTokens := max acc.outputTokens usage.outputTokens
      cacheReadTokens := max acc.cacheReadTokens usage.cacheReadTokens
      cacheWriteTokens := max acc.cacheWriteTokens usage.cacheWriteTokens }

/-- `consume_chunk` -/
def consumeChunk (env : Env) (acc : StreamTokenAccumulator) (chunk : Bytes) :
    StreamTokenAccumulator :=
  let drained := (Framing.endingAt '\n').drain (acc.lineBuffer ++ Text.fromUtf8Lossy chunk)
  let acc := drained.1.foldl
    (fun acc frame => acc.consumeLine env (popCarriageReturn frame.dropLast)) acc
  { acc with lineBuffer := drained.2 }

/-- `into_token_usage` -/
def intoTokenUsage (acc : StreamTokenAccumulator) : Option TokenUsage :=
  if acc.inputTokens = 0 ∧ acc.outputTokens = 0 ∧ acc.cacheReadTokens = 0 ∧
      acc.cacheWriteTokens = 0 then none
  else some acc.toTokenUsage

end StreamTokenAccumulator

/-- The usage that is reported after a stream. -/
def streamUsage (env : Env) (chunks : List Bytes) : Option TokenUsage :=
  (chunks.foldl (StreamTokenAccumulator.consumeChunk env) {}).intoTokenUsage

def lineUsages (env : Env) (lines : List (List Char)) : List TokenUsage :=
  lines.filterMap fun line => lineUsage env (popCarriageReturn line)

/-! ### The lines of the decoded text -/

section Decoded

variable {env : Env}

variable (acc : StreamTokenAccumulator)

theorem consumeLine_toTokenUsage (line : List Char) :
    (acc.consumeLine env line).toTokenUsage =
      (lineUsage env line).toList.foldl (· ⊔ ·) acc.toTokenUsage := by
  rw [StreamTokenAccumulator.consumeLine]
  rcases lineUsage env line with _ | usage
  · rfl
  · rfl

theorem foldl_consumeLine (frames : List (List Char)) :
    (frames.foldl (fun acc frame => acc.consumeLine env (popCarriageReturn frame.dropLast))
      acc).toTokenUsage =
      (lineUsages env (frames.map List.dropLast)).foldl (· ⊔ ·) acc.toTokenUsage := by
  induction frames generalizing acc with
  | nil => rfl
  | cons frame frames ih =>
    rw [List.foldl_cons, ih, consumeLine_toTokenUsage, List.map_cons, lineUsages, lineUsages,
      List.filterMap_cons]
    rcases lineUsage env (popCarriageReturn frame.dropLast) with _ | usage
    · rfl
    · rfl

theorem foldl_consumeChunk (chunks : List Bytes) :
    (chunks.foldl (StreamTokenAccumulator.consumeChunk env) acc).toTokenUsage =
      (lineUsages env (((Framing.endingAt '\n').drainChunks acc.lineBuffer
        (chunks.map Text.fromUtf8Lossy)).1.map List.dropLast)).foldl (· ⊔ ·)
          acc.toTokenUsage := by
  induction chunks generalizing acc with
  | nil => rfl
  | cons chunk chunks ih =>
    have hchunk : (acc.consumeChunk env chunk).toTokenUsage =
        (lineUsages env (((Framing.endingAt '\n').drain
          (acc.lineBuffer ++ Text.fromUtf8Lossy chunk)).1.map List.dropLast)).foldl (· ⊔ ·)
            acc.toTokenUsage := foldl_consumeLine ..
    rw [List.foldl_cons, ih, hchunk, List.map_cons, Framing.Finder.drainChunks]
    dsimp only
    rw [List.map_append, lineUsages, lineUsages, lineUsages, List.filterMap_append,
      List.foldl_append]
    rfl

theorem intoTokenUsage_eq : acc.intoTokenUsage = acc.toTokenUsage.reported := by
  rw [StreamTokenAccumulator.intoTokenUsage, TokenUsage.reported]
  refine if_congr ?_ rfl rfl
  rw [TokenUsage.ext_iff]
  rfl

/-- **The chunks matter only through the decoded text.** -/
theorem streamUsage_eq (chunks : List Bytes) :
    streamUsage env chunks = (TokenUsage.maximum (lineUsages env
      ((chunks.flatMap Text.fromUtf8Lossy).splitOn '\n').dropLast)).reported := by
  rw [streamUsage, intoTokenUsage_eq, foldl_consumeChunk, Framing.drainChunks_endingAt,
    List.flatMap_def]
  rfl

end Decoded

/-! ### Reading the same numbers -/

def isAscii (s : String) : Bool := s.toList.all fun c => c.toNat < 128

theorem isAscii_iff {s : String} : isAscii s = true ↔ ∀ c ∈ s.toList, c.toNat < 128 := by
  rw [isAscii, List.all_eq_true]
  exact forall₂_congr fun c _ => decide_eq_true_iff

namespace Json

theorem pointer_append (v : Json) (p q : List String) :
    v.pointer (p ++ q) = (v.pointer p).bind fun w => w.pointer q := by
  induction p generalizing v with
  | nil => rfl
  | cons key p ih =>
    rw [List.cons_append, pointer, pointer, Option.bind_assoc]
    exact Option.bind_congr fun w _ => ih w

theorem pointer_singleton (v : Json) (key : String) : v.pointer [key] = v.get key := by
  rw [pointer]
  exact Option.bind_fun_some _

def SameNumbers (v w : Json) : Prop :=
  ∀ path : List String, (∀ key ∈ path, isAscii key = true) →
    (v.pointer path).isSome = (w.pointer path).isSome ∧
      (v.pointer path).bind asU64 = (w.pointer path).bind asU64

theorem SameNumbers.refl (v : Json) : SameNumbers v v := fun _ _ => ⟨rfl, rfl⟩

variable {v w : Json}

theorem SameNumbers.pointer (h : SameNumbers v w) {path : List String}
    (hpath : ∀ key ∈ path, isAscii key = true) :
    Option.Rel SameNumbers (v.pointer path) (w.pointer path) := by
  have hpart : ∀ rest : List String, (∀ key ∈ rest, isAscii key = true) →
      _ ∧ _ := fun rest hrest => h (path ++ rest) fun key hkey =>
    (List.mem_append.1 hkey).elim (hpath key) (hrest key)
  have hsome := (h path hpath).1
  simp only [pointer_append] at hpart
  generalize v.pointer path = v' at hpart hsome
  generalize w.pointer path = w' at hpart hsome
  rcases v' with _ | v'
  · rcases w' with _ | w'
    · exact .none
    · cases hsome
  · rcases w' with _ | w'
    · cases hsome
    · exact .some hpart

theorem SameNumbers.get (h : SameNumbers v w) (key : String) (hkey : isAscii key = true) :
    Option.Rel SameNumbers (v.get key) (w.get key) := by
  rw [← pointer_singleton, ← pointer_singleton]
  exact h.pointer (by simpa using hkey)

theorem SameNumbers.asU64 (h : SameNumbers v w) : v.asU64 = w.asU64 := (h [] (by simp)).2

end Json

theorem rel_or {α : Type} {R : α → α → Prop} {a b a' b' : Option α} (h : Option.Rel R a b)
    (h' : Option.Rel R a' b') : Option.Rel R (a.or a') (b.or b') := by
  cases h with
  | none => exact h'
  | some h => exact .some h

theorem bind_eq_of_rel {α β : Type} {R : α → α → Prop} {f : α → Option β} {a b : Option α}
    (h : Option.Rel R a b) (hf : ∀ x y, R x y → f x = f y) : a.bind f = b.bind f := by
  cases h with
  | none => rfl
  | some h => exact hf _ _ h

variable {v w : Json}

theorem firstU64_congr (h : v.SameNumbers w) {fields : List String}
    (hfields : ∀ field ∈ fields, isAscii field = true) : firstU64 v fields = firstU64 w fields := by
  have hseen : ∀ field ∈ fields,
      ([[field], ["input_tokens_details", field], ["prompt_tokens_details", field]].filterMap
        fun path => (v.pointer path).bind Json.asU64) =
      [[field], ["input_tokens_details", field], ["prompt_tokens_details", field]].filterMap
        fun path => (w.pointer path).bind Json.asU64 := by
    intro field hfield
    have hascii := hfields field hfield
    refine List.filterMap_congr fun path hpath => (h path ?_).2
    simp only [List.mem_cons, List.not_mem_nil, or_false] at hpath
    have hin : isAscii "input_tokens_details" = true := by decide
    have hout : isAscii "prompt_tokens_details" = true := by decide
    rcases hpath with rfl | rfl | rfl
    · simpa using hascii
    · simpa using ⟨hin, hascii⟩
    · simpa using ⟨hout, hascii⟩
  rw [firstU64, firstU64, List.flatMap_congr hseen]

theorem normalizeInputTokens_congr (h : v.SameNumbers w) (m n : ℕ) :
    normalizeInputTokens v m n = normalizeInputTokens w m n := by
  have hdetails := rel_or (h.get "input_tokens_details" (by decide))
    (h.get "prompt_tokens_details" (by decide))
  have hcached := bind_eq_of_rel hdetails
    (f := fun details => (details.get "cached_tokens").bind Json.asU64) fun x y hxy =>
      bind_eq_of_rel (hxy.get _ (by decide)) fun _ _ => Json.SameNumbers.asU64
  have hprompt := bind_eq_of_rel (h.get "prompt_tokens" (by decide))
    fun _ _ => Json.SameNumbers.asU64
  have hcompletion := bind_eq_of_rel (h.get "completion_tokens" (by decide))
    fun _ _ => Json.SameNumbers.asU64
  rw [normalizeInputTokens, normalizeInputTokens, Option.bind_assoc, Option.bind_assoc, hcached,
    hprompt, hcompletion]

theorem usageOf_congr (h : v.SameNumbers w) : usageOf v = usageOf w := by
  unfold usageOf
  dsimp only
  rw [firstU64_congr h (by decide), firstU64_congr h (by decide), firstU64_congr h (by decide),
    firstU64_congr h (by decide), normalizeInputTokens_congr h]

theorem extractTokenUsage_congr (h : v.SameNumbers w) :
    extractTokenUsage v = extractTokenUsage w := by
  rw [extractTokenUsage, extractTokenUsage]
  refine bind_eq_of_rel (rel_or (rel_or (rel_or (h.get _ (by decide)) (h.pointer (by decide)))
    (h.pointer (by decide))) (h.pointer (by decide))) fun x y hxy => ?_
  rw [usageOf_congr hxy]

/-- What the accounting relies on in `serde_json::from_str`: what a string literal says
affects no number under a name in ASCII, and no JSON text starts outside ASCII. -/
structure ReadsNumbers (env : Env) : Prop where
  smudged : ∀ {s t : List Char}, Text.Smudged s t → Option.Rel Json.SameNumbers
    (env.fromStr (String.ofList s)).toOption (env.fromStr (String.ofList t)).toOption
  rejects : ∀ {c : Char} {s : List Char}, 128 ≤ c.toNat →
    (env.fromStr (String.ofList (c :: s))).toOption = none

/-! ### Lines that are lost -/

/-- The blanks between `data:` and the payload. -/
def leadingBlanks (line : List Char) : List Char :=
  ((Text.stripPrefix "data:" (popCarriageReturn line)).getD []).takeWhile Text.isWhitespace

def arrivals (text decoded : List Char) : List (List Char × List Char) :=
  (text.splitOn '\n').dropLast.zip (decoded.splitOn '\n').dropLast

/-- The lines whose blanks come through. -/
def keptLines (text decoded : List Char) : List (List Char) :=
  ((arrivals text decoded).filter fun line =>
    leadingBlanks line.1 = leadingBlanks line.2).map Prod.fst

/-- The lines with a blank that is cut, and the last line. -/
def lostLines (text decoded : List Char) : List (List Char) :=
  ((arrivals text decoded).filter fun line =>
    ¬ leadingBlanks line.1 = leadingBlanks line.2).map Prod.fst ++
      (text.splitOn '\n').getLast?.toList

/-- The maximum over all lines of a text, with its last one. -/
def textUsage (env : Env) (text : List Char) : Option TokenUsage :=
  (TokenUsage.maximum (lineUsages env (text.splitOn '\n'))).reported

section Lost

variable {env : Env}

variable {line : List Char}

theorem smudged_popCarriageReturn {arrived : List Char} (h : Text.Smudged line arrived) :
    Text.Smudged (popCarriageReturn line) (popCarriageReturn arrived) := by
  have hpop : ∀ {c : Char} {init : List Char}, c ≠ '\r' →
      popCarriageReturn (init ++ [c]) = init ++ [c] := by
    intro c init hc
    rw [popCarriageReturn, List.getLast?_concat, if_neg (by simpa using hc)]
  have hcr : ∀ init : List Char, popCarriageReturn (init ++ ['\r']) = init := by
    intro init
    rw [popCarriageReturn, List.getLast?_concat, if_pos rfl, List.dropLast_concat]
  rcases List.eq_nil_or_concat line with rfl | ⟨init, c, rfl⟩
  · rw [h.ascii_left (by simp)]
    exact .refl _
  · rw [List.concat_eq_append] at h ⊢
    obtain ⟨init', last, rfl, hinit, hlast⟩ := h.exists_append
    cases hlast with
    | keep c hnil =>
      cases hnil with
      | nil =>
        rcases eq_or_ne c '\r' with rfl | hc
        · rw [hcr, hcr]
          exact hinit
        · rw [hpop hc, hpop hc]
          exact h
    | smudge hc n hnil =>
      have hne : c ≠ '\r' := by
        rintro rfl
        exact absurd hc (by decide)
      cases hnil with
      | nil =>
        rw [hpop hne, List.append_nil, ← List.replicate_succ, List.replicate_succ',
          ← List.append_assoc, hpop (by decide), List.append_assoc, ← List.replicate_succ']
        rwa [List.append_nil, ← List.replicate_succ] at h

theorem lineUsage_arrived (henv : ReadsNumbers env) {arrived : List Char}
    (h : Text.Smudged line arrived) :
    lineUsage env (popCarriageReturn arrived) =
      if leadingBlanks line = leadingBlanks arrived then lineUsage env (popCarriageReturn line)
      else none := by
  have hrest :=
    @Text.Smudged.stripPrefix _ _ "data:" (by simp) (smudged_popCarriageReturn h)
  rw [leadingBlanks, leadingBlanks, lineUsage, lineUsage]
  generalize Text.stripPrefix "data:" (popCarriageReturn line) = sent at hrest ⊢
  generalize Text.stripPrefix "data:" (popCarriageReturn arrived) = got at hrest ⊢
  cases hrest with
  | none => rfl
  | @some rest rest' hrest =>
    rw [Option.bind_some, Option.bind_some, Option.getD_some, Option.getD_some]
    dsimp only
    rcases hrest.trimStart with ⟨hblanks, hpayload⟩ | ⟨hblanks, payload, hpayload⟩
    · have hsame : ∀ s : List Char, (∀ c ∈ s, c.toNat < 128) →
          (Text.trimStart rest' = s ↔ Text.trimStart rest = s) := by
        intro s hs
        constructor
        · rintro rfl
          exact (hpayload.ascii_right hs).symm
        · rintro rfl
          exact hpayload.ascii_left hs
      rw [if_pos hblanks]
      refine if_congr (or_congr (hsame _ (by simp)) (hsame _ (by simp))) rfl ?_
      exact (bind_eq_of_rel (henv.smudged hpayload) fun _ _ => extractTokenUsage_congr).symm
    · rw [if_neg hblanks, hpayload, henv.rejects (by decide), Option.bind_none, ite_self]

theorem mem_lineUsages {lines : List (List Char)} {u : TokenUsage} :
    u ∈ lineUsages env lines ↔ ∃ line ∈ lines, lineUsage env (popCarriageReturn line) = some u :=
  List.mem_filterMap

theorem lineUsages_arrived (henv : ReadsNumbers env) {lines arrived : List (List Char)}
    (h : List.Forall₂ Text.Smudged lines arrived) :
    lineUsages env arrived = lineUsages env (((lines.zip arrived).filter fun line =>
      leadingBlanks line.1 = leadingBlanks line.2).map Prod.fst) := by
  induction h with
  | nil => rfl
  | @cons line arrived lines arrivedRest hline hlines ih =>
    rw [lineUsages, List.filterMap_cons, lineUsage_arrived henv hline, List.zip_cons_cons,
      List.filter_cons]
    by_cases hblanks : leadingBlanks line = leadingBlanks arrived
    · rw [if_pos hblanks, if_pos (by simpa using hblanks), List.map_cons, lineUsages,
        List.filterMap_cons, ← lineUsages, ← lineUsages, ih]
    · rw [if_neg hblanks, if_neg (by simpa using hblanks), ← lineUsages, ih]

theorem forall₂_dropLast {α : Type} {R : α → α → Prop} {l m : List α} (h : List.Forall₂ R l m) :
    List.Forall₂ R l.dropLast m.dropLast := by
  rw [List.dropLast_eq_take, List.dropLast_eq_take, h.length_eq]
  exact List.forall₂_take _ h

theorem map_fst_arrivals {text decoded : List Char} (h : Text.Smudged text decoded) :
    (arrivals text decoded).map Prod.fst = (text.splitOn '\n').dropLast :=
  List.map_fst_zip (forall₂_dropLast (h.splitOn (by decide))).length_eq.le

theorem mem_splitOn_iff {text decoded : List Char} (h : Text.Smudged text decoded) :
    line ∈ text.splitOn '\n' ↔ line ∈ keptLines text decoded ∨ line ∈ lostLines text decoded := by
  have hlast : text.splitOn '\n' =
      (arrivals text decoded).map Prod.fst ++ (text.splitOn '\n').getLast?.toList := by
    rw [map_fst_arrivals h]
    rcases List.eq_nil_or_concat (text.splitOn '\n') with hnil | ⟨init, last, hconcat⟩
    · exact absurd hnil (List.splitOn_ne_nil _ _)
    · rw [hconcat, List.concat_eq_append, List.dropLast_concat, List.getLast?_concat]
      rfl
  rw [hlast, keptLines, lostLines, List.mem_append, List.mem_append, ← or_assoc]
  refine or_congr_left ?_
  simp only [List.mem_map, List.mem_filter, decide_eq_true_eq]
  constructor
  · rintro ⟨pair, hpair, rfl⟩
    by_cases hblanks : leadingBlanks pair.1 = leadingBlanks pair.2
    · exact .inl ⟨pair, ⟨hpair, hblanks⟩, rfl⟩
    · exact .inr ⟨pair, ⟨hpair, hblanks⟩, rfl⟩
  · rintro (⟨pair, ⟨hpair, -⟩, rfl⟩ | ⟨pair, ⟨hpair, -⟩, rfl⟩)
    · exact ⟨pair, hpair, rfl⟩
    · exact ⟨pair, hpair, rfl⟩

theorem reported_maximum_eq_iff {kept lost all : List TokenUsage}
    (h : ∀ u, u ∈ all ↔ u ∈ kept ∨ u ∈ lost) :
    (TokenUsage.maximum kept).reported = (TokenUsage.maximum all).reported ↔
      ∀ u ∈ lost, u ≤ TokenUsage.maximum kept := by
  have hkept := TokenUsage.maximum_le.1 (le_refl (TokenUsage.maximum kept))
  have hall := TokenUsage.maximum_le.1 (le_refl (TokenUsage.maximum all))
  rw [TokenUsage.reported_inj]
  constructor
  · intro heq u hu
    rw [heq]
    exact hall u ((h u).2 (.inr hu))
  · intro hlost
    refine le_antisymm (TokenUsage.maximum_le.2 fun u hu => ?_)
      (TokenUsage.maximum_le.2 fun u hu => ?_)
    · exact hall u ((h u).2 (.inl hu))
    · exact ((h u).1 hu).elim (hkept u) (hlost u)

/-- **When the usage of a stream is the maximum over all its lines.** -/
theorem streamUsage_iff (henv : ReadsNumbers env) {text : String} {chunks : List Bytes}
    (hchunks : chunks.flatten = utf8Bytes text) :
    streamUsage env chunks = textUsage env text.toList ↔
      ∀ u ∈ lineUsages env (lostLines text.toList (chunks.flatMap Text.fromUtf8Lossy)),
        u ≤ TokenUsage.maximum
          (lineUsages env (keptLines text.toList (chunks.flatMap Text.fromUtf8Lossy))) := by
  have hsmudged := Text.smudged_flatMap hchunks
  rw [streamUsage_eq, textUsage,
    lineUsages_arrived henv (forall₂_dropLast (hsmudged.splitOn (by decide)))]
  refine reported_maximum_eq_iff fun u => ?_
  simp only [mem_lineUsages, ← exists_or, ← or_and_right]
  exact exists_congr fun line => and_congr_left' (mem_splitOn_iff hsmudged)

end Lost

/-! ### A stream without a last line end -/

theorem readsNumbers_ofValues {value : Json} (h : isAscii value.compact = true) :
    ReadsNumbers (Env.ofValues [value]) := by
  have hascii : ∀ c ∈ value.compact.toList, c.toNat < 128 := isAscii_iff.1 h
  have hparse : ∀ s : List Char, ((Env.ofValues [value]).fromStr (String.ofList s)).toOption =
      if s = value.compact.toList then some value else none := by
    intro s
    by_cases hs : s = value.compact.toList
    · rw [if_pos hs, hs, String.ofList_toList]
      simp [Env.ofValues, Except.toOption]
    · have hne : ¬ value.compact = String.ofList s :=
        fun heq => hs (by rw [heq, String.toList_ofList])
      rw [if_neg hs]
      simp [Env.ofValues, hne, Except.toOption]
  constructor
  · intro s t hst
    have hiff : t = value.compact.toList ↔ s = value.compact.toList := by
      constructor
      · rintro rfl
        exact (hst.ascii_right hascii).symm
      · rintro rfl
        exact hst.ascii_left hascii
    rw [hparse, hparse, if_congr hiff rfl rfl]
    split_ifs with hs
    · exact .some (.refl value)
    · exact .none
  · intro c s hc
    rw [hparse, if_neg]
    intro hs
    have := hascii c (hs ▸ List.mem_cons_self)
    omega

def usagePayload : Json := .obj [("usage", .obj [("input_tokens", .int 5)])]

theorem streamUsage_iff_cut :
    streamUsage (Env.ofValues [usagePayload])
        [utf8Bytes "data: \x7b\"usage\":\x7b\"inp", utf8Bytes "ut_tokens\":5\x7d\x7d\r\n"] =
      textUsage (Env.ofValues [usagePayload])
        "data: \x7b\"usage\":\x7b\"input_tokens\":5\x7d\x7d\r\n".toList :=
  (streamUsage_iff (readsNumbers_ofValues (by decide)) (by decide)).2 (by decide)

/-- The usage on a last line without an end is not reported. -/
theorem not_streamUsage_unterminated :
    ReadsNumbers (Env.ofValues [usagePayload]) ∧
      streamUsage (Env.ofValues [usagePayload])
        [utf8Bytes "data: \x7b\"usage\":\x7b\"input_tokens\":5\x7d\x7d"] = none ∧
      textUsage (Env.ofValues [usagePayload])
        "data: \x7b\"usage\":\x7b\"input_tokens\":5\x7d\x7d".toList =
          some { inputTokens := 5 } :=
  ⟨readsNumbers_ofValues (by decide), by decide, by decide⟩

end AiOpenRouter
