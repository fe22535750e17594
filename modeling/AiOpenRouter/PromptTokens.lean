/-
The prompt tokens that a usage is charged for (`proxy/observability.rs`).

An answer in the style of OpenAI states the total of the prompt, with the tokens read from the cache
in it. `normalize_input_tokens` takes these off the total, so that no token is counted as fresh and
as cached.

* `promptCounted`: the fresh and the cached tokens make up the total where the cached ones are no
  more than it, and tokens written to the cache are counted beside it.
-/
import AiOpenRouter.CostSnapshots
import Mathlib.Tactic.Ring

namespace AiOpenRouter

/-! ### Numbers of a usage -/

/-- The usage that `extract_token_usage` finds in a payload. -/
def statedUsage (payload : Json) : Option Json :=
  (((payload.get "usage").or (payload.pointer ["response", "usage"])).or
    (payload.pointer ["message", "usage"])).or (payload.pointer ["delta", "usage"])

theorem extractTokenUsage_eq (payload : Json) :
    extractTokenUsage payload = (statedUsage payload).bind fun usage => (usageOf usage).reported :=
  rfl

/-- The numbers under the names, in the order in which `first_u64` sees them. -/
def numbersAt (usage : Json) (fields : List String) : List ℕ :=
  fields.flatMap fun field =>
    [[field], ["input_tokens_details", field], ["prompt_tokens_details", field]].filterMap
      fun path => (usage.pointer path).bind Json.asU64

section

variable {usage : Json} {fields : List String}

theorem firstU64_eq : firstU64 usage fields =
    (((numbersAt usage fields).find? (0 < ·)).or (numbersAt usage fields).head?).getD 0 :=
  rfl

theorem firstU64_eq_zero (h : ∀ n ∈ numbersAt usage fields, n = 0) : firstU64 usage fields = 0 := by
  have hnone : (numbersAt usage fields).find? (0 < ·) = none := by
    refine List.find?_eq_none.2 fun n hn hpos => ?_
    have hzero := h n hn
    have := of_decide_eq_true hpos
    omega
  rw [firstU64_eq, hnone, Option.none_or]
  cases hhead : (numbersAt usage fields).head? with
  | none => rfl
  | some n => exact h n (List.mem_of_head? hhead)

theorem firstU64_eq_of_find {n : ℕ} (h : (numbersAt usage fields).find? (0 < ·) = some n) :
    firstU64 usage fields = n := by
  rw [firstU64_eq, h]
  rfl

theorem firstU64_eq_zero_iff :
    firstU64 usage fields = 0 ↔ ∀ n ∈ numbersAt usage fields, n = 0 := by
  refine ⟨fun h n hn => ?_, firstU64_eq_zero⟩
  by_contra hne
  cases hfind : (numbersAt usage fields).find? (0 < ·) with
  | none => exact List.find?_eq_none.1 hfind n hn (decide_eq_true (Nat.pos_of_ne_zero hne))
  | some m =>
    have hpos : 0 < m := of_decide_eq_true (List.find?_some hfind :)
    rw [firstU64_eq_of_find hfind] at h
    omega

theorem firstU64_eq_of_agree {total : ℕ} (hmem : total ∈ numbersAt usage fields)
    (h : ∀ n ∈ numbersAt usage fields, n = total ∨ n = 0) : firstU64 usage fields = total := by
  cases hfind : (numbersAt usage fields).find? (0 < ·) with
  | none =>
    have hzero : total = 0 := Nat.eq_zero_of_not_pos fun hpos =>
      List.find?_eq_none.1 hfind total hmem (decide_eq_true hpos)
    rw [hzero]
    exact firstU64_eq_zero fun n hn => (h n hn).elim (fun heq => heq.trans hzero) id
  | some n =>
    have hpos : 0 < n := of_decide_eq_true (List.find?_some hfind :)
    have hn := h n (List.mem_of_find?_eq_some hfind)
    rw [firstU64_eq_of_find hfind]
    omega

theorem numbersAt_subset {fields' : List String} (h : fields ⊆ fields') :
    numbersAt usage fields ⊆ numbersAt usage fields' := fun n hn => by
  obtain ⟨field, hfield, hnumber⟩ := List.mem_flatMap.1 hn
  exact List.mem_flatMap.2 ⟨field, h hfield, hnumber⟩

theorem mem_numbersAt {field : String} {n : ℕ} (hfield : field ∈ fields)
    (h : (usage.get field).bind Json.asU64 = some n) : n ∈ numbersAt usage fields := by
  refine List.mem_flatMap.2 ⟨field, hfield, List.mem_filterMap.2 ⟨[field], List.mem_cons_self, ?_⟩⟩
  rwa [Json.pointer_singleton]

end

/-! ### The total of the prompt -/

def inputFields : List String := ["input_tokens", "prompt_tokens", "inputTokens", "promptTokens"]

/-- Names of the tokens written to the cache, apart from the misses of the cache. -/
def creationFields : List String :=
  ["cache_creation_input_tokens", "cache_write_input_tokens", "cache_creation_tokens"]

/-- Names of the tokens read from the cache. -/
def readFields : List String :=
  ["cache_read_input_tokens", "cache_read_tokens", "prompt_cache_hit_tokens", "cached_tokens"]

/-- A usage has a total for the prompt, and no other number under its aliases. -/
def ReportsTotal (usage : Json) (total : ℕ) : Prop :=
  ((usage.get "prompt_tokens").bind Json.asU64 = some total ∨
    (usage.get "input_tokens").bind Json.asU64 = some total) ∧
  ∀ n ∈ numbersAt usage inputFields, n = total ∨ n = 0

/-- The shape test of `normalize_input_tokens`: the total is the one that OpenAI reports. -/
def OpenaiStyle (usage : Json) : Prop :=
  ((((usage.get "input_tokens_details").or (usage.get "prompt_tokens_details")).bind
    (·.get "cached_tokens")).bind Json.asU64).isSome = true ∨
  ((usage.get "prompt_tokens").bind Json.asU64).isSome = true ∨
  ((usage.get "completion_tokens").bind Json.asU64).isSome = true

instance (usage : Json) : Decidable (OpenaiStyle usage) :=
  inferInstanceAs (Decidable (_ ∨ _ ∨ _))

section

variable {usage : Json} {total : ℕ}

theorem firstU64_inputFields (h : ReportsTotal usage total) :
    firstU64 usage inputFields = total := by
  refine firstU64_eq_of_agree ?_ h.2
  rcases h.1 with hprompt | hinput
  · exact mem_numbersAt (by decide) hprompt
  · exact mem_numbersAt (by decide) hinput

theorem normalizeInputTokens_of_style {raw read : ℕ} (hstyle : OpenaiStyle usage)
    (hle : read ≤ raw) : normalizeInputTokens usage raw read = raw - read := by
  rw [normalizeInputTokens]
  refine if_pos ?_
  rw [Bool.and_eq_true, Bool.or_eq_true, Bool.or_eq_true, decide_eq_true_eq]
  exact ⟨hstyle, hle⟩

theorem normalizeInputTokens_of_not {raw read : ℕ} (h : ¬(OpenaiStyle usage ∧ read ≤ raw)) :
    normalizeInputTokens usage raw read = raw := by
  rw [normalizeInputTokens]
  refine if_neg fun hif => h ?_
  rw [Bool.and_eq_true, Bool.or_eq_true, Bool.or_eq_true, decide_eq_true_eq] at hif
  exact hif

theorem cacheWriteTokens_eq_zero_iff
    (hmiss : ∀ n ∈ numbersAt usage ["prompt_cache_miss_tokens"], n = 0) :
    (usageOf usage).cacheWriteTokens = 0 ↔ ∀ n ∈ numbersAt usage creationFields, n = 0 := by
  show firstU64 usage ["cache_creation_input_tokens", "cache_write_input_tokens",
    "prompt_cache_miss_tokens", "cache_creation_tokens"] = 0 ↔ _
  rw [firstU64_eq_zero_iff]
  constructor
  · exact fun h n hn => h n (numbersAt_subset (by decide) hn)
  · intro h n hn
    obtain ⟨field, hfield, hnumber⟩ := List.mem_flatMap.1 hn
    by_cases hname : field = "prompt_cache_miss_tokens"
    · exact hmiss n (List.mem_flatMap.2 ⟨field, List.mem_singleton.2 hname, hnumber⟩)
    · refine h n (List.mem_flatMap.2 ⟨field, ?_, hnumber⟩)
      simp only [creationFields, List.mem_cons, List.not_mem_nil, or_false] at hfield ⊢
      tauto

theorem input_add_cacheRead (htotal : ReportsTotal usage total) (hstyle : OpenaiStyle usage)
    (hle : (usageOf usage).cacheReadTokens ≤ total) :
    (usageOf usage).inputTokens + (usageOf usage).cacheReadTokens = total := by
  have hraw := firstU64_inputFields htotal
  have hinput : (usageOf usage).inputTokens = total - (usageOf usage).cacheReadTokens := by
    refine Eq.trans ?_ (normalizeInputTokens_of_style hstyle hle)
    rw [← hraw]
    rfl
  omega

theorem input_eq_total (htotal : ReportsTotal usage total)
    (h : ¬(OpenaiStyle usage ∧ (usageOf usage).cacheReadTokens ≤ total)) :
    (usageOf usage).inputTokens = total := by
  refine Eq.trans ?_ (normalizeInputTokens_of_not h)
  rw [← firstU64_inputFields htotal]
  rfl

theorem cacheReadTokens_eq_zero_iff :
    (usageOf usage).cacheReadTokens = 0 ↔ ∀ n ∈ numbersAt usage readFields, n = 0 :=
  firstU64_eq_zero_iff

theorem counts_le_total_iff (htotal : ReportsTotal usage total)
    (hmiss : ∀ n ∈ numbersAt usage ["prompt_cache_miss_tokens"], n = 0) :
    (usageOf usage).inputTokens + (usageOf usage).cacheReadTokens +
        (usageOf usage).cacheWriteTokens ≤ total ↔
      (∀ n ∈ numbersAt usage creationFields, n = 0) ∧
        ((∀ n ∈ numbersAt usage readFields, n = 0) ∨
          OpenaiStyle usage ∧ (usageOf usage).cacheReadTokens ≤ total) := by
  rw [← cacheWriteTokens_eq_zero_iff hmiss, ← cacheReadTokens_eq_zero_iff]
  by_cases h : OpenaiStyle usage ∧ (usageOf usage).cacheReadTokens ≤ total
  · have hsum := input_add_cacheRead htotal h.1 h.2
    constructor
    · exact fun hle => ⟨by omega, .inr h⟩
    · rintro ⟨hwrite, -⟩
      omega
  · have hinput := input_eq_total htotal h
    constructor
    · exact fun hle => ⟨by omega, .inl (by omega)⟩
    · rintro ⟨hwrite, hread | hcached⟩
      · omega
      · exact absurd hcached h

end

/-- **What a prompt is charged for.** A payload reports the total of its prompt and no misses of the
cache. Its fresh and cached tokens make up the total where the usage is in the style of OpenAI and
no more is cached than the total, and the three counts exceed the total exactly where tokens written
to the cache are stated, or cached ones are that `normalize_input_tokens` leaves in the total. Where
they do not exceed it and fresh and cached tokens have one price, the prompt is charged at that
price, every token once. -/
theorem promptCounted {payload usage : Json} {tokens : TokenUsage} {total : ℕ}
    (husage : statedUsage payload = some usage) (htokens : extractTokenUsage payload = some tokens)
    (htotal : ReportsTotal usage total)
    (hmiss : ∀ n ∈ numbersAt usage ["prompt_cache_miss_tokens"], n = 0) :
    (OpenaiStyle usage → tokens.cacheReadTokens ≤ total →
      tokens.inputTokens + tokens.cacheReadTokens = total) ∧
    (tokens.inputTokens + tokens.cacheReadTokens + tokens.cacheWriteTokens ≤ total ↔
      (∀ n ∈ numbersAt usage creationFields, n = 0) ∧
        ((∀ n ∈ numbersAt usage readFields, n = 0) ∨
          OpenaiStyle usage ∧ tokens.cacheReadTokens ≤ total)) ∧
    ∀ (rule : Rule) (targetModel : String) (snapshot : CostSnapshot ℚ),
      tokens.inputTokens + tokens.cacheReadTokens + tokens.cacheWriteTokens ≤ total →
      buildCostSnapshot rationalPrices rule targetModel tokens = some snapshot →
      snapshot.cacheInputPricePerM.price = snapshot.inputPricePerM.price →
      snapshot.totalCost = total / 1000000 * snapshot.inputPricePerM.price +
        tokens.outputTokens / 1000000 * snapshot.outputPricePerM.price := by
  obtain rfl : usageOf usage = tokens := by
    rw [extractTokenUsage_eq, husage, Option.bind_some, TokenUsage.reported] at htokens
    split_ifs at htokens
    exact Option.some.inj htokens
  have hcounts := counts_le_total_iff htotal hmiss
  refine ⟨input_add_cacheRead htotal, hcounts, ?_⟩
  intro rule targetModel snapshot hle hsnapshot hprice
  obtain ⟨hwrites, hread⟩ := hcounts.1 hle
  have hwrite := (cacheWriteTokens_eq_zero_iff hmiss).2 hwrites
  have hsum : (usageOf usage).inputTokens + (usageOf usage).cacheReadTokens = total := by
    by_cases h : OpenaiStyle usage ∧ (usageOf usage).cacheReadTokens ≤ total
    · exact input_add_cacheRead htotal h.1 h.2
    · have hzero := cacheReadTokens_eq_zero_iff.2 (hread.resolve_right h)
      have hinput := input_eq_total htotal h
      omega
  rw [totalCost_buildCostSnapshot hsnapshot, hprice, hwrite, ← hsum]
  push_cast
  ring

/-- A usage in the style of OpenAI, by the details of its prompt. -/
def openaiUsage (details : List (String × Json)) : Json :=
  .obj [("prompt_tokens", .int 100), ("completion_tokens", .int 20),
    ("prompt_tokens_details", .obj details)]

theorem promptCounted_cached :
    extractTokenUsage (.obj [("usage", openaiUsage [("cached_tokens", .int 30)])]) =
        some ⟨70, 20, 30, 0⟩ ∧ 70 + 30 = 100 := by
  have htokens : extractTokenUsage (.obj [("usage", openaiUsage [("cached_tokens", .int 30)])]) =
      some ⟨70, 20, 30, 0⟩ := by decide
  exact ⟨htokens, (promptCounted rfl htokens ⟨.inl rfl, by decide⟩ (by decide)).1 (by decide)
    (by decide)⟩

/-- Tokens written to the cache are counted beside the total. -/
theorem written_tokens_exceed :
    ReportsTotal (openaiUsage [("cached_tokens", .int 30), ("cache_creation_tokens", .int 5)]) 100 ∧
      extractTokenUsage (.obj [("usage",
          openaiUsage [("cached_tokens", .int 30), ("cache_creation_tokens", .int 5)])]) =
        some ⟨70, 20, 30, 5⟩ ∧
      ¬70 + 30 + 5 ≤ 100 :=
  ⟨⟨.inl rfl, by decide⟩, by decide, by decide⟩

end AiOpenRouter
