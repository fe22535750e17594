/-
What is read from the answer of a quota query (`quota/parser.rs`).

The four mappings of a provider are evaluated in their order. The share that is left is that of the
total, or the remaining amount itself where it is a fraction, and the status compares it, or the
amount, with a threshold.

* `statusKept_iff`: over exact rationals, when more is left the status does not get worse, unless
  less was read as a fraction and more as a percentage.
-/
import AiOpenRouter.ConfigNormalization
import AiOpenRouter.ExpressionValues
import AiOpenRouter.Routing
import Mathlib.Tactic.Linarith

namespace AiOpenRouter

/-! ### Reading an answer -/

/-- The operations on `f64` that the reading of an answer uses. -/
structure QuotaArithmetic (α : Type) extends Arithmetic α where
  ofF64 : F64 → α
  /-- `Number::to_string`. -/
  printNumber : JsonNumber → String
  /-- `> 0.0`. -/
  isPositive : α → Bool
  /-- `<= 0.0`. -/
  isSpent : α → Bool
  /-- `(0.0..=1.0).contains`. -/
  isFraction : α → Bool
  /-- `* 100.0`. -/
  percent : α → α
  lt : α → α → Bool
  /-- The two zeros compare alike. -/
  lt_negZero : ∀ x, lt x (ofF64 ⟨"-0.0"⟩) = lt x (ofF64 ⟨"0.0"⟩)

/-- `QuotaStatus`. -/
inductive QuotaStatus where
  | ok
  | low
  | empty
  | unknown
  | unsupported
  | error
  deriving DecidableEq

/-- `ParsedQuotaSnapshot`. -/
structure ParsedQuotaSnapshot (α : Type) where
  remaining : Option α
  total : Option α
  unit : Option String
  resetAt : Option String
  percent : Option α
  status : QuotaStatus
  deriving DecidableEq

/-- `x >= 0.0`. -/
def F64.isNonneg (x : F64) : Bool := x.isZero || decide (x.text.toList.head? ≠ some '-')

def RuleQuotaConfig.lowThreshold (quota : RuleQuotaConfig) : F64 :=
  if quota.lowThresholdPercent.isNonneg then quota.lowThresholdPercent else ⟨"10.0"⟩

section

variable {α : Type} (ops : QuotaArithmetic α)

/-- `evaluate_mapping_string`. -/
def evaluateMappingString (source payload : Json) : Except String (Option String) :=
  match parseMappingSpec source with
  | .empty => .ok none
  | .path path => .ok ((extractJsonPath payload path).bind (valueToString ops.printNumber))
  | .expr expr =>
    (evaluateExpression ops.toArithmetic expr payload).map fun value => some (ops.print value)
  | .literal value => .ok (valueToString ops.printNumber value)

def computedPercent (remaining total : Option α) : Option α :=
  let share := match remaining, total with
    | some rem, some all =>
      if ops.isPositive all then some (ops.percent (ops.div rem all)) else none
    | _, _ => none
  share <|> (remaining.filter ops.isFraction).map ops.percent

def normalizedRemaining (unitType : QuotaUnitType) (remaining total : Option α) : Option α :=
  match unitType with
  | .percentage => computedPercent ops remaining total <|> remaining
  | .amount | .tokens => remaining

def quotaStatus (threshold : F64) : Option α → QuotaStatus
  | none => .unknown
  | some rem =>
    if ops.isSpent rem then .empty
    else if ops.lt rem (ops.ofF64 threshold) then .low
    else .ok

def quotaSnapshot (quota : RuleQuotaConfig) (remaining total : Option α)
    (unit resetAt : Option String) : ParsedQuotaSnapshot α :=
  ⟨remaining, total, unit, resetAt, computedPercent ops remaining total,
    quotaStatus ops quota.lowThreshold (normalizedRemaining ops quota.unitType remaining total)⟩

/-- `parse_quota_payload`. -/
def parseQuotaPayload (rule : Rule) (payload : Json) : Except String (ParsedQuotaSnapshot α) := do
  let remaining ← evaluateMappingNumber ops.toArithmetic rule.quota.response.remaining payload
  let total ← evaluateMappingNumber ops.toArithmetic rule.quota.response.total payload
  let unit ← evaluateMappingString ops rule.quota.response.unit payload
  let resetAt ← evaluateMappingString ops rule.quota.response.resetAt payload
  return quotaSnapshot ops rule.quota remaining total unit resetAt

variable {ops}

theorem parseQuotaPayload_ok {rule : Rule} {payload : Json} {snapshot : ParsedQuotaSnapshot α}
    (h : parseQuotaPayload ops rule payload = .ok snapshot) :
    evaluateMappingNumber ops.toArithmetic rule.quota.response.remaining payload =
        .ok snapshot.remaining ∧
      evaluateMappingNumber ops.toArithmetic rule.quota.response.total payload =
        .ok snapshot.total ∧
      snapshot.percent = computedPercent ops snapshot.remaining snapshot.total ∧
      snapshot.status = quotaStatus ops rule.quota.lowThreshold
        (normalizedRemaining ops rule.quota.unitType snapshot.remaining snapshot.total) := by
  rw [parseQuotaPayload] at h
  cases hremaining :
      evaluateMappingNumber ops.toArithmetic rule.quota.response.remaining payload with
  | error error =>
    rw [hremaining] at h
    cases h
  | ok remaining =>
    cases htotal : evaluateMappingNumber ops.toArithmetic rule.quota.response.total payload with
    | error error =>
      rw [hremaining, htotal] at h
      cases h
    | ok total =>
      cases hunit : evaluateMappingString ops rule.quota.response.unit payload with
      | error error =>
        rw [hremaining, htotal, hunit] at h
        cases h
      | ok unit =>
        cases hreset : evaluateMappingString ops rule.quota.response.resetAt payload with
        | error error =>
          rw [hremaining, htotal, hunit, hreset] at h
          cases h
        | ok resetAt =>
          rw [hremaining, htotal, hunit, hreset] at h
          cases h
          exact ⟨rfl, rfl, rfl, rfl⟩

end

/-! ### Exact rationals -/

theorem readDecimal_negZero : readDecimal ℚ "-0.0" = readDecimal ℚ "0.0" := by
  decide +kernel

/-- Exact rationals in place of `f64`. -/
def rationalQuota (finite : ℚ → Bool) (print : ℚ → String) (printNumber : JsonNumber → String) :
    QuotaArithmetic ℚ where
  toArithmetic := fieldArithmetic finite print
  ofF64 x := (readDecimal ℚ x.text).getD 0
  printNumber := printNumber
  isPositive x := 0 < x
  isSpent x := x ≤ 0
  isFraction x := 0 ≤ x ∧ x ≤ 1
  percent x := x * 100
  lt x y := x < y
  lt_negZero x := by rw [readDecimal_negZero]

def QuotaStatus.rank : QuotaStatus → Option ℕ
  | empty => some 0
  | low => some 1
  | ok => some 2
  | unknown => none
  | unsupported => none
  | error => none

/-- A status is in the order, and the other is not below it. -/
def QuotaStatus.NoWorse (before after : QuotaStatus) : Prop :=
  ∃ m n, before.rank = some m ∧ after.rank = some n ∧ m ≤ n

section

variable (finite : ℚ → Bool) (print : ℚ → String) (printNumber : JsonNumber → String)

def RuleQuotaConfig.threshold (quota : RuleQuotaConfig) : ℚ :=
  (readDecimal ℚ quota.lowThreshold.text).getD 0

def comparedNumber (unitType : QuotaUnitType) (total : Option ℚ) (rem : ℚ) : ℚ :=
  if unitType = .percentage then
    if 0 < total.getD 0 then rem / total.getD 0 * 100
    else if 0 ≤ rem ∧ rem ≤ 1 then rem * 100
    else rem
  else rem

theorem normalizedRemaining_rational (unitType : QuotaUnitType) (total : Option ℚ) (rem : ℚ) :
    normalizedRemaining (rationalQuota finite print printNumber) unitType (some rem) total =
      some (comparedNumber unitType total rem) := by
  have hfraction : (((some rem).filter (rationalQuota finite print printNumber).isFraction).map
      (rationalQuota finite print printNumber).percent <|> some rem) =
        some (if 0 ≤ rem ∧ rem ≤ 1 then rem * 100 else rem) := by
    show ((if decide (0 ≤ rem ∧ rem ≤ 1) = true then some rem else none).map (· * 100) <|>
      some rem) = _
    by_cases h : 0 ≤ rem ∧ rem ≤ 1
    · rw [if_pos (decide_eq_true h), if_pos h]
      rfl
    · rw [if_neg (by rwa [decide_eq_true_eq]), if_neg h]
      rfl
  cases unitType with
  | amount => rfl
  | tokens => rfl
  | percentage =>
    rw [comparedNumber, if_pos rfl]
    cases total with
    | none =>
      rw [if_neg (by exact lt_irrefl 0)]
      exact hfraction
    | some all =>
      by_cases hall : 0 < all
      · rw [if_pos (by exact hall)]
        show (((if decide (0 < all) = true then some (rem / all * 100) else none) <|> _) <|> _) = _
        rw [if_pos (decide_eq_true hall)]
        rfl
      · rw [if_neg (by exact hall)]
        show (((if decide (0 < all) = true then some (rem / all * 100) else none) <|> _) <|> _) = _
        rw [if_neg (by rwa [decide_eq_true_eq])]
        exact hfraction

def statusRank (threshold x : ℚ) : ℕ := if x ≤ 0 then 0 else if x < threshold then 1 else 2

theorem rank_quotaStatus (quota : RuleQuotaConfig) (x : ℚ) :
    (quotaStatus (rationalQuota finite print printNumber) quota.lowThreshold (some x)).rank =
      some (statusRank quota.threshold x) := by
  show (if decide (x ≤ 0) = true then QuotaStatus.empty
    else if decide (x < quota.threshold) = true then .low else .ok).rank = _
  rw [statusRank]
  by_cases hspent : x ≤ 0
  · rw [if_pos (decide_eq_true hspent), if_pos hspent]
    rfl
  · rw [if_neg (by rwa [decide_eq_true_eq]), if_neg hspent]
    by_cases hlow : x < quota.threshold
    · rw [if_pos (decide_eq_true hlow), if_pos hlow]
      rfl
    · rw [if_neg (by rwa [decide_eq_true_eq]), if_neg hlow]
      rfl

end

theorem statusRank_mono (threshold : ℚ) {x y : ℚ} (h : x ≤ y) :
    statusRank threshold x ≤ statusRank threshold y := by
  rw [statusRank, statusRank]
  by_cases hx : x ≤ 0
  · rw [if_pos hx]
    exact Nat.zero_le _
  · have hy : ¬ y ≤ 0 := fun hy => hx (h.trans hy)
    rw [if_neg hx, if_neg hy]
    by_cases hlow : y < threshold
    · rw [if_pos (h.trans_lt hlow), if_pos hlow]
    · rw [if_neg hlow]
      split_ifs
      · exact Nat.le_succ 1
      · exact Nat.le_refl 2

/-- Less is read as a fraction and more as a percentage, and the threshold lies between the two. -/
def ReadApart (quota : RuleQuotaConfig) (total : Option ℚ) (a b : ℚ) : Prop :=
  quota.unitType = .percentage ∧ ¬ 0 < total.getD 0 ∧ 0 < a ∧ a ≤ 1 ∧ 1 < b ∧
    b < quota.threshold ∧ quota.threshold ≤ a * 100

theorem comparedNumber_mono (unitType : QuotaUnitType) (total : Option ℚ) {a b : ℚ} (hle : a ≤ b)
    (halike : unitType = .percentage → ¬ 0 < total.getD 0 → 0 ≤ a → a ≤ 1 → b ≤ 1) :
    comparedNumber unitType total a ≤ comparedNumber unitType total b := by
  rw [comparedNumber, comparedNumber]
  by_cases hunit : unitType = .percentage
  · rw [if_pos hunit, if_pos hunit]
    by_cases htotal : 0 < total.getD 0
    · rw [if_pos htotal, if_pos htotal]
      have hshare := div_le_div_of_nonneg_right hle htotal.le
      exact mul_le_mul_of_nonneg_right hshare (by norm_num)
    · rw [if_neg htotal, if_neg htotal]
      by_cases ha : 0 ≤ a ∧ a ≤ 1
      · rw [if_pos ha, if_pos ⟨ha.1.trans hle, halike hunit htotal ha.1 ha.2⟩]
        exact mul_le_mul_of_nonneg_right hle (by norm_num)
      · rw [if_neg ha]
        split_ifs with hb
        · linarith [hb.1]
        · exact hle
  · rw [if_neg hunit, if_neg hunit]
    exact hle

theorem statusRank_le_iff (quota : RuleQuotaConfig) (total : Option ℚ) {a b : ℚ} (hle : a ≤ b) :
    statusRank quota.threshold (comparedNumber quota.unitType total a) ≤
        statusRank quota.threshold (comparedNumber quota.unitType total b) ↔
      ¬ ReadApart quota total a b := by
  by_cases halike : quota.unitType = .percentage → ¬ 0 < total.getD 0 → 0 ≤ a → a ≤ 1 → b ≤ 1
  · refine iff_of_true (statusRank_mono _ (comparedNumber_mono _ _ hle halike)) fun hapart => ?_
    obtain ⟨hunit, htotal, hpos, hone, hlarge, -, -⟩ := hapart
    exact absurd (halike hunit htotal hpos.le hone) (not_le.2 hlarge)
  · simp only [not_forall, not_le] at halike
    obtain ⟨hunit, htotal, hnonneg, hone, hlarge⟩ := halike
    -- `a` is compared as a percentage, and `b` as it is
    have ha : comparedNumber quota.unitType total a = a * 100 := by
      rw [comparedNumber, if_pos hunit, if_neg htotal, if_pos ⟨hnonneg, hone⟩]
    have hb : comparedNumber quota.unitType total b = b := by
      rw [comparedNumber, if_pos hunit, if_neg htotal,
        if_neg fun h => absurd h.2 (not_le.2 hlarge)]
    have hbpos : ¬ b ≤ 0 := by linarith
    rw [ha, hb, statusRank, statusRank, if_neg hbpos]
    by_cases hempty : a * 100 ≤ 0
    · rw [if_pos hempty]
      refine iff_of_true (Nat.zero_le _) fun hapart => ?_
      linarith [hapart.2.2.1]
    · rw [if_neg hempty]
      have hpos : 0 < a := by linarith
      by_cases hlow : a * 100 < quota.threshold
      · rw [if_pos hlow]
        refine iff_of_true ?_ fun hapart => ?_
        · split_ifs
          · exact Nat.le_refl 1
          · exact Nat.le_succ 1
        · linarith [hapart.2.2.2.2.2.2]
      · rw [if_neg hlow]
        by_cases hblow : b < quota.threshold
        · rw [if_pos hblow]
          exact iff_of_false (by decide) fun h =>
            h ⟨hunit, htotal, hpos, hone, hlarge, hblow, not_lt.1 hlow⟩
        · rw [if_neg hblow]
          exact iff_of_true (Nat.le_refl 2) fun hapart => hblow hapart.2.2.2.2.2.1

/-- **More left does not make the status worse**, exactly when less and more are not read apart. -/
theorem statusKept_iff (finite : ℚ → Bool) (print : ℚ → String) (printNumber : JsonNumber → String)
    (rule : Rule) (payload payload' : Json) (before after : ParsedQuotaSnapshot ℚ) (a b : ℚ)
    (hbefore : parseQuotaPayload (rationalQuota finite print printNumber) rule payload = .ok before)
    (hafter : parseQuotaPayload (rationalQuota finite print printNumber) rule payload' = .ok after)
    (ha : before.remaining = some a) (hb : after.remaining = some b)
    (htotal : before.total = after.total) (hle : a ≤ b) :
    before.status.NoWorse after.status ↔ ¬ ReadApart rule.quota before.total a b := by
  obtain ⟨-, -, -, hstatus⟩ := parseQuotaPayload_ok hbefore
  obtain ⟨-, -, -, hstatus'⟩ := parseQuotaPayload_ok hafter
  have hrank : before.status.rank =
      some (statusRank rule.quota.threshold
        (comparedNumber rule.quota.unitType before.total a)) := by
    rw [hstatus, ha, normalizedRemaining_rational, rank_quotaStatus]
  have hrank' : after.status.rank =
      some (statusRank rule.quota.threshold
        (comparedNumber rule.quota.unitType before.total b)) := by
    rw [hstatus', hb, ← htotal, normalizedRemaining_rational, rank_quotaStatus]
  rw [← statusRank_le_iff rule.quota before.total hle, QuotaStatus.NoWorse, hrank, hrank']
  constructor
  · rintro ⟨m, n, hm, hn, hmn⟩
    rwa [Option.some.inj hm, Option.some.inj hn]
  · exact fun h => ⟨_, _, rfl, rfl, h⟩

/-- A rule whose quota answer has the remaining amount under `left`. -/
def leftRule : Rule :=
  { blankRule with
    quota := { defaultRuleQuotaConfig with response := { remaining := .str "$.left" } } }

/-- An answer with a remaining amount. -/
def leftPayload (left : ℤ) : Json := .obj [("left", .num (.int left))]

/-- What is read from an answer to `leftRule`. -/
def leftSnapshot (left : ℚ) (status : QuotaStatus) : ParsedQuotaSnapshot ℚ :=
  ⟨some left, none, none, none, none, status⟩

theorem statusKept_more : (leftSnapshot 5 .low).status.NoWorse (leftSnapshot 50 .ok).status :=
  (statusKept_iff (fun _ => true) (fun _ => "") (fun _ => "") leftRule (leftPayload 5)
    (leftPayload 50) (leftSnapshot 5 .low) (leftSnapshot 50 .ok) 5 50 (by decide +kernel)
    (by decide +kernel) rfl rfl rfl (by norm_num)).2
    fun h => absurd h.2.2.2.1 (by norm_num)

/-- With two left instead of one the status falls from ok to low. -/
theorem status_falls :
    ∃ before after : ParsedQuotaSnapshot ℚ,
      parseQuotaPayload (rationalQuota (fun _ => true) (fun _ => "") fun _ => "") leftRule
          (leftPayload 1) = .ok before ∧
        parseQuotaPayload (rationalQuota (fun _ => true) (fun _ => "") fun _ => "") leftRule
          (leftPayload 2) = .ok after ∧
        before.remaining = some 1 ∧ after.remaining = some 2 ∧ before.total = after.total ∧
        ¬ before.status.NoWorse after.status := by
  refine ⟨⟨some 1, none, none, none, some 100, .ok⟩, leftSnapshot 2 .low, by decide +kernel,
    by decide +kernel, rfl, rfl, rfl, ?_⟩
  rintro ⟨m, n, hm, hn, hmn⟩
  obtain rfl := Option.some.inj hm
  obtain rfl := Option.some.inj hn
  exact absurd hmn (by decide)

end AiOpenRouter
