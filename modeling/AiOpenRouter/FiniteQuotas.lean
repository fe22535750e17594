/-
Non-finite numbers in quota answers (`quota/parser.rs`).

An expression with a result that is not finite is an error. Numbers also come in by paths and
literals, where `value_to_f64` takes texts such as `NaN` or `1e999`, and the share of the total is
computed from what came in.

The numbers here are `f64` with its infinities and NaN (`Double`). The rounding of exact results is
a parameter, as nothing depends on it.

* `allFinite_iff`: every number of a snapshot is finite exactly when those that paths and literals
  bring in are, and the share of the total is in the range of `f64`.
-/
import AiOpenRouter.QuotaAnswers

namespace AiOpenRouter

open Text

/-! ### Numbers -/

/-- A value of `f64`. The two zeros are one, as only a division by zero tells them apart. -/
inductive Double where
  | finite (value : ℚ)
  | infinity (negative : Bool)
  | nan
  deriving DecidableEq

namespace Double

def overflow : ℚ := 2 ^ 1024 - 2 ^ 970

def isFinite : Double → Bool
  | finite _ => true
  | infinity _ => false
  | nan => false

def neg : Double → Double
  | finite x => finite (-x)
  | infinity negative => infinity !negative
  | nan => nan

/-- `<`. -/
def lt : Double → Double → Bool
  | finite x, finite y => x < y
  | finite _, infinity negative => !negative
  | infinity negative, finite _ => negative
  | infinity negative, infinity negative' => negative && !negative'
  | nan, _ => false
  | _, nan => false

section

variable (round : ℚ → ℚ)

def ofExact (x : ℚ) : Double := if |x| < overflow then finite (round x) else infinity (x < 0)

def add : Double → Double → Double
  | finite x, finite y => ofExact round (x + y)
  | finite _, infinity negative => infinity negative
  | infinity negative, finite _ => infinity negative
  | infinity negative, infinity negative' =>
    if negative = negative' then infinity negative else nan
  | nan, _ => nan
  | _, nan => nan

def mul : Double → Double → Double
  | finite x, finite y => ofExact round (x * y)
  | finite x, infinity negative => if x = 0 then nan else infinity (negative ^^ (x < 0))
  | infinity negative, finite x => if x = 0 then nan else infinity (negative ^^ (x < 0))
  | infinity negative, infinity negative' => infinity (negative ^^ negative')
  | nan, _ => nan
  | _, nan => nan

def div : Double → Double → Double
  | finite x, finite y =>
    if y = 0 then if x = 0 then nan else infinity (x < 0) else ofExact round (x / y)
  | finite _, infinity _ => finite 0
  | infinity negative, finite y => infinity (negative ^^ (y < 0))
  | infinity _, infinity _ => nan
  | nan, _ => nan
  | _, nan => nan

/-- `str::parse::<f64>`. -/
def parse (text : String) : Option Double :=
  let signed := readSign text.toList
  let name := String.ofList (signed.2.map Char.toLower)
  if name = "inf" ∨ name = "infinity" then some (infinity signed.1)
  else if name = "nan" then some nan
  else (readDecimal ℚ text).map (ofExact round)

/-- `Number::as_f64`: a number of a payload is finite. -/
def ofNumber : JsonNumber → Double
  | .int n => finite (round n)
  | .float text => finite (round ((readDecimal ℚ text).getD 0))

end

theorem isFinite_ofExact_iff {round : ℚ → ℚ} {x : ℚ} :
    (ofExact round x).isFinite = true ↔ |x| < overflow := by
  rw [ofExact]
  split_ifs with h
  · exact iff_of_true rfl h
  · exact iff_of_false Bool.false_ne_true h

end Double

/-- The arithmetic of `f64`. -/
def doubleQuota (round : ℚ → ℚ) (print : Double → String) (printNumber : JsonNumber → String) :
    QuotaArithmetic Double where
  parse := Double.parse round
  ofNumber := Double.ofNumber round
  add := Double.add round
  sub x y := Double.add round x y.neg
  mul := Double.mul round
  div := Double.div round
  neg := Double.neg
  isTiny
    | .finite x => |x| < 1 / 2 ^ 52
    | .infinity _ => false
    | .nan => false
  isFinite := Double.isFinite
  print := print
  ofF64 x := .finite (round ((readDecimal ℚ x.text).getD 0))
  printNumber := printNumber
  isPositive x := Double.lt (.finite 0) x
  isSpent x := Double.lt x (.finite 0) || x = .finite 0
  isFraction
    | .finite x => 0 ≤ x ∧ x ≤ 1
    | .infinity _ => false
    | .nan => false
  percent x := Double.mul round x (.finite 100)
  lt := Double.lt
  lt_negZero x := by rw [readDecimal_negZero]

/-! ### The numbers of a snapshot -/

section

variable {α : Type} (ops : QuotaArithmetic α)

def OptionFinite (x : Option α) : Prop := ∀ value, x = some value → ops.isFinite value = true

/-- Every number of a snapshot is finite. -/
structure ParsedQuotaSnapshot.AllFinite (snapshot : ParsedQuotaSnapshot α) : Prop where
  remaining : OptionFinite ops snapshot.remaining
  total : OptionFinite ops snapshot.total
  percent : OptionFinite ops snapshot.percent

def uncheckedNumber (source payload : Json) : Option α :=
  match parseMappingSpec source with
  | .empty => none
  | .path path => (extractJsonPath payload path).bind (valueToF64 ops.toArithmetic)
  | .expr _ => none
  | .literal value => valueToF64 ops.toArithmetic value

variable {ops}

theorem isFinite_of_evaluateExpression {ops : Arithmetic α} {expr : List Char} {payload : Json}
    {value : α} (h : evaluateExpression ops expr payload = .ok value) :
    ops.isFinite value = true := by
  rw [evaluateExpression, evaluateNormalized] at h
  cases hparsed : parseAddSub ops payload (exprFuel (normalizeExpression expr))
      ⟨0, normalizeExpression expr⟩ with
  | error error =>
    rw [hparsed] at h
    cases h
  | ok parsed =>
    rw [hparsed] at h
    change Except.mapError ExprError.text (if !parsed.2.skip.rest.isEmpty then
      .error (.unexpectedToken parsed.2.skip.pos) else if !ops.isFinite parsed.1 then
        .error .notFinite else .ok parsed.1) = _ at h
    cases hrest : parsed.2.skip.rest.isEmpty with
    | false =>
      rw [hrest] at h
      cases h
    | true =>
      cases hfinite : ops.isFinite parsed.1 with
      | false =>
        rw [hrest, hfinite] at h
        cases h
      | true =>
        rw [hrest, hfinite] at h
        rw [← Except.ok.inj h, hfinite]

theorem optionFinite_iff {source payload : Json} {result : Option α}
    (h : evaluateMappingNumber ops.toArithmetic source payload = .ok result) :
    OptionFinite ops result ↔ OptionFinite ops (uncheckedNumber ops source payload) := by
  rw [evaluateMappingNumber] at h
  rw [uncheckedNumber]
  cases hspec : parseMappingSpec source with
  | empty =>
    rw [hspec] at h
    rw [← Except.ok.inj h]
  | path path =>
    rw [hspec] at h
    rw [← Except.ok.inj h]
  | literal value =>
    rw [hspec] at h
    rw [← Except.ok.inj h]
  | expr expr =>
    rw [hspec] at h
    refine iff_of_true (fun value hvalue => ?_) fun value hvalue => nomatch hvalue
    dsimp only at h
    cases hresult : evaluateExpression ops.toArithmetic expr payload with
    | error error =>
      rw [hresult] at h
      cases h
    | ok value' =>
      rw [hresult, hvalue] at h
      rw [← Option.some.inj (Except.ok.inj h)]
      exact isFinite_of_evaluateExpression hresult

end

section

variable (round : ℚ → ℚ) (print : Double → String) (printNumber : JsonNumber → String)

/-- The share of the total stays in the range of `f64`. -/
def ShareInRange (rule : Rule) (payload : Json) : Prop :=
  ∀ rem all : ℚ,
    evaluateMappingNumber (doubleQuota round print printNumber).toArithmetic
        rule.quota.response.remaining payload = .ok (some (.finite rem)) →
      evaluateMappingNumber (doubleQuota round print printNumber).toArithmetic
          rule.quota.response.total payload = .ok (some (.finite all)) →
        0 < all → |rem / all| < Double.overflow ∧ |round (rem / all) * 100| < Double.overflow

/-- No number that is not finite comes in, and none comes out of the share. -/
structure FiniteSources (rule : Rule) (payload : Json) : Prop where
  remaining : OptionFinite (doubleQuota round print printNumber)
    (uncheckedNumber (doubleQuota round print printNumber) rule.quota.response.remaining payload)
  total : OptionFinite (doubleQuota round print printNumber)
    (uncheckedNumber (doubleQuota round print printNumber) rule.quota.response.total payload)
  share : ShareInRange round print printNumber rule payload

theorem isFinite_percent_fraction {rem : ℚ} (h : 0 ≤ rem ∧ rem ≤ 1) :
    (Double.ofExact round (rem * 100)).isFinite = true := by
  rw [Double.isFinite_ofExact_iff, abs_of_nonneg (by linarith [h.1])]
  have hlarge : (100 : ℚ) < Double.overflow := by decide +kernel
  linarith [h.2]

theorem isFinite_share_iff {rem all : ℚ} (h : 0 < all) :
    (Double.mul round (Double.div round (.finite rem) (.finite all)) (.finite 100)).isFinite =
        true ↔
      |rem / all| < Double.overflow ∧ |round (rem / all) * 100| < Double.overflow := by
  rw [Double.div, if_neg h.ne', Double.ofExact]
  split_ifs with hquotient
  · rw [Double.mul, Double.isFinite_ofExact_iff]
    exact (and_iff_right hquotient).symm
  · rw [Double.mul, if_neg (by norm_num)]
    exact iff_of_false Bool.false_ne_true fun h => hquotient h.1

theorem optionFinite_fraction (rem : ℚ) : OptionFinite (doubleQuota round print printNumber)
    (((some (Double.finite rem)).filter (doubleQuota round print printNumber).isFraction).map
      (doubleQuota round print printNumber).percent) := by
  intro value hvalue
  by_cases hfraction : 0 ≤ rem ∧ rem ≤ 1
  · have hkept : (some (Double.finite rem)).filter
        (doubleQuota round print printNumber).isFraction = some (.finite rem) :=
      if_pos (decide_eq_true hfraction)
    rw [hkept] at hvalue
    rw [← Option.some.inj hvalue]
    exact isFinite_percent_fraction round hfraction
  · have hdropped : (some (Double.finite rem)).filter
        (doubleQuota round print printNumber).isFraction = none :=
      if_neg fun h => hfraction (of_decide_eq_true h)
    rw [hdropped] at hvalue
    cases hvalue

theorem optionFinite_computedPercent_iff {remaining total : Option Double}
    (hremaining : OptionFinite (doubleQuota round print printNumber) remaining)
    (htotal : OptionFinite (doubleQuota round print printNumber) total) :
    OptionFinite (doubleQuota round print printNumber)
        (computedPercent (doubleQuota round print printNumber) remaining total) ↔
      ∀ rem all : ℚ, remaining = some (.finite rem) → total = some (.finite all) → 0 < all →
        |rem / all| < Double.overflow ∧ |round (rem / all) * 100| < Double.overflow := by
  rcases remaining with _ | remaining
  · have hnone : computedPercent (doubleQuota round print printNumber) none total = none := by
      cases total <;> rfl
    rw [hnone]
    exact iff_of_true (fun _ h => nomatch h) fun _ _ h => nomatch h
  · obtain ⟨rem, rfl⟩ : ∃ rem, remaining = .finite rem := by
      have hfinite := hremaining remaining rfl
      cases remaining with
      | finite rem => exact ⟨rem, rfl⟩
      | infinity _ => cases hfinite
      | nan => cases hfinite
    rcases total with _ | total
    · exact iff_of_true (optionFinite_fraction round print printNumber rem)
        fun _ _ _ h => nomatch h
    · obtain ⟨all, rfl⟩ : ∃ all, total = .finite all := by
        have hfinite := htotal total rfl
        cases total with
        | finite all => exact ⟨all, rfl⟩
        | infinity _ => cases hfinite
        | nan => cases hfinite
      -- a positive total gives the share; any other total leaves the fraction
      by_cases hall : 0 < all
      · have hshare : computedPercent (doubleQuota round print printNumber) (some (.finite rem))
            (some (.finite all)) =
              some (Double.mul round (Double.div round (.finite rem) (.finite all))
                (.finite 100)) := by
          have hpositive : (doubleQuota round print printNumber).isPositive (.finite all) = true :=
            decide_eq_true hall
          rw [computedPercent, if_pos hpositive]
          rfl
        have hiff := @isFinite_share_iff round rem all hall
        rw [hshare]
        constructor
        · intro h rem' all' hrem hall' _
          obtain rfl := Double.finite.inj (Option.some.inj hrem)
          obtain rfl := Double.finite.inj (Option.some.inj hall')
          exact hiff.1 (h _ rfl)
        · intro h value hvalue
          rw [← Option.some.inj hvalue]
          exact hiff.2 (h rem all rfl rfl hall)
      · have hfraction : computedPercent (doubleQuota round print printNumber) (some (.finite rem))
            (some (.finite all)) = ((some (Double.finite rem)).filter
              (doubleQuota round print printNumber).isFraction).map
                (doubleQuota round print printNumber).percent := by
          have hpositive :
              ¬ (doubleQuota round print printNumber).isPositive (.finite all) = true :=
            fun h => hall (of_decide_eq_true h)
          rw [computedPercent, if_neg hpositive]
          rfl
        rw [hfraction]
        refine iff_of_true (optionFinite_fraction round print printNumber rem) ?_
        intro rem' all' _ hall' hpositive
        obtain rfl := Double.finite.inj (Option.some.inj hall')
        exact absurd hpositive hall

end

/-- **Every number of a snapshot is finite** exactly when no other comes in, and the share of the
total is in range. -/
theorem allFinite_iff (round : ℚ → ℚ) (print : Double → String) (printNumber : JsonNumber → String)
    (rule : Rule) (payload : Json) (snapshot : ParsedQuotaSnapshot Double)
    (h : parseQuotaPayload (doubleQuota round print printNumber) rule payload = .ok snapshot) :
    snapshot.AllFinite (doubleQuota round print printNumber) ↔
      FiniteSources round print printNumber rule payload := by
  obtain ⟨hremaining, htotal, hpercent, -⟩ := parseQuotaPayload_ok h
  have hshare : ShareInRange round print printNumber rule payload ↔
      ∀ rem all : ℚ, snapshot.remaining = some (.finite rem) → snapshot.total = some (.finite all) →
        0 < all → |rem / all| < Double.overflow ∧ |round (rem / all) * 100| < Double.overflow := by
    rw [ShareInRange, hremaining, htotal]
    simp only [Except.ok.injEq]
  constructor
  · intro hall
    refine ⟨(optionFinite_iff hremaining).1 hall.remaining,
      (optionFinite_iff htotal).1 hall.total, hshare.2 ?_⟩
    refine (optionFinite_computedPercent_iff round print printNumber hall.remaining
      hall.total).1 ?_
    rw [← hpercent]
    exact hall.percent
  · intro hsources
    have hfinite := (optionFinite_iff hremaining).2 hsources.remaining
    have hfinite' := (optionFinite_iff htotal).2 hsources.total
    refine ⟨hfinite, hfinite', ?_⟩
    rw [hpercent]
    exact (optionFinite_computedPercent_iff round print printNumber hfinite hfinite').2
      (hshare.1 hsources.share)

theorem finiteSources_of_finite {round : ℚ → ℚ} {print : Double → String}
    {printNumber : JsonNumber → String} {rule : Rule} {payload : Json} {x y : ℚ}
    (hremaining : uncheckedNumber (doubleQuota round print printNumber)
      rule.quota.response.remaining payload = some (.finite x))
    (htotal : uncheckedNumber (doubleQuota round print printNumber)
      rule.quota.response.total payload = some (.finite y))
    (hevaluated : evaluateMappingNumber (doubleQuota round print printNumber).toArithmetic
      rule.quota.response.remaining payload = .ok (some (.finite x)))
    (hevaluated' : evaluateMappingNumber (doubleQuota round print printNumber).toArithmetic
      rule.quota.response.total payload = .ok (some (.finite y)))
    (hshare : |x / y| < Double.overflow ∧ |round (x / y) * 100| < Double.overflow) :
    FiniteSources round print printNumber rule payload where
  remaining value h := by
    rw [← Option.some.inj (hremaining.symm.trans h)]
    rfl
  total value h := by
    rw [← Option.some.inj (htotal.symm.trans h)]
    rfl
  share rem all hrem hall _ := by
    rw [hevaluated, Except.ok.injEq, Option.some_inj, Double.finite.injEq] at hrem
    rw [hevaluated', Except.ok.injEq, Option.some_inj, Double.finite.injEq] at hall
    rw [← hrem, ← hall]
    exact hshare

def shareRule : Rule :=
  { leftRule with
    quota := { leftRule.quota with
      response := { leftRule.quota.response with total := .str "$.total" } } }

/-- A fifth is left. -/
theorem allFinite_fifth :
    ParsedQuotaSnapshot.AllFinite (doubleQuota id (fun _ => "") fun _ => "")
      ⟨some (.finite 5), some (.finite 25), none, none, some (.finite 20), .ok⟩ := by
  refine (allFinite_iff id (fun _ => "") (fun _ => "") shareRule
    (.obj [("left", .int 5), ("total", .int 25)]) _ (by decide +kernel)).2
    (@finiteSources_of_finite _ _ _ _ _ 5 25 ?_ ?_ ?_ ?_ ?_)
  all_goals decide +kernel

/-- A remaining amount of `NaN` is ok. -/
theorem nan_ok : ∃ snapshot,
    parseQuotaPayload (doubleQuota id (fun _ => "") fun _ => "") leftRule
        (.obj [("left", .str "NaN")]) = .ok snapshot ∧
      snapshot.remaining = some .nan ∧ snapshot.status = .ok ∧
      ¬ snapshot.AllFinite (doubleQuota id (fun _ => "") fun _ => "") :=
  ⟨⟨some .nan, none, none, none, none, .ok⟩, by decide +kernel, rfl, rfl,
    fun h => absurd (h.remaining .nan rfl) Bool.false_ne_true⟩

end AiOpenRouter
