/-
What a request costs by the prices of its provider (`proxy/observability.rs`).

* `buildCostSnapshot` looks the target model up among the prices;
* `totalCost_buildCostSnapshot`: in exact numbers, each token is charged at the price of its kind.
-/
import AiOpenRouter.ConfigNormalization
import AiOpenRouter.ExpressionValues
import AiOpenRouter.StreamUsage

namespace AiOpenRouter

/-- The operations on `f64` that a cost is computed by. -/
structure PriceArithmetic (α : Type) where
  /-- `tokens as f64 / 1_000_000.0`. -/
  millions : ℕ → α
  ofF64 : F64 → α
  mul : α → α → α
  add : α → α → α
  /-- `== 0.0`. -/
  isZero : α → Bool
  isZero_mul : ∀ tokens price, F64.isZero price = true →
    isZero (mul (millions tokens) (ofF64 price)) = true
  isZero_add : ∀ a b, isZero a = true → isZero b = true → isZero (add a b) = true

/-- `CostSnapshot`. -/
structure CostSnapshot (α : Type) where
  enabled : Bool
  currency : String
  inputPricePerM : F64
  outputPricePerM : F64
  cacheInputPricePerM : F64
  cacheOutputPricePerM : F64
  totalCost : α

/-- `resolve_model_cost_config`. -/
def resolveModelCostConfig (rule : Rule) (targetModel : String) : Option RuleCostConfig :=
  if trimmed targetModel = "" then none else rule.modelCosts.get (trimmed targetModel)

section

variable {α : Type} (prices : PriceArithmetic α)

def costSnapshot (usage : TokenUsage) (cost : RuleCostConfig) : Option (CostSnapshot α) :=
  if cost.enabled then
    let part := fun tokens price => prices.mul (prices.millions tokens) (prices.ofF64 price)
    some
      { enabled := true
        currency := cost.currency
        inputPricePerM := cost.inputPricePerM
        outputPricePerM := cost.outputPricePerM
        cacheInputPricePerM := cost.cacheInputPricePerM
        cacheOutputPricePerM := cost.cacheOutputPricePerM
        totalCost := prices.add
          (prices.add
            (prices.add (part usage.inputTokens cost.inputPricePerM)
              (part usage.outputTokens cost.outputPricePerM))
            (part usage.cacheReadTokens cost.cacheInputPricePerM))
          (part usage.cacheWriteTokens cost.cacheOutputPricePerM) }
  else none

/-- `build_cost_snapshot`. -/
def buildCostSnapshot (rule : Rule) (targetModel : String) (usage : TokenUsage) :
    Option (CostSnapshot α) :=
  (resolveModelCostConfig rule targetModel).bind (costSnapshot prices usage)

end

/-! ### Exact rationals -/

/-- A price as an exact number. -/
def F64.price (x : F64) : ℚ := (readDecimal ℚ x.text).getD 0

theorem F64.price_of_isZero {x : F64} (h : x.isZero = true) : x.price = 0 := by
  have hzero : readDecimal ℚ "0.0" = some 0 := by decide +kernel
  have hneg : readDecimal ℚ "-0.0" = some 0 := by decide +kernel
  rw [F64.isZero, Bool.or_eq_true, decide_eq_true_eq, decide_eq_true_eq] at h
  rw [F64.price]
  rcases h with htext | htext
  · rw [htext, hzero]
    rfl
  · rw [htext, hneg]
    rfl

/-- Exact rationals in place of `f64`. -/
def rationalPrices : PriceArithmetic ℚ where
  millions tokens := tokens / 1000000
  ofF64 := F64.price
  mul a b := a * b
  add a b := a + b
  isZero a := a = 0
  isZero_mul tokens price h := by
    have hprice := F64.price_of_isZero h
    show decide ((tokens / 1000000 : ℚ) * price.price = 0) = true
    rw [hprice, mul_zero]
    exact decide_eq_true rfl
  isZero_add a b ha hb := by
    have hleft : a = 0 := of_decide_eq_true ha
    have hright : b = 0 := of_decide_eq_true hb
    show decide (a + b = 0) = true
    rw [hleft, hright, add_zero]
    exact decide_eq_true rfl

theorem totalCost_buildCostSnapshot {rule : Rule} {targetModel : String} {usage : TokenUsage}
    {snapshot : CostSnapshot ℚ}
    (h : buildCostSnapshot rationalPrices rule targetModel usage = some snapshot) :
    snapshot.totalCost = usage.inputTokens / 1000000 * snapshot.inputPricePerM.price +
      usage.outputTokens / 1000000 * snapshot.outputPricePerM.price +
      usage.cacheReadTokens / 1000000 * snapshot.cacheInputPricePerM.price +
      usage.cacheWriteTokens / 1000000 * snapshot.cacheOutputPricePerM.price := by
  obtain ⟨cost, -, hcost⟩ := Option.bind_eq_some_iff.1 h
  rw [costSnapshot] at hcost
  split_ifs at hcost
  cases hcost
  rfl

end AiOpenRouter
