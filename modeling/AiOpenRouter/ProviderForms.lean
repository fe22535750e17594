/-
The normal forms of a provider, in every iteration order of its hash maps.

Of two costs whose models are the same after trimming, normalisation keeps the one
that the iteration meets first.

* `Rule.HasForm` relates a provider to its normal forms;
* `Rule.CostsAgree` says that no order chooses between two different costs;
* `costsAgree_iff`: this is when all normal forms are the same by content.
-/
import AiOpenRouter.ConfigNormalization
import AiOpenRouter.ConfigReading

namespace AiOpenRouter

/-! ### Costs in every order -/

def validModels (models : List String) : List String := (models.map trimmed).filter (· ≠ "")

def Rule.CostsAgree (provider : Rule) : Prop :=
  ∀ entry ∈ provider.modelCosts.entries, ∀ entry' ∈ provider.modelCosts.entries,
    trimmed entry.1 ∈ validModels provider.models → trimmed entry'.1 = trimmed entry.1 →
      entry'.2 = entry.2

/-- **The cost of a model is the first one under its name.** -/
theorem get_declaredCosts (models : List String) (costs : HashMap RuleCostConfig) (key : String) :
    (declaredCosts models costs).get key =
      if key ∈ validModels models then
        (costs.entries.find? fun entry => trimmed entry.1 = key).map Prod.snd
      else none := by
  unfold declaredCosts
  dsimp only
  rw [← validModels]
  induction costs.entries using List.reverseRecOn with
  | nil => rw [List.foldl_nil, HashMap.get_empty, List.find?_nil, Option.map_none, ite_self]
  | append_singleton entries entry ih =>
    rw [List.foldl_append, List.foldl_cons, List.foldl_nil, List.find?_append]
    by_cases hvalid : trimmed entry.1 ∈ validModels models
    · have hne : trimmed entry.1 ≠ "" := of_decide_eq_true (List.mem_filter.1 hvalid).2
      rw [if_neg (not_or.2 ⟨hne, not_not.2 hvalid⟩), HashMap.get_insertNew, ih]
      by_cases hkey : key = trimmed entry.1
      · have hmem : key ∈ validModels models := hkey ▸ hvalid
        have hfound : [entry].find? (fun entry => trimmed entry.1 = key) = some entry :=
          List.find?_cons_of_pos (decide_eq_true hkey.symm)
        rw [if_pos hmem, if_pos hmem, if_pos hkey, hfound, Option.map_or]
        rfl
      · rw [if_neg hkey, Option.or_none,
          List.find?_cons_of_neg (by simpa using fun heq => hkey heq.symm), List.find?_nil,
          Option.or_none]
    · rw [if_pos (.inr hvalid), ih]
      by_cases hkey : key ∈ validModels models
      · have hnot : trimmed entry.1 ≠ key := fun heq => hvalid (heq ▸ hkey)
        rw [if_pos hkey, if_pos hkey, List.find?_cons_of_neg (by simpa using hnot), List.find?_nil,
          Option.or_none]
      · rw [if_neg hkey, if_neg hkey]

/-- What is found first is the same in every order, when all that could be found is. -/
theorem find_eq_of_perm {α β : Type} {p : α → Bool} {f : α → β} {xs ys : List α} (h : xs.Perm ys)
    (hsame : ∀ x ∈ xs, ∀ y ∈ xs, p x = true → p y = true → f x = f y) :
    (xs.find? p).map f = (ys.find? p).map f := by
  cases hxs : xs.find? p with
  | none =>
    have hys : ys.find? p = none := by
      rw [List.find?_eq_none] at hxs ⊢
      exact fun y hy => hxs y (h.mem_iff.2 hy)
    rw [hys]
  | some x =>
    cases hys : ys.find? p with
    | none =>
      rw [List.find?_eq_none] at hys
      exact absurd (List.find?_some hxs) (hys x (h.mem_iff.1 (List.mem_of_find?_eq_some hxs)))
    | some y =>
      rw [Option.map_some, Option.map_some]
      exact congrArg some (hsame x (List.mem_of_find?_eq_some hxs) y
        (h.mem_iff.2 (List.mem_of_find?_eq_some hys)) (List.find?_some hxs) (List.find?_some hys))

def normalCosts (provider : Rule) : HashMap RuleCostConfig :=
  (normalizeProviderForStorage id provider).modelCosts

theorem normalize_eq (order : HashMap RuleCostConfig → HashMap RuleCostConfig) (provider : Rule) :
    normalizeProviderForStorage order provider =
      { provider with modelCosts := order (normalCosts provider) } := rfl

theorem normalCosts_eq (provider : Rule) :
    normalCosts provider =
      if (declaredCosts provider.models provider.modelCosts).isEmpty ∧
          isMeaningfullyConfiguredLegacyCost provider.cost then
        legacyCosts provider.models provider.cost
      else declaredCosts provider.models provider.modelCosts := rfl

variable {rule rule' : Rule}

theorem declaredCosts_sameAs (h : rule.SameAs rule') (hagree : rule.CostsAgree) :
    (declaredCosts rule.models rule.modelCosts).SameAs
      (declaredCosts rule'.models rule'.modelCosts) := by
  refine HashMap.sameAs_iff.2 fun key => ?_
  rw [get_declaredCosts, get_declaredCosts, ← h.models_eq]
  by_cases hkey : key ∈ validModels rule.models
  · rw [if_pos hkey, if_pos hkey]
    refine find_eq_of_perm h.modelCosts fun entry hentry entry' hentry' hfst hfst' => ?_
    rw [decide_eq_true_eq] at hfst hfst'
    exact (hagree entry hentry entry' hentry' (hfst ▸ hkey) (hfst'.trans hfst.symm)).symm
  · rw [if_neg hkey, if_neg hkey]

theorem Rule.SameAs.cost_eq (h : rule.SameAs rule') : rule.cost = rule'.cost := by
  have hcost := congrArg Rule.cost h.rest
  exact hcost

theorem normalCosts_sameAs (h : rule.SameAs rule') (hagree : rule.CostsAgree) :
    (normalCosts rule).SameAs (normalCosts rule') := by
  have hdeclared := declaredCosts_sameAs h hagree
  have hempty : (declaredCosts rule.models rule.modelCosts).isEmpty =
      (declaredCosts rule'.models rule'.modelCosts).isEmpty := List.Perm.isEmpty_eq hdeclared
  rw [normalCosts_eq, normalCosts_eq, hempty, h.cost_eq]
  split_ifs
  · rw [h.models_eq]
    exact .refl _
  · exact hdeclared

theorem get_normalCosts_of_first {entry : String × RuleCostConfig}
    {rest : List (String × RuleCostConfig)} (hfirst : rule.modelCosts.entries = entry :: rest)
    (hvalid : trimmed entry.1 ∈ validModels rule.models) :
    (normalCosts rule).get (trimmed entry.1) = some entry.2 := by
  have hget : (declaredCosts rule.models rule.modelCosts).get (trimmed entry.1) =
      some entry.2 := by
    have hfound : (entry :: rest).find? (fun other => trimmed other.1 = trimmed entry.1) =
        some entry := List.find?_cons_of_pos (decide_eq_true rfl)
    rw [get_declaredCosts, if_pos hvalid, hfirst, hfound]
    rfl
  have hentries := HashMap.get_eq_some_iff.1 hget
  have hempty : (declaredCosts rule.models rule.modelCosts).isEmpty = false := by
    rw [HashMap.isEmpty, List.isEmpty_eq_false_iff]
    exact List.ne_nil_of_mem hentries
  rw [normalCosts_eq, hempty, if_neg (fun h => Bool.false_ne_true h.1), hget]

/-! ### Normal forms -/

def Rule.HasForm (provider normal : Rule) : Prop :=
  ∃ (rule : Rule) (order : HashMap RuleCostConfig → HashMap RuleCostConfig),
    rule.SameAs provider ∧ (∀ costs, (order costs).SameAs costs) ∧
      normalizeProviderForStorage order rule = normal

section Forms

variable {provider normal : Rule} {order order' : HashMap RuleCostConfig → HashMap RuleCostConfig}

variable {rule : Rule}

theorem hasForm_normalize (h : rule.SameAs provider)
    (horder : ∀ costs, (order costs).SameAs costs) :
    provider.HasForm (normalizeProviderForStorage order rule) := ⟨rule, order, h, horder, rfl⟩

theorem Rule.HasForm.of_sameAs (h : rule.SameAs provider) (hform : provider.HasForm normal) :
    rule.HasForm normal := by
  obtain ⟨other, order, hsame, horder, heq⟩ := hform
  exact ⟨other, order, hsame.trans h.symm, horder, heq⟩

theorem normalize_sameAs (hagree : provider.CostsAgree) (h : provider.SameAs rule)
    (horder : ∀ costs, (order costs).SameAs costs)
    (horder' : ∀ costs, (order' costs).SameAs costs) :
    (normalizeProviderForStorage order provider).SameAs
      (normalizeProviderForStorage order' rule) where
  rest := h.rest
  modelMappings := h.modelMappings
  customHeaders := h.customHeaders
  modelCosts := ((horder _).trans (normalCosts_sameAs h hagree)).trans (horder' _).symm

theorem exists_form_of_cost {entry : String × RuleCostConfig}
    (hmem : entry ∈ provider.modelCosts.entries)
    (hvalid : trimmed entry.1 ∈ validModels provider.models) :
    ∃ other, provider.HasForm other ∧ other.modelCosts.get (trimmed entry.1) = some entry.2 := by
  obtain ⟨costs, rest, hsame, hfirst⟩ := HashMap.exists_sameAs_cons hmem
  have hreordered : Rule.SameAs { provider with modelCosts := costs } provider :=
    { Rule.SameAs.refl provider with rest := rfl, modelCosts := hsame }
  exact ⟨_, hasForm_normalize hreordered fun _ => .refl _,
    get_normalCosts_of_first hfirst hvalid⟩

theorem costsAgree_iff (hnormal : provider.HasForm normal) :
    provider.CostsAgree ↔ ∀ other, provider.HasForm other → normal.SameAs other := by
  constructor
  · obtain ⟨rule, order, hsame, horder, rfl⟩ := hnormal
    rintro hagree _ ⟨rule', order', hsame', horder', rfl⟩
    have hleft := normalize_sameAs hagree hsame.symm horder horder
    exact hleft.symm.trans (normalize_sameAs hagree hsame'.symm horder horder')
  · intro h entry hentry entry' hentry' hvalid hkey
    obtain ⟨other, hother, hget⟩ := exists_form_of_cost hentry hvalid
    obtain ⟨other', hother', hget'⟩ := exists_form_of_cost hentry' (hkey ▸ hvalid)
    have hsame := HashMap.sameAs_iff.1 ((h other hother).symm.trans (h other' hother')).modelCosts
    rw [hkey] at hget'
    have hcosts := hsame (trimmed entry.1)
    rw [hget, hget', Option.some_inj] at hcosts
    exact hcosts.symm

/-! ### Providers with one order -/

/-- Every hash map of the provider has at most one entry. -/
structure Rule.HasSingleMaps (rule : Rule) : Prop where
  modelMappings : ∀ mappings ∈ rule.modelMappings, mappings.entries.length ≤ 1
  customHeaders : rule.quota.customHeaders.entries.length ≤ 1
  modelCosts : rule.modelCosts.entries.length ≤ 1

/-- A provider whose maps have at most one entry is the only one with its content. -/
theorem Rule.SameAs.eq_of_hasSingleMaps {rule' : Rule} (h : rule.SameAs rule')
    (hsingle : rule.HasSingleMaps) : rule = rule' := by
  have hmappings : rule.modelMappings = rule'.modelMappings := by
    have hrel := h.modelMappings
    have hlengths := hsingle.modelMappings
    generalize rule.modelMappings = mappings at hrel hlengths ⊢
    generalize rule'.modelMappings = mappings' at hrel ⊢
    cases hrel with
    | none => rfl
    | some hsame => rw [hsame.eq_of_length_le_one (hlengths _ rfl)]
  have hheaders := h.customHeaders.eq_of_length_le_one hsingle.customHeaders
  have hcosts := h.modelCosts.eq_of_length_le_one hsingle.modelCosts
  have hrebuilt : ∀ rule : Rule, rule = { rule.withoutMaps with
      modelMappings := rule.modelMappings
      quota := { rule.withoutMaps.quota with customHeaders := rule.quota.customHeaders }
      modelCosts := rule.modelCosts } := fun _ => rfl
  rw [hrebuilt rule, h.rest, hmappings, hheaders, hcosts, ← hrebuilt rule']

theorem hasSingleMaps_of_forms {existing : Rule}
    (h : ∀ normal, provider.HasForm normal → existing = normal) : existing.HasSingleMaps := by
  have hself := h _ (hasForm_normalize (Rule.SameAs.refl provider) fun _ => .refl _)
  refine ⟨fun mappings hmem => ?_, ?_, ?_⟩
  · have hgiven : provider.modelMappings = some mappings := by
      rw [hself] at hmem
      exact hmem
    have hsame : Rule.SameAs { provider with modelMappings := some mappings.reverse } provider := by
      refine { Rule.SameAs.refl provider with rest := rfl, modelMappings := ?_ }
      rw [hgiven]
      exact .some mappings.reverse_sameAs
    have hother := congrArg Rule.modelMappings (h _ (hasForm_normalize hsame fun _ => .refl _))
    rw [show existing.modelMappings = some mappings from hmem] at hother
    exact HashMap.length_le_one_of_reverse (Option.some_inj.1 hother).symm
  · have hsame : Rule.SameAs { provider with
        quota := { provider.quota with
          customHeaders := provider.quota.customHeaders.reverse } } provider :=
      { Rule.SameAs.refl provider with
        rest := rfl, customHeaders := provider.quota.customHeaders.reverse_sameAs }
    have hother := congrArg Rule.quota (h _ (hasForm_normalize hsame fun _ => .refl _))
    rw [hself] at hother ⊢
    exact HashMap.length_le_one_of_reverse (congrArg RuleQuotaConfig.customHeaders hother).symm
  · have hother := congrArg Rule.modelCosts
      (h _ (hasForm_normalize (Rule.SameAs.refl provider) fun costs => costs.reverse_sameAs))
    rw [hself] at hother ⊢
    exact HashMap.length_le_one_of_reverse hother.symm

end Forms

end AiOpenRouter
