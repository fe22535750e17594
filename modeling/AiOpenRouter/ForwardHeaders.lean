/-
The headers sent upstream (`build_forward_headers`).

Headers of the client pass unless their name is on the deny list or hard-blocked;
`anthropic-version` passes under its own rule.  The headers of the provider come
last and replace what passed.

* `forwardHeader` is one turn of the loop over the client's headers;
* `get_buildForwardHeaders` says what is sent under each name;
* `credentialsWithheld`: what is sent does not depend on hard-blocked or denied
  headers; hard-blocked headers, credentials among them, are the provider's own.
-/
import AiOpenRouter.Routing
import Mathlib.Data.List.Induction

namespace AiOpenRouter

/-! ### The client's headers -/

/-- A header of the client: its name and the bytes of one value. -/
abbrev Header := String × List UInt8

/-- `HeaderValue::to_str`: visible ASCII and tabs only. -/
def headerValueToStr (value : List UInt8) : Option String :=
  if value.all fun b => (32 ≤ b && b < 127) || b = 9 then
    some (String.ofList (value.map fun b => Char.ofNat b.toNat))
  else none

def usableValue (value : List UInt8) : Option String :=
  ((headerValueToStr value).map trimmed).filter (· ≠ "")

/-- `normalize_header_name`. -/
def normalizeHeaderName (value : String) : String :=
  String.ofList ((trimmed value).toList.map Char.toLower)

/-- `normalized_header_set`. -/
def normalizedHeaderSet (values : List String) : List String :=
  (values.map normalizeHeaderName).filter (· ≠ "")

def hardBlockedNames : List String :=
  ["accept", "accept-encoding", "anthropic-beta", "anthropic-dangerous-direct-browser-access",
    "api-key", "authorization", "connection", "content-encoding", "content-length", "cookie",
    "forwarded", "host", "keep-alive", "openai-organization", "openai-project", "origin",
    "proxy-authorization", "proxy-connection", "referer", "set-cookie", "te", "trailer",
    "transfer-encoding", "upgrade", "via", "x-api-key", "x-real-ip"]

/-- `is_hard_blocked_passthrough_header`. -/
def isHardBlockedPassthroughHeader (name : String) : Bool :=
  name ∈ hardBlockedNames || "cf-".toList.isPrefixOf name.toList
    || "sec-".toList.isPrefixOf name.toList || "x-forwarded-".toList.isPrefixOf name.toList

/-! ### The version header -/

/-- `EntryProtocol`. -/
inductive EntryProtocol where
  | openai
  | anthropic
  deriving DecidableEq

/-- `is_valid_anthropic_version`. -/
def isValidAnthropicVersion (value : String) : Bool :=
  let cs := value.toList
  cs.length = 10 && cs.zipIdx.all fun c =>
    if c.2 = 4 ∨ c.2 = 7 then c.1 = '-' else c.1.isDigit

/-- `should_passthrough_anthropic_version`. -/
def shouldPassthroughAnthropicVersion (entryProtocol : EntryProtocol)
    (targetProtocol : RuleProtocol) (allowSet : List String) (value : String) : Bool :=
  entryProtocol = .anthropic && targetProtocol = .anthropic && "anthropic-version" ∈ allowSet
    && isValidAnthropicVersion value

/-! ### The headers of the provider -/

/-- `build_rule_headers`. -/
def buildRuleHeaders (protocol : RuleProtocol) (rule : Rule) : HashMap String :=
  let headers := HashMap.empty.insert "content-type" "application/json"
  match protocol with
  | .anthropic =>
    (headers.insert "x-api-key" rule.token).insert "anthropic-version" "2023-06-01"
  | .openai | .openaiCompletion => headers.insert "authorization" ("Bearer " ++ rule.token)

/-! ### What is sent -/

/-- A request on its way: the protocols and the provider. -/
structure Passthrough where
  entryProtocol : EntryProtocol
  targetProtocol : RuleProtocol
  rule : Rule

namespace Passthrough

def denySet (p : Passthrough) : List String := normalizedHeaderSet p.rule.headerPassthroughDeny

def allowSet (p : Passthrough) : List String := normalizedHeaderSet p.rule.headerPassthroughAllow

def versionPasses (p : Passthrough) (value : String) : Bool :=
  shouldPassthroughAnthropicVersion p.entryProtocol p.targetProtocol p.allowSet value

/-- What the loop over the client's headers has collected. -/
structure Collected where
  forwarded : HashMap String := HashMap.empty
  version : Option String := none

def forwardHeader (p : Passthrough) (st : Collected) (header : Header) : Collected :=
  let name := normalizeHeaderName header.1
  if name = "" ∨ name ∈ p.denySet then st
  else
    match usableValue header.2 with
    | none => st
    | some value =>
      if name = "anthropic-version" then
        if p.versionPasses value then { st with version := some value } else st
      else if isHardBlockedPassthroughHeader name then st
      else { st with forwarded := st.forwarded.insert name value }

end Passthrough

/-- `build_forward_headers`. -/
def buildForwardHeaders (p : Passthrough) (downstreamHeaders : List Header)
    (headerPassthroughEnabled : Bool) : HashMap String :=
  let st : Passthrough.Collected :=
    if headerPassthroughEnabled then downstreamHeaders.foldl p.forwardHeader {} else {}
  let ruleHeaders := buildRuleHeaders p.targetProtocol p.rule
  let ruleHeaders := (st.version.map (ruleHeaders.insert "anthropic-version")).getD ruleHeaders
  st.forwarded.extend ruleHeaders

/-! ### What passes -/

def headerValues (headers : List Header) (name : String) : List (List UInt8) :=
  headers.filterMap fun header => if normalizeHeaderName header.1 = name then some header.2
    else none

namespace Passthrough

def Passes (p : Passthrough) (name : String) : Prop :=
  name ≠ "" ∧ name ∉ p.denySet ∧ name ≠ "anthropic-version" ∧
    isHardBlockedPassthroughHeader name = false

instance (p : Passthrough) (name : String) : Decidable (p.Passes name) :=
  inferInstanceAs (Decidable (_ ∧ _ ∧ _ ∧ _))

def passedValue (p : Passthrough) (headers : List Header) (name : String) : Option String :=
  if p.Passes name then ((headerValues headers name).filterMap usableValue).getLast? else none

def passedVersion (p : Passthrough) (headers : List Header) : Option String :=
  if "anthropic-version" ∈ p.denySet then none
  else
    (((headerValues headers "anthropic-version").filterMap usableValue).filter
      p.versionPasses).getLast?

variable (p : Passthrough)

theorem get_forwardHeader (st : Collected) (header : Header) (name : String) :
    (p.forwardHeader st header).forwarded.get name =
      if p.Passes name ∧ normalizeHeaderName header.1 = name then
        (usableValue header.2).or (st.forwarded.get name)
      else st.forwarded.get name := by
  unfold forwardHeader
  dsimp only
  cases usableValue header.2 with
  | none =>
    rw [Option.none_or, ite_self]
    split_ifs <;> rfl
  | some value =>
    dsimp only
    -- the tests of the source in their order
    by_cases hskip : normalizeHeaderName header.1 = "" ∨ normalizeHeaderName header.1 ∈ p.denySet
    · have hnot : ¬ (p.Passes name ∧ normalizeHeaderName header.1 = name) := by
        rintro ⟨hpasses, rfl⟩
        exact hskip.elim hpasses.1 hpasses.2.1
      rw [if_pos hskip, if_neg hnot]
    rw [if_neg hskip]
    by_cases hversion : normalizeHeaderName header.1 = "anthropic-version"
    · have hnot : ¬ (p.Passes name ∧ normalizeHeaderName header.1 = name) := by
        rintro ⟨hpasses, rfl⟩
        exact hpasses.2.2.1 hversion
      rw [if_pos hversion, if_neg hnot]
      split_ifs <;> rfl
    rw [if_neg hversion]
    by_cases hblocked : isHardBlockedPassthroughHeader (normalizeHeaderName header.1) = true
    · have hnot : ¬ (p.Passes name ∧ normalizeHeaderName header.1 = name) := by
        rintro ⟨hpasses, rfl⟩
        exact Bool.eq_false_iff.1 hpasses.2.2.2 hblocked
      rw [if_pos hblocked, if_neg hnot]
    rw [if_neg hblocked, HashMap.get_insert]
    by_cases hname : normalizeHeaderName header.1 = name
    · rw [not_or] at hskip
      have hpasses : p.Passes name ∧ normalizeHeaderName header.1 = name :=
        ⟨hname ▸ ⟨hskip.1, hskip.2, hversion, Bool.eq_false_iff.2 hblocked⟩, hname⟩
      rw [if_pos hname.symm, if_pos hpasses, Option.some_or]
    · have hnot : ¬ (p.Passes name ∧ normalizeHeaderName header.1 = name) := fun h => hname h.2
      rw [if_neg (Ne.symm hname), if_neg hnot]

theorem version_forwardHeader (st : Collected) (header : Header) :
    (p.forwardHeader st header).version =
      if "anthropic-version" ∉ p.denySet ∧ normalizeHeaderName header.1 = "anthropic-version" then
        ((usableValue header.2).filter p.versionPasses).or st.version
      else st.version := by
  unfold forwardHeader
  dsimp only
  cases usableValue header.2 with
  | none =>
    rw [Option.filter_none, Option.none_or, ite_self]
    split_ifs <;> rfl
  | some value =>
    dsimp only
    by_cases hskip : normalizeHeaderName header.1 = "" ∨ normalizeHeaderName header.1 ∈ p.denySet
    · have hnot : ¬ ("anthropic-version" ∉ p.denySet ∧
          normalizeHeaderName header.1 = "anthropic-version") := by
        rintro ⟨hallowed, hname⟩
        rw [hname] at hskip
        exact hskip.elim (by decide) hallowed
      rw [if_pos hskip, if_neg hnot]
    rw [if_neg hskip]
    by_cases hversion : normalizeHeaderName header.1 = "anthropic-version"
    · have hallowed : "anthropic-version" ∉ p.denySet ∧
          normalizeHeaderName header.1 = "anthropic-version" :=
        ⟨fun h => hskip (.inr (hversion ▸ h)), hversion⟩
      rw [if_pos hversion, if_pos hallowed]
      by_cases hvalid : p.versionPasses value = true
      · rw [if_pos hvalid, Option.filter_some_pos hvalid, Option.some_or]
      · rw [if_neg hvalid, Option.filter_some_neg (Bool.eq_false_iff.2 hvalid), Option.none_or]
    · have hnot : ¬ ("anthropic-version" ∉ p.denySet ∧
          normalizeHeaderName header.1 = "anthropic-version") := fun h => hversion h.2
      rw [if_neg hversion, if_neg hnot]
      split_ifs <;> rfl

theorem headerValues_concat (headers : List Header) (header : Header) (name : String) :
    headerValues (headers ++ [header]) name =
      headerValues headers name ++
        if normalizeHeaderName header.1 = name then [header.2] else [] := by
  rw [headerValues, List.filterMap_append]
  by_cases hname : normalizeHeaderName header.1 = name <;> simp [headerValues, hname]

/-- **What the loop over the client's headers collects.** -/
theorem collected_eq (headers : List Header) :
    (∀ name, (headers.foldl p.forwardHeader {}).forwarded.get name = p.passedValue headers name) ∧
      (headers.foldl p.forwardHeader {}).version = p.passedVersion headers := by
  -- from behind: the last header with a value wins
  induction headers using List.reverseRecOn with
  | nil => simp [passedValue, passedVersion, headerValues]
  | append_singleton headers header ih =>
    obtain ⟨hforwarded, hversion⟩ := ih
    rw [List.foldl_append, List.foldl_cons, List.foldl_nil]
    constructor
    · intro name
      rw [get_forwardHeader, hforwarded]
      unfold passedValue
      rw [headerValues_concat, List.filterMap_append, List.getLast?_append]
      by_cases hpasses : p.Passes name
      · by_cases hname : normalizeHeaderName header.1 = name
        · rw [if_pos ⟨hpasses, hname⟩, if_pos hpasses, if_pos hpasses, if_pos hname]
          cases hvalue : usableValue header.2 <;> simp [hvalue]
        · have hnot : ¬ (p.Passes name ∧ normalizeHeaderName header.1 = name) := fun h => hname h.2
          rw [if_neg hnot, if_pos hpasses, if_pos hpasses, if_neg hname]
          rfl
      · have hnot : ¬ (p.Passes name ∧ normalizeHeaderName header.1 = name) :=
          fun h => hpasses h.1
        rw [if_neg hnot, if_neg hpasses, if_neg hpasses]
    · rw [version_forwardHeader, hversion]
      unfold passedVersion
      rw [headerValues_concat, List.filterMap_append, List.filter_append, List.getLast?_append]
      by_cases hdenied : "anthropic-version" ∈ p.denySet
      · have hnot : ¬ ("anthropic-version" ∉ p.denySet ∧
            normalizeHeaderName header.1 = "anthropic-version") := fun h => h.1 hdenied
        rw [if_neg hnot, if_pos hdenied, if_pos hdenied]
      · by_cases hname : normalizeHeaderName header.1 = "anthropic-version"
        · rw [if_pos ⟨hdenied, hname⟩, if_neg hdenied, if_neg hdenied, if_pos hname]
          cases hvalue : usableValue header.2 with
          | none => simp [hvalue]
          | some value =>
            by_cases hvalid : p.versionPasses value = true
            · simp [hvalue, hvalid]
            · rw [Option.filter_some_neg (Bool.eq_false_iff.2 hvalid)]
              simp [hvalue, hvalid]
        · have hnot : ¬ ("anthropic-version" ∉ p.denySet ∧
              normalizeHeaderName header.1 = "anthropic-version") := fun h => hname h.2
          rw [if_neg hnot, if_neg hdenied, if_neg hdenied, if_neg hname]
          rfl

end Passthrough

/-! ### What is sent -/

/-- **What is sent under each name**: the header of the provider, or what passed. -/
theorem get_buildForwardHeaders (p : Passthrough) (headers : List Header) (name : String) :
    (buildForwardHeaders p headers true).get name =
      (if name = "anthropic-version" then
          (p.passedVersion headers).or ((buildRuleHeaders p.targetProtocol p.rule).get name)
        else (buildRuleHeaders p.targetProtocol p.rule).get name).or
        (p.passedValue headers name) := by
  obtain ⟨hforwarded, hversion⟩ := p.collected_eq headers
  unfold buildForwardHeaders
  dsimp only
  rw [if_pos rfl, HashMap.get_extend, hforwarded, hversion]
  cases p.passedVersion headers with
  | none => simp
  | some version =>
    rw [Option.map_some, Option.getD_some, HashMap.get_insert, Option.some_or]

theorem get_buildForwardHeaders_off (p : Passthrough) (headers : List Header) (name : String) :
    (buildForwardHeaders p headers false).get name =
      (buildRuleHeaders p.targetProtocol p.rule).get name := by
  unfold buildForwardHeaders
  dsimp only
  rw [if_neg Bool.false_ne_true, HashMap.get_extend]
  exact Option.or_none

/-- Two lists of headers with the same values under every name that is neither hard-blocked nor
denied. -/
def DifferInWithheld (p : Passthrough) (headers headers' : List Header) : Prop :=
  ∀ name, isHardBlockedPassthroughHeader name = false → name ∉ p.denySet →
    headerValues headers name = headerValues headers' name

/-- The headers that carry credentials. -/
def credentialNames : List String :=
  ["authorization", "x-api-key", "api-key", "cookie", "proxy-authorization"]

theorem isHardBlocked_of_mem_credentialNames {name : String} (h : name ∈ credentialNames) :
    isHardBlockedPassthroughHeader name = true := by
  revert name
  decide

theorem get_buildForwardHeaders_of_hardBlocked (p : Passthrough) (headers : List Header)
    (headerPassthroughEnabled : Bool) {name : String}
    (hblocked : isHardBlockedPassthroughHeader name = true) :
    (buildForwardHeaders p headers headerPassthroughEnabled).get name =
      (buildRuleHeaders p.targetProtocol p.rule).get name := by
  cases headerPassthroughEnabled with
  | false => exact get_buildForwardHeaders_off p headers name
  | true =>
    have hpasses : ¬ p.Passes name := fun hpasses =>
      Bool.eq_false_iff.1 hpasses.2.2.2 hblocked
    -- The version header has its own way through, and is not hard-blocked.
    have hversion : ¬ name = "anthropic-version" := by
      rintro rfl
      revert hblocked
      decide
    rw [get_buildForwardHeaders, if_neg hversion, Passthrough.passedValue, if_neg hpasses,
      Option.or_none]

/-- **What is sent does not depend on the hard-blocked and the denied headers of the client; under
every hard-blocked name, and so under every name of a credential, it is what the provider has.** -/
theorem credentialsWithheld {p : Passthrough} {headers headers' : List Header}
    (headerPassthroughEnabled : Bool) (h : DifferInWithheld p headers headers') :
    (∀ name, (buildForwardHeaders p headers headerPassthroughEnabled).get name =
        (buildForwardHeaders p headers' headerPassthroughEnabled).get name) ∧
      (∀ name, isHardBlockedPassthroughHeader name = true →
        (buildForwardHeaders p headers headerPassthroughEnabled).get name =
          (buildRuleHeaders p.targetProtocol p.rule).get name) ∧
      ∀ name ∈ credentialNames,
        (buildForwardHeaders p headers headerPassthroughEnabled).get name =
          (buildRuleHeaders p.targetProtocol p.rule).get name := by
  refine ⟨?_, fun name => get_buildForwardHeaders_of_hardBlocked p headers _,
    fun name hname => get_buildForwardHeaders_of_hardBlocked p headers _
      (isHardBlocked_of_mem_credentialNames hname)⟩
  cases headerPassthroughEnabled with
  | false => exact fun name => by rw [get_buildForwardHeaders_off, get_buildForwardHeaders_off]
  | true =>
    intro name
    have hvalue : p.passedValue headers name = p.passedValue headers' name := by
      unfold Passthrough.passedValue
      by_cases hpasses : p.Passes name
      · rw [h name hpasses.2.2.2 hpasses.2.1]
      · rw [if_neg hpasses, if_neg hpasses]
    have hversion : p.passedVersion headers = p.passedVersion headers' := by
      unfold Passthrough.passedVersion
      by_cases hdenied : "anthropic-version" ∈ p.denySet
      · rw [if_pos hdenied, if_pos hdenied]
      · rw [h "anthropic-version" (by decide) hdenied]
    rw [get_buildForwardHeaders, get_buildForwardHeaders, hvalue, hversion]

/-- A request of a Claude client to a Claude provider. -/
def samplePassthrough : Passthrough where
  entryProtocol := .anthropic
  targetProtocol := .anthropic
  rule := { sampleProvider "p1" with token := "key" }

theorem credentialsWithheld_bearer :
    (∀ name,
      (buildForwardHeaders samplePassthrough
          [("x-request-id", [114, 49]), ("Authorization", [75])] true).get name =
        (buildForwardHeaders samplePassthrough [("x-request-id", [114, 49])] true).get name) ∧
      (∀ name, isHardBlockedPassthroughHeader name = true →
        (buildForwardHeaders samplePassthrough
            [("x-request-id", [114, 49]), ("Authorization", [75])] true).get name =
          (buildRuleHeaders .anthropic samplePassthrough.rule).get name) ∧
      ∀ name ∈ credentialNames,
        (buildForwardHeaders samplePassthrough
            [("x-request-id", [114, 49]), ("Authorization", [75])] true).get name =
          (buildRuleHeaders .anthropic samplePassthrough.rule).get name := by
  refine credentialsWithheld true fun name hblocked _ => ?_
  have hname : ¬ normalizeHeaderName "Authorization" = name := by
    rintro rfl
    exact absurd hblocked (by decide)
  have hvalues := Passthrough.headerValues_concat [("x-request-id", [114, 49])]
    ("Authorization", [75]) name
  rw [if_neg hname, List.append_nil] at hvalues
  exact hvalues

example : (buildForwardHeaders samplePassthrough
    [("x-request-id", [114, 49]), ("Authorization", [75])] true).entries =
      [("x-request-id", "r1"), ("content-type", "application/json"), ("x-api-key", "key"),
        ("anthropic-version", "2023-06-01")] := rfl

end AiOpenRouter
