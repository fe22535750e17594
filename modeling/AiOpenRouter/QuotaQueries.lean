/-
The request of a quota query (`quota.rs`).

`renderTemplate` replaces its eight placeholders one after another. Header names, header values and
methods are parsed by the `http` crate, which the model takes as functions (`HttpText`).

* `templatePieces_isOwn`: the holes of a template are its placeholders;
* `singlePass_iff`: a template is filled in at once, and nothing but its placeholders is replaced,
  exactly when no other placeholder comes up on the way;
* `prepareQuotaRequest_of_onlyHoles`: then the request is made of templates that are filled in at
  once.
-/
import AiOpenRouter.Routing
import AiOpenRouter.TextTemplates

namespace AiOpenRouter

open TextTemplates

/-! ### Templates -/

inductive TemplateName where
  | groupId
  | groupName
  | ruleId
  | ruleName
  | ruleApiAddress
  | ruleDefaultModel
  | ruleToken
  | quotaToken
  deriving DecidableEq

def Rule.resolvedToken (rule : Rule) : String :=
  if rule.quota.useRuleToken then rule.token else rule.quota.customToken

namespace TemplateName

def placeholder : TemplateName → String
  | groupId => "\x7b\x7bgroup.id\x7d\x7d"
  | groupName => "\x7b\x7bgroup.name\x7d\x7d"
  | ruleId => "\x7b\x7brule.id\x7d\x7d"
  | ruleName => "\x7b\x7brule.name\x7d\x7d"
  | ruleApiAddress => "\x7b\x7brule.apiAddress\x7d\x7d"
  | ruleDefaultModel => "\x7b\x7brule.defaultModel\x7d\x7d"
  | ruleToken => "\x7b\x7brule.token\x7d\x7d"
  | quotaToken => "\x7b\x7bquota.token\x7d\x7d"

/-- What stands for a name. -/
def value (group : Group) (rule : Rule) : TemplateName → String
  | groupId => group.id
  | groupName => group.name
  | ruleId => rule.id
  | ruleName => rule.name
  | ruleApiAddress => rule.apiAddress
  | ruleDefaultModel => rule.defaultModel.getD ""
  | ruleToken => rule.token
  | quotaToken => rule.resolvedToken

end TemplateName

def templateNames : List TemplateName :=
  [.groupId, .groupName, .ruleId, .ruleName, .ruleApiAddress, .ruleDefaultModel, .ruleToken,
    .quotaToken]

def placeholderText (name : TemplateName) : List Char := name.placeholder.toList

def valueText (group : Group) (rule : Rule) (name : TemplateName) : List Char :=
  (name.value group rule).toList

/-- `render_template`: one `replace` after another. -/
def renderTemplate (group : Group) (rule : Rule) (raw : String) : String :=
  String.ofList (replaceAll placeholderText (valueText group rule) templateNames raw.toList)

/-! ### Filled in at once -/

def templatePieces (raw : String) : List (Piece Char TemplateName) :=
  pieces placeholderText templateNames 0 raw.toList

/-- A template with the values in place of its placeholders. -/
def substituteTemplate (group : Group) (rule : Rule) (raw : String) : String :=
  String.ofList (textOf (valueText group rule) (templatePieces raw))

/-- What is replaced for each name is placeholders of the template. -/
def ReplacesOnlyHoles (group : Group) (rule : Rule) (raw : String) : Prop :=
  EachOwn placeholderText (valueText group rule) templateNames (templatePieces raw)
    fun done => replaceAll placeholderText (valueText group rule) done raw.toList

/-- With the names before it filled in at once, each name stands only at placeholders of the
template. -/
def OnlyHoles (group : Group) (rule : Rule) (raw : String) : Prop :=
  EachOwn placeholderText (valueText group rule) templateNames (templatePieces raw)
    fun done => textOf (filled placeholderText (valueText group rule) done) (templatePieces raw)

variable (name : TemplateName)

theorem placeholderText_ne_nil : placeholderText name ≠ [] := by
  cases name <;> decide

theorem separate_placeholderText : Separate placeholderText templateNames := by
  unfold Separate
  decide +kernel

theorem mem_templateNames : name ∈ templateNames := by
  cases name <;> decide

theorem templatePieces_isOwn (raw : String) :
    IsOwn placeholderText (templatePieces raw) name (placeholderText name) raw.toList :=
  isOwn_pieces (fun name _ => placeholderText_ne_nil name) separate_placeholderText
    (mem_templateNames name) raw.toList

theorem replaceAll_templateNames_iff (group : Group) (rule : Rule) (raw : String) :
    (replaceAll placeholderText (valueText group rule) templateNames raw.toList =
          textOf (valueText group rule) (templatePieces raw) ∧
        ReplacesOnlyHoles group rule raw) ↔ OnlyHoles group rule raw :=
  replaceAll_iff (fun name _ => placeholderText_ne_nil name) (by decide) raw.toList

theorem renderTemplate_of_onlyHoles {group : Group} {rule : Rule} {raw : String}
    (h : OnlyHoles group rule raw) :
    renderTemplate group rule raw = substituteTemplate group rule raw :=
  congrArg String.ofList ((replaceAll_templateNames_iff group rule raw).2 h).1

/-- **A template is filled in in one pass**, and nothing but its placeholders is replaced, exactly
when no other placeholder comes up on the way. -/
theorem singlePass_iff (group : Group) (rule : Rule) (raw : String) :
    (renderTemplate group rule raw = substituteTemplate group rule raw ∧
        ReplacesOnlyHoles group rule raw) ↔ OnlyHoles group rule raw := by
  rw [renderTemplate, substituteTemplate, String.ofList_inj]
  exact replaceAll_templateNames_iff group rule raw

/-- A group whose name is a placeholder. -/
def tokenGroup : Group where
  id := "dev"
  name := "\x7b\x7brule.token\x7d\x7d"
  routingTable := []
  models := none
  providerIds := none
  activeProviderId := none
  providers := none
  failover := none

def secretRule : Rule := { blankRule with token := "secret" }

/-- The name pulls the token into the text. -/
theorem renderTemplate_tokenGroup :
    renderTemplate tokenGroup secretRule "\x7b\x7bgroup.name\x7d\x7d" = "secret" ∧
      substituteTemplate tokenGroup secretRule "\x7b\x7bgroup.name\x7d\x7d" =
        "\x7b\x7brule.token\x7d\x7d" := by
  decide +kernel

/-! ### The request -/

/-- What the `http` crate parses: a header name comes in lower case. -/
structure HttpText where
  headerName : String → Option String
  headerValue : String → Option String
  method : String → Option String

/-- `ok_or_else` with a message. -/
def okOr {α : Type} (value : Option α) (message : String) : Except String α :=
  value.elim (.error message) .ok

/-- `HeaderMap`, by the name of a header. -/
abbrev HeaderMap := String → Option String

/-- `normalize_method_name`. -/
def normalizeMethodName (method : String) : String :=
  if trimmed method = "" then "GET"
  else String.ofList ((trimmed method).toList.map Char.toUpper)

section

variable (http : HttpText) (group : Group) (rule : Rule) (render : String → String)

def insertCustomHeader (headers : HeaderMap) (entry : String × String) :
    Except String HeaderMap := do
  let name ← okOr (http.headerName (trimmed entry.1)) ("invalid quota header name: " ++ entry.1)
  let value ← okOr (http.headerValue (trimmed (render entry.2)))
    ("invalid quota header value for " ++ entry.1)
  return Function.update headers name (some value)

def Rule.credential (rule : Rule) : String :=
  if trimmed rule.quota.authScheme = "" then trimmed rule.resolvedToken
  else trimmed rule.quota.authScheme ++ " " ++ trimmed rule.resolvedToken

def insertCredential (headers : HeaderMap) : Except String HeaderMap :=
  if trimmed rule.quota.authHeader ≠ "" ∧ trimmed rule.resolvedToken ≠ "" then do
    let name ← okOr (http.headerName (trimmed rule.quota.authHeader))
      ("invalid auth header name: " ++ trimmed rule.quota.authHeader)
    if (headers name).isSome then return headers
    else
      let value ← okOr (http.headerValue (trimmed rule.credential)) "invalid auth header value"
      return Function.update headers name (some value)
  else return headers

/-- `build_headers`, with what renders a template. -/
def buildHeaders : Except String HeaderMap := do
  let headers ← rule.quota.customHeaders.entries.foldlM (insertCustomHeader http render)
    fun _ => none
  insertCredential http rule headers

structure QuotaRequest where
  endpoint : String
  method : String
  headers : HeaderMap

/-- `fetch_single_rule_quota` up to the sending, with what renders a template: the request, or the
message of the snapshot. -/
def requestRendered : Except String QuotaRequest :=
  if rule.quota.enabled then
    if trimmed (render rule.quota.endpoint) = "" then .error "quota endpoint is empty"
    else do
      let method ← okOr (http.method (normalizeMethodName rule.quota.method))
        ("invalid quota method: " ++ normalizeMethodName rule.quota.method)
      let headers ← buildHeaders http rule render
      return ⟨render rule.quota.endpoint, method, headers⟩
  else .error "quota query disabled"

def prepareQuotaRequest : Except String QuotaRequest :=
  requestRendered http rule (renderTemplate group rule)

variable {http group rule render}

def Rule.templates (rule : Rule) : List String :=
  rule.quota.endpoint :: rule.quota.customHeaders.entries.map Prod.snd

theorem foldlM_insertCustomHeader_congr {other : String → String} (entries : List (String × String))
    (h : ∀ entry ∈ entries, render entry.2 = other entry.2) (headers : HeaderMap) :
    entries.foldlM (insertCustomHeader http render) headers =
      entries.foldlM (insertCustomHeader http other) headers := by
  induction entries generalizing headers with
  | nil => rfl
  | cons entry entries ih =>
    have hentry : insertCustomHeader http render headers entry =
        insertCustomHeader http other headers entry := by
      rw [insertCustomHeader, h entry List.mem_cons_self]
      rfl
    rw [List.foldlM_cons, List.foldlM_cons, hentry]
    exact bind_congr fun next => ih (fun e he => h e (List.mem_cons_of_mem entry he)) next

theorem requestRendered_congr {other : String → String}
    (h : ∀ template ∈ rule.templates, render template = other template) :
    requestRendered http rule render = requestRendered http rule other := by
  have hendpoint := h rule.quota.endpoint List.mem_cons_self
  have hheaders : buildHeaders http rule render = buildHeaders http rule other := by
    rw [buildHeaders, foldlM_insertCustomHeader_congr _ fun entry hentry =>
      h entry.2 (List.mem_cons_of_mem _ (List.mem_map_of_mem hentry))]
    rfl
  rw [requestRendered, requestRendered, hendpoint, hheaders]

/-- **The request has the values where the templates have the placeholders**, when no other
placeholder comes up in one of them. -/
theorem prepareQuotaRequest_of_onlyHoles
    (h : ∀ template ∈ rule.templates, OnlyHoles group rule template) :
    prepareQuotaRequest http group rule =
      requestRendered http rule (substituteTemplate group rule) :=
  requestRendered_congr fun template htemplate => renderTemplate_of_onlyHoles (h template htemplate)

end

end AiOpenRouter
