/-
The live counters (`MetricsState`) beside the request log.

The requests of a run are interleaved in any way: the counters are atomic, and every request has a
trace id of its own. The counters are `u64` and wrap.

* `Accounts` says what the effects of one request count and log, and what they miss
  (`accounts_handleProxyRequest`);
* `countersAgree_iff`: the counters agree with the answers and with the log just if nothing is
  missed: no request was oversized, and no error of the upstream came with a usage.
-/
import AiOpenRouter.Interleavings
import AiOpenRouter.ProxyPipeline
import Mathlib.Algebra.Group.Prod
import Mathlib.Data.BitVec

namespace AiOpenRouter

/-! ### The counters -/

abbrev TokenCounts := BitVec 64 × BitVec 64 × BitVec 64 × BitVec 64

def TokenUsage.counts (usage : TokenUsage) : TokenCounts :=
  (.ofNat 64 usage.inputTokens, .ofNat 64 usage.outputTokens, .ofNat 64 usage.cacheReadTokens,
    .ofNat 64 usage.cacheWriteTokens)

def usageCounts (usage : Option TokenUsage) : TokenCounts := (usage.map TokenUsage.counts).getD 0

/-- `MetricsState`, without its start of uptime. -/
structure MetricsState where
  requests : BitVec 64
  streamRequests : BitVec 64
  errors : BitVec 64
  totalLatencyMs : BitVec 64
  inputTokens : BitVec 64
  outputTokens : BitVec 64
  cacheReadTokens : BitVec 64
  cacheWriteTokens : BitVec 64

namespace MetricsState

/-- What an effect does to the counters. -/
def apply (metrics : MetricsState) : PipelineEffect → MetricsState
  | .incrementRequest stream =>
    { metrics with
      requests := metrics.requests + 1
      streamRequests := if stream then metrics.streamRequests + 1 else metrics.streamRequests }
  | .incrementError => { metrics with errors := metrics.errors + 1 }
  | .addLatency elapsedMs =>
    { metrics with totalLatencyMs := metrics.totalLatencyMs + .ofNat 64 elapsedMs }
  | .addTokenUsage usage =>
    { metrics with
      inputTokens := metrics.inputTokens + .ofNat 64 usage.inputTokens
      outputTokens := metrics.outputTokens + .ofNat 64 usage.outputTokens
      cacheReadTokens := metrics.cacheReadTokens + .ofNat 64 usage.cacheReadTokens
      cacheWriteTokens := metrics.cacheWriteTokens + .ofNat 64 usage.cacheWriteTokens }
  | _ => metrics

/-- The counters behind some effects. -/
def run (metrics : MetricsState) (effects : List PipelineEffect) : MetricsState :=
  effects.foldl apply metrics

def tokens (metrics : MetricsState) : TokenCounts :=
  (metrics.inputTokens, metrics.outputTokens, metrics.cacheReadTokens, metrics.cacheWriteTokens)

end MetricsState

namespace PipelineEffect

def errors : PipelineEffect → BitVec 64
  | incrementError => 1
  | _ => 0

def added : PipelineEffect → TokenCounts
  | addTokenUsage usage => usage.counts
  | _ => 0

def finalized : PipelineEffect → Option FinalLog
  | finalizeLog entry => some entry
  | _ => none

/-- The usage of that entry. -/
def logged (effect : PipelineEffect) : TokenCounts :=
  usageCounts (effect.finalized.bind FinalLog.tokenUsage)

/-- An effect is a `finalize_log` with the trace id. -/
def finalizes (traceId : String) (effect : PipelineEffect) : Bool :=
  effect.finalized.any (·.traceId = traceId)

def isFailure : PipelineEffect → Bool
  | answer reply => decide (400 ≤ reply.status)
  | streamEnd failed => failed
  | _ => false

end PipelineEffect

/-- A request was answered with 400 or above, or its stream failed. -/
def Failed (effects : List PipelineEffect) : Bool := effects.any PipelineEffect.isFailure

/-- The counters agree with the answers to some requests and with the finalised log. -/
structure CountersAgree (env : Env) (before : MetricsState) (calls : List ProxyCall)
    (effects : List PipelineEffect) : Prop where
  errors : (before.run effects).errors = before.errors +
    .ofNat 64 (calls.countP fun call => Failed (call.handleProxyRequest env))
  tokens : (before.run effects).tokens = before.tokens +
    ((effects.filterMap PipelineEffect.finalized).map fun entry =>
      usageCounts entry.tokenUsage).sum
  logs : ∀ call ∈ calls,
    PipelineEffect.appendProcessingLog call.traceId ∈ call.handleProxyRequest env →
      effects.countP (PipelineEffect.finalizes call.traceId) = 1

/-! ### Sums of effects -/

theorem MetricsState.errors_run (metrics : MetricsState) (effects : List PipelineEffect) :
    (metrics.run effects).errors = metrics.errors + (effects.map PipelineEffect.errors).sum := by
  induction effects generalizing metrics with
  | nil => exact (add_zero metrics.errors).symm
  | cons effect effects ih =>
    have hstep : (metrics.apply effect).errors = metrics.errors + effect.errors := by
      cases effect <;> first | rfl | exact (add_zero metrics.errors).symm
    rw [run, List.foldl_cons, List.map_cons, List.sum_cons, ← add_assoc, ← hstep]
    exact ih _

theorem MetricsState.tokens_run (metrics : MetricsState) (effects : List PipelineEffect) :
    (metrics.run effects).tokens = metrics.tokens + (effects.map PipelineEffect.added).sum := by
  induction effects generalizing metrics with
  | nil => exact (add_zero metrics.tokens).symm
  | cons effect effects ih =>
    have hstep : (metrics.apply effect).tokens = metrics.tokens + effect.added := by
      cases effect <;> first | rfl | exact (add_zero metrics.tokens).symm
    rw [run, List.foldl_cons, List.map_cons, List.sum_cons, ← add_assoc, ← hstep]
    exact ih _

theorem sum_finalized (effects : List PipelineEffect) :
    ((effects.filterMap PipelineEffect.finalized).map fun entry =>
      usageCounts entry.tokenUsage).sum = (effects.map PipelineEffect.logged).sum := by
  induction effects with
  | nil => rfl
  | cons effect effects ih =>
    rw [List.map_cons, List.sum_cons, ← ih]
    cases hentry : effect.finalized with
    | none =>
      rw [List.filterMap_cons_none hentry, PipelineEffect.logged, hentry]
      exact (zero_add _).symm
    | some entry =>
      rw [List.filterMap_cons_some hentry, List.map_cons, List.sum_cons, PipelineEffect.logged,
        hentry]
      rfl

/-! ### One request -/

/-- What the effects of a request count and log, but for some errors and tokens that they miss. -/
structure Accounts (traceId : String) (effects : List PipelineEffect) (uncounted : Bool)
    (missed : TokenCounts) : Prop where
  errors : (effects.map PipelineEffect.errors).sum + (if uncounted then 1 else 0) =
    if Failed effects then 1 else 0
  tokens : (effects.map PipelineEffect.added).sum + missed =
    (effects.map PipelineEffect.logged).sum
  traced : ∀ other, other ≠ traceId → effects.countP (PipelineEffect.finalizes other) = 0
  finalized : PipelineEffect.appendProcessingLog traceId ∈ effects →
    effects.countP (PipelineEffect.finalizes traceId) = 1

namespace ProxyCall

/-- The body is too large, and the request gets as far as its body. -/
def oversized (call : ProxyCall) : Bool := call.admission.isOk && call.body.isTooLarge

/-- The usage that an error of the upstream comes with. -/
def missedUsage (env : Env) (call : ProxyCall) : TokenCounts :=
  match call.prepare, call.upstream with
  | .ok (_, upstreamBody), .answered answer =>
    if readsAsStream (asksStream upstreamBody) answer.contentType = false ∧
        400 ≤ answer.status then
      usageCounts ((answer.text.toOption.bind fun text => (env.fromStr text).toOption).bind
        extractTokenUsage)
    else 0
  | _, _ => 0

variable (call : ProxyCall)

theorem accounts_rejectAndLog {status : ℕ} (hstatus : 400 ≤ status) (code message : String) :
    Accounts call.traceId (call.rejectAndLog status code message) false 0 := by
  rw [rejectAndLog, if_pos hstatus]
  refine ⟨?_, ?_, fun other _ => rfl, fun h => ?_⟩
  · simp [PipelineEffect.errors, Failed, PipelineEffect.isFailure, PipelineAnswer.status, hstatus]
  · rfl
  · simp at h

theorem accounts_fail {status : ℕ} (hstatus : 400 ≤ status) (message : String) :
    Accounts call.traceId (fail status message) false 0 := by
  refine ⟨?_, ?_, fun other _ => rfl, fun h => ?_⟩
  · simp [fail, PipelineEffect.errors, Failed, PipelineEffect.isFailure, PipelineAnswer.status,
      hstatus]
  · rfl
  · simp [fail] at h

theorem accounts_failLogged {status : ℕ} (hstatus : 400 ≤ status) (code message : String)
    (upstreamStatus : Option ℕ) (usage : Option TokenUsage) :
    Accounts call.traceId (call.failLogged status code message upstreamStatus usage) false
      (usageCounts usage) := by
  refine ⟨?_, ?_, fun other hother => ?_, fun h => ?_⟩
  · simp [failLogged, PipelineEffect.errors, Failed, PipelineEffect.isFailure,
      PipelineAnswer.status, hstatus]
  · simp [failLogged, PipelineEffect.added, PipelineEffect.logged, PipelineEffect.finalized,
      usageCounts]
  · simp [failLogged, PipelineEffect.finalizes, PipelineEffect.finalized, Ne.symm hother]
  · simp [failLogged] at h

theorem countP_failLogged (status : ℕ) (code message : String)
    (upstreamStatus : Option ℕ) (usage : Option TokenUsage) :
    (call.failLogged status code message upstreamStatus usage).countP
      (PipelineEffect.finalizes call.traceId) = 1 := by
  simp [failLogged, PipelineEffect.finalizes, PipelineEffect.finalized]

variable {effects : List PipelineEffect} (env : Env)

theorem accounts_of_admission (h : call.admission = .error effects) :
    Accounts call.traceId effects false 0 := by
  unfold admission at h
  split at h
  · cases h
    exact call.accounts_rejectAndLog (by decide) _ _
  split at h
  · cases h
    exact call.accounts_rejectAndLog (by decide) _ _
  split at h
  · cases h
    exact call.accounts_fail (by decide) _
  split at h
  · cases h
    exact call.accounts_fail (by decide) _
  split at h
  · cases h
    exact call.accounts_rejectAndLog (by decide) _ _
  split at h
  · cases h
    exact call.accounts_fail (by decide) _
  split at h
  · cases h
  · cases h
    exact call.accounts_fail (by decide) _
  · cases h
    exact call.accounts_fail (by decide) _
  · cases h
    exact call.accounts_fail (by decide) _

theorem accounts_of_readBody (h : call.readBody = .error effects) :
    Accounts call.traceId effects call.body.isTooLarge 0 := by
  unfold readBody at h
  split at h
  · rename_i hbody
    cases h
    rw [hbody]
    refine ⟨?_, rfl, fun other _ => rfl, fun h => ?_⟩
    · simp [PipelineEffect.errors, Failed, PipelineEffect.isFailure, PipelineAnswer.status,
        RequestBody.isTooLarge]
    · simp at h
  · cases h
  · rename_i hbody
    cases h
    rw [hbody]
    exact call.accounts_fail (by decide) _
  · cases h

theorem accounts_of_resolveRule {route : ActiveRoute} {body : Json}
    (h : call.resolveRule route body = .error effects) : Accounts call.traceId effects false 0 := by
  unfold resolveRule at h
  split at h
  · cases h
    exact call.accounts_fail (by decide) _
  split at h
  · cases h
    exact call.accounts_fail (by decide) _
  split at h
  · rename_i status message hready
    cases h
    unfold assertRuleReady at hready
    split_ifs at hready
    · cases hready
      exact call.accounts_fail (by decide) _
    · cases hready
      exact call.accounts_fail (by decide) _
  · cases h

theorem accounts_of_convert {route : ActiveRoute} {body : Json}
    (h : call.convert route body = .error effects) : Accounts call.traceId effects false 0 := by
  unfold convert at h
  split at h
  · cases h
    exact call.accounts_failLogged (by decide) _ _ _ none
  split at h
  · cases h
    exact call.accounts_failLogged (by decide) _ _ _ none
  split at h
  · cases h
    exact call.accounts_failLogged (by decide) _ _ _ none
  · cases h

/-- The exits before the upstream request miss at most the error of a body that is too large. -/
theorem accounts_of_prepare (h : call.prepare = .error effects) :
    Accounts call.traceId effects call.oversized 0 := by
  unfold prepare at h
  -- each stage may end the call, with its own effects
  cases hadmission : call.admission with
  | error effects' =>
    rw [hadmission] at h
    cases h
    rw [oversized, hadmission]
    exact call.accounts_of_admission hadmission
  | ok route =>
    rw [hadmission] at h
    rw [oversized, hadmission]
    cases hbody : call.readBody with
    | error effects' =>
      rw [hbody] at h
      cases h
      exact call.accounts_of_readBody hbody
    | ok body =>
      have hfits : call.body.isTooLarge = false := by
        cases hcase : call.body with
        | tooLarge =>
          rw [readBody, hcase] at hbody
          cases hbody
        | empty => rfl
        | bytes value => rfl
      rw [hbody] at h
      rw [hfits]
      cases hrule : call.resolveRule route body with
      | error effects' =>
        change (call.resolveRule route body >>= fun route => call.convert route body) = _ at h
        rw [hrule] at h
        cases h
        exact call.accounts_of_resolveRule hrule
      | ok resolved =>
        change (call.resolveRule route body >>= fun route => call.convert route body) = _ at h
        rw [hrule] at h
        exact call.accounts_of_convert h

theorem oversized_of_prepare {prepared : String × Json} (h : call.prepare = .ok prepared) :
    call.oversized = false := by
  cases hbody : call.body with
  | tooLarge =>
    unfold prepare at h
    cases hadmission : call.admission with
    | error effects =>
      rw [hadmission] at h
      cases h
    | ok route =>
      rw [hadmission, readBody, hbody] at h
      cases h
  | empty => simp [oversized, hbody, RequestBody.isTooLarge]
  | bytes value => simp [oversized, hbody, RequestBody.isTooLarge]

theorem accounts_forwardStream (answer : UpstreamAnswer) :
    Accounts call.traceId (call.forwardStream env answer) false 0 ∧
      (call.forwardStream env answer).countP (PipelineEffect.finalizes call.traceId) = 1 := by
  have hcount : ∀ other, (call.forwardStream env answer).countP
      (PipelineEffect.finalizes other) = if call.traceId = other then 1 else 0 := by
    intro other
    unfold forwardStream
    cases streamUsage env answer.consumed <;> cases answer.streamFailed <;>
      by_cases herror : 400 ≤ answer.status <;>
        simp [herror, List.countP_replicate, List.countP_cons, PipelineEffect.finalizes,
          PipelineEffect.finalized]
  refine ⟨⟨?_, ?_, fun other hother => ?_, fun _ => ?_⟩, ?_⟩
  · unfold forwardStream Failed
    cases streamUsage env answer.consumed <;> cases answer.streamFailed <;>
      by_cases herror : 400 ≤ answer.status <;>
        simp [herror, PipelineEffect.errors, PipelineEffect.isFailure, PipelineAnswer.status]
  · unfold forwardStream
    cases streamUsage env answer.consumed <;> cases answer.streamFailed <;>
      by_cases herror : 400 ≤ answer.status <;>
        simp [herror, PipelineEffect.added, PipelineEffect.logged, PipelineEffect.finalized,
          usageCounts]
  · rw [hcount, if_neg hother.symm]
  · rw [hcount, if_pos rfl]
  · rw [hcount, if_pos rfl]

theorem accounts_succeed (upstreamStatus : ℕ) (usage : Option TokenUsage) (body : Json) :
    Accounts call.traceId (call.succeed upstreamStatus usage body) false 0 ∧
      (call.succeed upstreamStatus usage body).countP
        (PipelineEffect.finalizes call.traceId) = 1 := by
  unfold succeed
  refine ⟨⟨?_, ?_, fun other hother => ?_, fun h => ?_⟩, ?_⟩
  · cases usage <;>
      simp [PipelineEffect.errors, Failed, PipelineEffect.isFailure, PipelineAnswer.status]
  · cases usage <;>
      simp [PipelineEffect.added, PipelineEffect.logged, PipelineEffect.finalized, usageCounts]
  · cases usage <;>
      simp [PipelineEffect.finalizes, PipelineEffect.finalized, hother.symm]
  · cases usage <;> simp at h
  · cases usage <;>
      simp [PipelineEffect.finalizes, PipelineEffect.finalized]

theorem accounts_forwardAnswer (answer : UpstreamAnswer) :
    Accounts call.traceId (call.forwardAnswer env answer) false
        (if 400 ≤ answer.status then
          usageCounts ((answer.text.toOption.bind fun text =>
            (env.fromStr text).toOption).bind extractTokenUsage)
        else 0) ∧
      (call.forwardAnswer env answer).countP (PipelineEffect.finalizes call.traceId) = 1 := by
  have hnone : (if 400 ≤ answer.status then usageCounts none else 0) = 0 := ite_self _
  unfold forwardAnswer
  cases htext : answer.text with
  | error message =>
    refine ⟨?_, call.countP_failLogged _ _ _ _ _⟩
    have haccounts := @accounts_failLogged call 502 (by decide) "upstream_error"
      ("Failed to read upstream response: " ++ message) (some answer.status) none
    rwa [Except.toOption, Option.bind_none, Option.bind_none, hnone]
  | ok text =>
    dsimp only
    cases hjson : env.fromStr text with
    | error message =>
      refine ⟨?_, call.countP_failLogged _ _ _ _ _⟩
      have haccounts := @accounts_failLogged call 502 (by decide) "upstream_error"
        ("Upstream returned non-JSON response: " ++ String.ofList (text.toList.take 200))
        (some answer.status) none
      rwa [Except.toOption, Option.bind_some, hjson, Except.toOption, Option.bind_none, hnone]
    | ok upstreamJson =>
      dsimp only
      rw [Except.toOption, Option.bind_some, hjson, Except.toOption, Option.bind_some]
      split_ifs with herror
      · exact ⟨call.accounts_failLogged herror _ _ _ _, call.countP_failLogged _ _ _ _ _⟩
      · exact call.accounts_succeed _ _ _

theorem accounts_forward {name : String} {upstreamBody : Json}
    (hprepare : call.prepare = .ok (name, upstreamBody)) :
    Accounts call.traceId (call.forward env name (asksStream upstreamBody)) false
        (call.missedUsage env) ∧
      (call.forward env name (asksStream upstreamBody)).countP
        (PipelineEffect.finalizes call.traceId) = 1 := by
  unfold forward missedUsage
  rw [hprepare]
  cases call.upstream with
  | failed message =>
    exact ⟨call.accounts_failLogged (by decide) _ _ _ none, call.countP_failLogged _ _ _ _ _⟩
  | timedOut message =>
    dsimp only
    split_ifs
    · exact ⟨call.accounts_failLogged (by decide) _ _ _ none, call.countP_failLogged _ _ _ _ _⟩
    · exact ⟨call.accounts_failLogged (by decide) _ _ _ none, call.countP_failLogged _ _ _ _ _⟩
  | answered answer =>
    dsimp only
    cases hstream : readsAsStream (asksStream upstreamBody) answer.contentType with
    | true =>
      rw [if_pos rfl, if_neg fun h => Bool.noConfusion h.1]
      exact call.accounts_forwardStream env answer
    | false =>
      have hmissed : ∀ missed : TokenCounts,
          (if false = false ∧ 400 ≤ answer.status then missed else 0) =
            if 400 ≤ answer.status then missed else 0 :=
        fun missed => if_congr (and_iff_right rfl) rfl rfl
      rw [if_neg Bool.false_ne_true, hmissed]
      exact call.accounts_forwardAnswer env answer

/-- **What one request counts and logs**: it misses the error of a body that is too large, and the
usage of an error of the upstream. -/
theorem accounts_handleProxyRequest :
    Accounts call.traceId (call.handleProxyRequest env) call.oversized (call.missedUsage env) := by
  cases hprepare : call.prepare with
  | error effects =>
    rw [handleProxyRequest, hprepare, missedUsage, hprepare]
    exact call.accounts_of_prepare hprepare
  | ok prepared =>
    obtain ⟨name, upstreamBody⟩ := prepared
    obtain ⟨haccounts, hcount⟩ := call.accounts_forward env hprepare
    rw [handleProxyRequest, hprepare, call.oversized_of_prepare hprepare]
    refine ⟨?_, ?_, fun other hother => ?_, fun _ => ?_⟩
    · have herrors := haccounts.errors
      simpa [PipelineEffect.errors, Failed, PipelineEffect.isFailure] using herrors
    · have htokens := haccounts.tokens
      simpa [PipelineEffect.added, PipelineEffect.logged, PipelineEffect.finalized, usageCounts]
        using htokens
    · have htraced := haccounts.traced other hother
      simpa [PipelineEffect.finalizes, PipelineEffect.finalized] using htraced
    · simpa [PipelineEffect.finalizes, PipelineEffect.finalized] using hcount

end ProxyCall

/-! ### A run -/

theorem ofNat_countP {ι : Type*} (p : ι → Bool) (items : List ι) :
    BitVec.ofNat 64 (items.countP p) = (items.map fun item => if p item then 1 else 0).sum := by
  induction items with
  | nil => rfl
  | cons item items ih =>
    rw [List.countP_cons, BitVec.ofNat_add, ih, List.map_cons, List.sum_cons, add_comm]
    cases p item <;> rfl

theorem sum_countP_finalizes {env : Env} {calls : List ProxyCall}
    (hids : (calls.map ProxyCall.traceId).Nodup) {call : ProxyCall} (hmem : call ∈ calls) :
    (calls.map fun other => (other.handleProxyRequest env).countP
        (PipelineEffect.finalizes call.traceId)).sum =
      (call.handleProxyRequest env).countP (PipelineEffect.finalizes call.traceId) := by
  have hothers : ∀ others : List ProxyCall,
      (∀ other ∈ others, call.traceId ≠ other.traceId) →
      (others.map fun other => (other.handleProxyRequest env).countP
        (PipelineEffect.finalizes call.traceId)).sum = 0 := by
    intro others hne
    refine List.sum_eq_zero fun count hcount => ?_
    obtain ⟨other, hother, rfl⟩ := List.mem_map.1 hcount
    exact (other.accounts_handleProxyRequest env).traced _ (hne other hother)
  obtain ⟨before, after, rfl⟩ := List.append_of_mem hmem
  rw [List.map_append, List.map_cons, List.nodup_append, List.nodup_cons] at hids
  obtain ⟨-, ⟨hafter, -⟩, hbefore⟩ := hids
  rw [List.map_append, List.map_cons, List.sum_append, List.sum_cons, hothers before,
    hothers after, Nat.zero_add, Nat.add_zero]
  · intro other hother heq
    exact hafter (List.mem_map.2 ⟨other, hother, heq.symm⟩)
  · intro other hother heq
    exact hbefore _ (List.mem_map_of_mem hother) _ List.mem_cons_self heq.symm

theorem MetricsState.run_missed {env : Env} (before : MetricsState) {calls : List ProxyCall}
    {effects : List PipelineEffect}
    (hrun : Interleaves (calls.map (ProxyCall.handleProxyRequest env)) effects) :
    (before.run effects).errors + .ofNat 64 (calls.countP ProxyCall.oversized) =
        before.errors +
          .ofNat 64 (calls.countP fun call => Failed (call.handleProxyRequest env)) ∧
      (before.run effects).tokens + (calls.map (ProxyCall.missedUsage env)).sum =
        before.tokens + ((effects.filterMap PipelineEffect.finalized).map fun entry =>
          usageCounts entry.tokenUsage).sum := by
  constructor
  · rw [before.errors_run, hrun.sum_map, List.map_map, add_assoc, ofNat_countP, ofNat_countP,
      ← List.sum_map_add]
    refine congrArg _ (congrArg List.sum (List.map_congr_left fun call _ => ?_))
    exact (call.accounts_handleProxyRequest env).errors
  · rw [before.tokens_run, sum_finalized, hrun.sum_map, hrun.sum_map, List.map_map, List.map_map,
      add_assoc, ← List.sum_map_add]
    refine congrArg _ (congrArg List.sum (List.map_congr_left fun call _ => ?_))
    exact (call.accounts_handleProxyRequest env).tokens

/-- **The counters agree with the answers and with the log** just if no request was oversized and
no error of the upstream came with a usage, counted in `u64`. -/
theorem countersAgree_iff {env : Env} (before : MetricsState) {calls : List ProxyCall}
    {effects : List PipelineEffect} (hids : (calls.map ProxyCall.traceId).Nodup)
    (hrun : Interleaves (calls.map (ProxyCall.handleProxyRequest env)) effects) :
    CountersAgree env before calls effects ↔
      BitVec.ofNat 64 (calls.countP ProxyCall.oversized) = 0 ∧
        (calls.map (ProxyCall.missedUsage env)).sum = 0 := by
  obtain ⟨herrors, htokens⟩ := before.run_missed hrun
  constructor
  · intro h
    rw [h.errors] at herrors
    rw [h.tokens] at htokens
    exact ⟨add_eq_left.1 herrors, add_eq_left.1 htokens⟩
  · rintro ⟨hoversized, hmissed⟩
    rw [hoversized, add_zero] at herrors
    rw [hmissed, add_zero] at htokens
    refine ⟨herrors, htokens, fun call hmem happended => ?_⟩
    have hcount := @sum_countP_finalizes env calls hids call hmem
    rw [hrun.countP, List.map_map]
    exact hcount.trans ((call.accounts_handleProxyRequest env).finalized happended)

def meteredError : Json :=
  .obj [("error", .obj [("message", .str "context too long")]),
    ("usage", .obj [("input_tokens", .int 5)])]

/-- Reads the texts of two answers. -/
def twoAnswers : Env := Env.ofValues [meteredError, usagePayload]

def routedCall (traceId : String) (body : RequestBody) (status : ℕ) (answer : Json) :
    ProxyCall where
  traceId := traceId
  method := "POST"
  groupId := "dev"
  suffix := "/responses"
  tokenMatches := true
  refresh := .ok ()
  config := some (oneRouteConfig "p1")
  routeIndex := some (buildRouteIndex (oneRouteConfig "p1"))
  body := body
  laterConfig := some (oneRouteConfig "p1")
  transformer := fun _ => .ok "cx_resp_openai2"
  upstreamUrl := fun route => .ok route.rule.apiAddress
  upstreamBody := fun _ body => .ok body
  upstream := .answered
    { status := status, contentType := "application/json", text := .ok answer.compact
      consumed := [], streamFailed := false, progressLogs := 0 }
  mapResponseBody := id
  elapsedMs := 7

/-- Counters at zero. -/
def MetricsState.zero : MetricsState := ⟨0, 0, 0, 0, 0, 0, 0, 0⟩

/-- A success, and a body that is no JSON. -/
def servedCalls : List ProxyCall :=
  [routedCall "a" .empty 200 usagePayload, routedCall "b" (.bytes none) 200 usagePayload]

theorem countersAgree_served :
    CountersAgree twoAnswers .zero servedCalls
      (servedCalls.map (ProxyCall.handleProxyRequest twoAnswers)).flatten :=
  (countersAgree_iff .zero (by decide) (Interleaves.flatten _)).2 (by decide +kernel)

/-- A body that is too large, and an error of the upstream with a usage. -/
def missedCalls : List ProxyCall :=
  [routedCall "a" .tooLarge 200 usagePayload, routedCall "b" .empty 400 meteredError]

/-- Both requests are answered with 400 or above, and one error is counted; the log has five tokens
more than the counters. -/
theorem not_countersAgree_missed :
    (MetricsState.zero.run
        (missedCalls.map (ProxyCall.handleProxyRequest twoAnswers)).flatten).errors = 1 ∧
      (missedCalls.countP fun call => Failed (call.handleProxyRequest twoAnswers)) = 2 ∧
      (MetricsState.zero.run
        (missedCalls.map (ProxyCall.handleProxyRequest twoAnswers)).flatten).inputTokens = 0 ∧
      ((missedCalls.map (ProxyCall.handleProxyRequest twoAnswers)).flatten.map
        PipelineEffect.logged).sum = (5, 0, 0, 0) ∧
      ¬ ∀ calls effects,
        Interleaves (calls.map (ProxyCall.handleProxyRequest twoAnswers)) effects →
          CountersAgree twoAnswers .zero calls effects := by
  refine ⟨by decide +kernel, by decide +kernel, by decide +kernel, by decide +kernel,
    fun h => ?_⟩
  have hagree := h missedCalls _ (Interleaves.flatten _)
  exact absurd hagree.errors (by decide +kernel)

end AiOpenRouter
