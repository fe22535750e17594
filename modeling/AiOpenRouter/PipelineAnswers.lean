/-
What a request is answered, and what its log entry says (`handle_proxy_request`).

A request leaves the pipeline by one of many exits, most of them early. `OnError` says of
each stage that its exits answer, and `OnError.bind` puts the stages together.

* `answeredOnce_handleProxyRequest`: every request is answered exactly once, and the entry
  that is finalised agrees with the answer.
-/
import AiOpenRouter.LiveCounters

namespace AiOpenRouter

namespace PipelineEffect

/-- The answer that an effect sends. -/
def reply : PipelineEffect → Option PipelineAnswer
  | answer reply => some reply
  | _ => none

def endsFailed : PipelineEffect → Bool
  | streamEnd failed => failed
  | _ => false

def isProgress : PipelineEffect → Bool
  | appendProcessingLog _ => true
  | _ => false

end PipelineEffect

/-- One answer is sent, and the final log entry tells it. -/
structure AnsweredOnce (effects : List PipelineEffect) (reply : PipelineAnswer) : Prop where
  once : effects.filterMap PipelineEffect.reply = [reply]
  error : ∀ status code message, reply = .error status code message → 400 ≤ status
  logged : ∀ entry ∈ effects.filterMap PipelineEffect.finalized,
    entry.httpStatus = (if effects.any PipelineEffect.endsFailed then 502 else reply.status) ∧
      (entry.status = "error" ↔ Failed effects)
  final : effects.Pairwise fun e e' => e.finalized.isSome → e'.isProgress = false

namespace AnsweredOnce

open PipelineEffect

variable {effects : List PipelineEffect} {reply : PipelineAnswer} {status : ℕ}

theorem rejectAndLog (call : ProxyCall) (h : 400 ≤ status) (code message : String) :
    AnsweredOnce (call.rejectAndLog status code message) (.error status code message) := by
  rw [ProxyCall.rejectAndLog, if_pos h]
  refine ⟨rfl, fun _ _ _ heq => ?_, fun entry hentry => ?_, ?_⟩
  · cases heq
    exact h
  · cases hentry
  · simp [isProgress]

theorem fail (h : 400 ≤ status) (message : String) :
    AnsweredOnce (ProxyCall.fail status message) (.error status "proxy_error" message) := by
  refine ⟨rfl, fun _ _ _ heq => ?_, fun entry hentry => ?_, ?_⟩
  · cases heq
    exact h
  · cases hentry
  · simp [ProxyCall.fail, isProgress]

theorem of_final {before after : List PipelineEffect} {entry : FinalLog}
    (honce : (before ++ after).filterMap PipelineEffect.reply = [reply])
    (herror : ∀ status code message, reply = .error status code message → 400 ≤ status)
    (hstatus : entry.httpStatus =
      if (before ++ after).any endsFailed then 502 else reply.status)
    (hfailed : entry.status = "error" ↔ Failed (before ++ after))
    (hbefore : ∀ e ∈ before, e.finalized = none)
    (hafter : ∀ e ∈ after, e.finalized = none ∧ e.isProgress = false) :
    AnsweredOnce (before ++ .finalizeLog entry :: after) reply := by
  have hentries : (before ++ .finalizeLog entry :: after).filterMap finalized = [entry] := by
    rw [List.filterMap_append, List.filterMap_eq_nil_iff.2 hbefore, List.filterMap_cons,
      List.filterMap_eq_nil_iff.2 fun e he => (hafter e he).1]
    rfl
  have hdrop : ∀ p : PipelineEffect → Bool, p (.finalizeLog entry) = false →
      (before ++ .finalizeLog entry :: after).any p = (before ++ after).any p := by
    intro p hp
    rw [List.any_append, List.any_cons, hp, Bool.false_or, List.any_append]
  refine ⟨?_, herror, fun e he => ?_, ?_⟩
  · rwa [List.filterMap_append, List.filterMap_cons_none rfl, ← List.filterMap_append]
  · rw [hentries] at he
    obtain rfl := List.mem_singleton.1 he
    rw [Failed, hdrop _ rfl, hdrop _ rfl]
    exact ⟨hstatus, hfailed⟩
  · have hquiet : ∀ e ∈ before, ∀ e' : PipelineEffect,
        e.finalized.isSome → e'.isProgress = false := by
      intro e he e' h
      rw [hbefore e he] at h
      cases h
    rw [List.pairwise_append, List.pairwise_cons]
    exact ⟨List.pairwise_of_forall_mem_list fun e he e' _ => hquiet e he e',
      ⟨fun e he _ => (hafter e he).2,
        List.pairwise_of_forall_mem_list fun e _ e' he' _ => (hafter e' he').2⟩,
      fun e he e' _ => hquiet e he e'⟩

theorem failLogged (call : ProxyCall) (h : 400 ≤ status) (code message : String)
    (upstreamStatus : Option ℕ) (usage : Option TokenUsage) :
    AnsweredOnce (call.failLogged status code message upstreamStatus usage)
      (.error status code message) := by
  refine @of_final _ [.incrementError] _ _ rfl (fun _ _ _ heq => ?_) rfl ?_ ?_ ?_
  · cases heq
    exact h
  · simp [Failed, isFailure, PipelineAnswer.status, h]
  · simp [finalized]
  · simp [finalized, isProgress]

theorem succeed (call : ProxyCall) (upstreamStatus : ℕ) (usage : Option TokenUsage) (body : Json) :
    AnsweredOnce (call.succeed upstreamStatus usage body) (.json body) := by
  rw [ProxyCall.succeed, List.append_cons]
  refine of_final ?_ (fun _ _ _ heq => nomatch heq) ?_ ?_ ?_ ?_
  · cases usage <;> rfl
  · cases usage <;> rfl
  · cases usage <;> simp [Failed, isFailure, PipelineAnswer.status]
  · cases usage <;> simp [finalized]
  · simp [finalized, isProgress]

theorem forwardStream (env : Env) (call : ProxyCall) (answer : UpstreamAnswer) :
    AnsweredOnce (call.forwardStream env answer)
      (.stream (if 400 ≤ answer.status then answer.status else 200)) := by
  unfold ProxyCall.forwardStream
  cases streamUsage env answer.consumed <;> cases answer.streamFailed <;>
    by_cases herror : 400 ≤ answer.status
  all_goals
    refine of_final ?_ (fun _ _ _ heq => nomatch heq) ?_ ?_ ?_ ?_
    · simp [herror, PipelineEffect.reply, List.filterMap_replicate]
    · simp [herror, endsFailed, PipelineAnswer.status]
    · simp [herror, Failed, isFailure, PipelineAnswer.status]
    · simp [herror, finalized, or_imp, forall_and]
    · simp [finalized, isProgress]

def OnError {α : Type} (result : Except (List PipelineEffect) α) : Prop :=
  ∀ effects, result = .error effects → ∃ reply, AnsweredOnce effects reply

variable {α β : Type}

theorem OnError.error (h : AnsweredOnce effects reply) :
    OnError (.error effects : Except (List PipelineEffect) α) := by
  intro _ heq
  cases heq
  exact ⟨reply, h⟩

theorem OnError.ok (a : α) : OnError (.ok a : Except (List PipelineEffect) α) := by
  intro effects h
  cases h

theorem OnError.bind {result : Except (List PipelineEffect) α}
    {next : α → Except (List PipelineEffect) β} (h : OnError result)
    (hnext : ∀ a, OnError (next a)) : OnError (result >>= next) := by
  cases result with
  | error effects =>
    intro effects' heq
    cases heq
    exact h effects rfl
  | ok a => exact hnext a

theorem onError_admission (call : ProxyCall) : OnError call.admission := by
  unfold ProxyCall.admission
  split
  · exact .error (rejectAndLog call (by decide) _ _)
  split
  · exact .error (rejectAndLog call (by decide) _ _)
  split
  · exact .error (fail (by decide) _)
  split
  · exact .error (fail (by decide) _)
  split
  · exact .error (rejectAndLog call (by decide) _ _)
  split
  · exact .error (fail (by decide) _)
  split
  · exact .ok _
  all_goals exact .error (fail (by decide) _)

theorem onError_readBody (call : ProxyCall) : OnError call.readBody := by
  unfold ProxyCall.readBody
  split
  · -- a body that is too large is not counted as an error
    refine .error ⟨rfl, fun _ _ _ heq => ?_, fun entry hentry => ?_, ?_⟩
    · cases heq
      decide
    · cases hentry
    · simp
  · exact .ok _
  · exact .error (fail (by decide) _)
  · exact .ok _

theorem onError_resolveRule (call : ProxyCall) (route : ActiveRoute) (body : Json) :
    OnError (call.resolveRule route body) := by
  unfold ProxyCall.resolveRule
  split
  · exact .error (fail (by decide) _)
  split
  · exact .error (fail (by decide) _)
  split
  · next hready =>
    unfold assertRuleReady at hready
    split_ifs at hready <;>
      (cases hready; exact .error (fail (by decide) _))
  · exact .ok _

theorem onError_convert (call : ProxyCall) (route : ActiveRoute) (body : Json) :
    OnError (call.convert route body) := by
  unfold ProxyCall.convert
  split
  · exact .error (failLogged call (by decide) _ _ _ _)
  split
  · exact .error (failLogged call (by decide) _ _ _ _)
  split
  · exact .error (failLogged call (by decide) _ _ _ _)
  · exact .ok _

theorem forwardAnswer (env : Env) (call : ProxyCall) (answer : UpstreamAnswer) :
    ∃ reply, AnsweredOnce (call.forwardAnswer env answer) reply := by
  unfold ProxyCall.forwardAnswer
  split
  · exact ⟨_, failLogged call (by decide) _ _ _ _⟩
  split
  · exact ⟨_, failLogged call (by decide) _ _ _ _⟩
  dsimp only
  split_ifs with herror
  · exact ⟨_, failLogged call herror _ _ _ _⟩
  · exact ⟨_, succeed call _ _ _⟩

theorem forward (env : Env) (call : ProxyCall) (name : String) (stream : Bool) :
    ∃ reply, AnsweredOnce (call.forward env name stream) reply := by
  unfold ProxyCall.forward
  split
  · exact ⟨_, failLogged call (by decide) _ _ _ _⟩
  · split_ifs
    · exact ⟨_, failLogged call (by decide) _ _ _ _⟩
    · exact ⟨_, failLogged call (by decide) _ _ _ _⟩
  · split_ifs
    · exact ⟨_, forwardStream env call _⟩
    · exact forwardAnswer env call _

theorem cons {effect : PipelineEffect} (h : AnsweredOnce effects reply)
    (hreply : effect.reply = none) (hfinal : effect.finalized = none)
    (hfailure : effect.isFailure = false) (hend : effect.endsFailed = false) :
    AnsweredOnce (effect :: effects) reply := by
  refine ⟨?_, h.error, fun entry hentry => ?_, ?_⟩
  · rw [List.filterMap_cons_none hreply, h.once]
  · rw [List.filterMap_cons_none hfinal] at hentry
    rw [Failed, List.any_cons, List.any_cons, hfailure, hend, Bool.false_or, Bool.false_or]
    exact h.logged entry hentry
  · rw [List.pairwise_cons]
    refine ⟨fun e' _ hsome => ?_, h.final⟩
    rw [hfinal] at hsome
    cases hsome

end AnsweredOnce

open AnsweredOnce

/-- **Every request is answered exactly once**, and with no error below 400. The entry that is
finalised agrees with the answer, or tells that its stream failed, and is not updated again. -/
theorem answeredOnce_handleProxyRequest (env : Env) (call : ProxyCall) :
    ∃ reply, AnsweredOnce (call.handleProxyRequest env) reply := by
  unfold ProxyCall.handleProxyRequest
  split
  · next effects hprepare =>
    -- the request ends before anything is sent to the upstream
    exact OnError.bind (onError_admission call) (fun route => .bind (onError_readBody call)
      fun body => .bind (onError_resolveRule call route body) (onError_convert call · body))
        effects hprepare
  · next name upstreamBody hprepare =>
    obtain ⟨reply, h⟩ := forward env call name (ProxyCall.asksStream upstreamBody)
    exact ⟨reply, (h.cons rfl rfl rfl rfl).cons rfl rfl rfl rfl⟩

end AiOpenRouter
