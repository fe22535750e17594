/-
Numbering and kinds of the blocks of the Responses → Claude stream.

A client expects the blocks of a message to be numbered 0, 1, 2, … and every
delta to fit the kind of its block (`BlocksNumbered`).  The converter does not
guarantee it: keys outlive the block they named, the fallback slot is shared
by text and reasoning deltas, and the index counter is an `i32`.

`RequestFits` is the exact condition on one upstream event, given the context
before it and the kinds requested so far (ghost state), and
`blocksNumbered_responsesToClaude_iff` says that a run numbers its blocks iff
all its steps meet the condition.
-/
import AiOpenRouter.ResponsesToClaudeSteps

open Trace

namespace AiOpenRouter

/-- The numbering a Claude client relies on. -/
structure BlocksNumbered (t : List ClaudeEvent) : Prop where
  /-- the `k`-th block started has index `k - 1` -/
  start_index : ∀ pre (i : ℤ) block post,
    t = pre ++ .contentBlockStart i block :: post → i = startCount pre
  /-- a delta has the kind of the block it is addressed to -/
  delta_kind : ∀ pre i delta post,
    t = pre ++ .contentBlockDelta i delta :: post →
      kindAt pre i = some delta.kind

def BlocksAllow (pre : List ClaudeEvent) : ClaudeEvent → Prop
  | .contentBlockStart i _ => i = startCount pre
  | .contentBlockDelta i delta => kindAt pre i = some delta.kind
  | _ => True

instance (pre : List ClaudeEvent) : (e : ClaudeEvent) → Decidable (BlocksAllow pre e)
  | .contentBlockStart i _ => inferInstanceAs (Decidable (i = startCount pre))
  | .contentBlockDelta i delta => inferInstanceAs (Decidable (kindAt pre i = some delta.kind))
  | .messageStart _ | .contentBlockStop _ | .messageDelta _ _ | .messageStop => instDecidableTrue

theorem blocksNumbered_iff_permits {t : List ClaudeEvent} :
    BlocksNumbered t ↔ Permits BlocksAllow t := by
  constructor
  · rintro ⟨hstart, hdelta⟩ pre e post ht
    rcases e with _ | ⟨i, block⟩ | ⟨i, delta⟩ | _ | ⟨_, _⟩ | _
    case contentBlockStart => exact hstart pre i block post ht
    case contentBlockDelta => exact hdelta pre i delta post ht
    all_goals trivial
  · intro h
    exact ⟨fun pre i block post ht => h pre _ post ht,
      fun pre i delta post ht => h pre _ post ht⟩

/-! ### The condition on one event -/

/-- A registered index must still be open, and have been requested for the kind of
the delta (`kinds`); a new index must not have wrapped below zero. -/
def RequestFits (ctx : StreamContext) (kinds : ℤ → Option BlockKind) (req : BlockRequest) :
    Prop :=
  match req.target with
  | none => 0 ≤ ctx.responsesNextContentIndex
  | some i => i ∈ ctx.responsesOpenIndices ∧ (req.hasDelta = true → kinds i = some req.kind)

def BlockRequest.record (ctx : StreamContext) (kinds : ℤ → Option BlockKind)
    (req : BlockRequest) : ℤ → Option BlockKind :=
  let index := req.target.getD ctx.responsesNextContentIndex
  if index ∈ ctx.responsesOpenIndices then kinds else Function.update kinds index (some req.kind)

/-- The kinds requested so far, after one more upstream block. -/
def recordKinds (env : Env) (event : Bytes) (ctx : StreamContext)
    (kinds : ℤ → Option BlockKind) : ℤ → Option BlockKind :=
  match readResponsesInput env event with
  | .event name data =>
    match blockRequest ctx name data with
    | some req => req.record ctx kinds
    | none => kinds
  | _ => kinds

/-- The condition on one upstream block. -/
def StepKeepsBlocks (env : Env) (s : StreamContext × (ℤ → Option BlockKind))
    (_ : List ClaudeEvent) (event : Bytes) : Prop :=
  match readResponsesInput env event with
  | .event name data => ∀ req, blockRequest s.1 name data = some req → RequestFits s.1 s.2 req
  | _ => True

/-! ### The invariant -/

/-- The context and the trace agree on how many blocks were started: the index
counter is that number as an `i32`, and everything registered lies below it. -/
structure Numbers (ctx : StreamContext) (t : List ClaudeEvent) : Prop where
  count_le : startCount t ≤ 2147483648
  next : ctx.responsesNextContentIndex = wrapI32 (startCount t)
  opened : openIndices t = ctx.responsesOpenIndices
  started : ∀ i, (blockAt t i).isSome = true → 0 ≤ i ∧ i < startCount t
  known : ∀ i, Known ctx i → 0 ≤ i ∧ i < startCount t

theorem numbers_new : Numbers StreamContext.new [] where
  count_le := by simp
  next := by decide
  opened := rfl
  started i h := by simp at h
  known i h := by simp [Known, StreamContext.new] at h

variable {st st' : Emit ClaudeEvent} {q : List ClaudeEvent}

theorem startCount_append_quiet {t : List ClaudeEvent} (hq : ∀ e ∈ q, e.isQuiet = true) :
    startCount (t ++ q) = startCount t := by
  have hzero : q.countP ClaudeEvent.isBlockStart = 0 := by
    rw [List.countP_eq_zero]
    intro e he
    have := hq e he
    rcases e with _ | ⟨_, _⟩ | ⟨_, _⟩ | _ | ⟨_, _⟩ | _ <;>
      simp_all [ClaudeEvent.isQuiet, ClaudeEvent.isBlockStart]
  rw [startCount, List.countP_append, hzero, Nat.add_zero, startCount]

theorem blockAt_append_quiet {t : List ClaudeEvent} (hq : ∀ e ∈ q, e.isQuiet = true) :
    blockAt (t ++ q) = blockAt t := by
  induction q using List.reverseRecOn with
  | nil => rw [List.append_nil]
  | append_singleton q e ih =>
    have he := hq e (by simp)
    rw [← List.append_assoc, blockAt_snoc, ih fun e' he' => hq e' (by simp [he'])]
    rcases e with _ | ⟨_, _⟩ | ⟨_, _⟩ | _ | ⟨_, _⟩ | _ <;> simp_all [ClaudeEvent.isQuiet, blockStep]

theorem permits_append_quiet {t : List ClaudeEvent} (hq : ∀ e ∈ q, e.isQuiet = true)
    (h : Permits BlocksAllow t) : Permits BlocksAllow (t ++ q) := by
  induction q using List.reverseRecOn with
  | nil => rwa [List.append_nil]
  | append_singleton q e ih =>
    rw [← List.append_assoc, permits_snoc]
    refine ⟨ih fun e' he' => hq e' (by simp [he']), ?_⟩
    have he := hq e (by simp)
    rcases e with _ | ⟨_, _⟩ | ⟨_, _⟩ | _ | ⟨_, _⟩ | _
      <;> simp_all [ClaudeEvent.isQuiet, BlocksAllow]

/-- Quiet steps keep the invariant and the numbering. -/
theorem Numbers.quietly {t : List ClaudeEvent} (h : Numbers st.ctx (t ++ st.result))
    (hq : Quietly st st') : Numbers st'.ctx (t ++ st'.result) := by
  obtain ⟨q, hout, hquiet, hopen⟩ := hq.out
  rw [hout, ← List.append_assoc]
  refine ⟨?_, ?_, ?_, ?_, ?_⟩
  · rw [startCount_append_quiet hquiet]
    exact h.count_le
  · rw [startCount_append_quiet hquiet, hq.next, h.next]
  · rw [hopen, ← h.opened, openIndices, List.foldl_append, openIndices]
  · rw [startCount_append_quiet hquiet, blockAt_append_quiet hquiet]
    exact h.started
  · rw [startCount_append_quiet hquiet]
    exact fun i hi => h.known i (hq.known i hi)

theorem Quietly.permits {t : List ClaudeEvent} (hq : Quietly st st')
    (h : Permits BlocksAllow (t ++ st.result)) : Permits BlocksAllow (t ++ st'.result) := by
  obtain ⟨q, hout, hquiet, -⟩ := hq.out
  rw [hout, ← List.append_assoc]
  exact permits_append_quiet hquiet h

/-! ### Serving a request -/

variable {t : List ClaudeEvent} {ctx : StreamContext} {req : BlockRequest}

theorem Numbers.next_nonneg_iff (h : Numbers ctx t) :
    0 ≤ ctx.responsesNextContentIndex ↔ ctx.responsesNextContentIndex = startCount t := by
  have hle := h.count_le
  rw [h.next]
  unfold wrapI32
  constructor
  · intro h0
    omega
  · intro h0
    omega

theorem Numbers.next_not_open (h : Numbers ctx t) :
    ctx.responsesNextContentIndex ∉ ctx.responsesOpenIndices := by
  intro hmem
  rw [← h.opened] at hmem
  obtain ⟨block, hblock⟩ := blockAt_of_mem_openIndices hmem
  obtain ⟨h0, h1⟩ := h.started _ (by rw [hblock]; rfl)
  have heq := h.next_nonneg_iff.1 h0
  omega

theorem Numbers.start {r : ℤ × StreamContext} (h : Numbers ctx t) {registered : StreamContext}
    (hi : r.1 = startCount t) (hlt : startCount t < 2147483648)
    (hnext : registered.responsesNextContentIndex = wrapI32 (r.1 + 1))
    (hknown : ∀ i, Known registered i → Known ctx i ∨ i = r.1) (block : ClaudeBlock) :
    Numbers { registered with responsesOpenIndices := insert r.1 ctx.responsesOpenIndices }
      (t ++ [.contentBlockStart r.1 block]) where
  count_le := by
    rw [startCount_snoc]
    simp only [ClaudeEvent.isBlockStart, if_true]
    omega
  next := by
    rw [startCount_snoc]
    simp only [ClaudeEvent.isBlockStart, if_true]
    rw [hnext, hi]
    push_cast
    rfl
  opened := by
    rw [openIndices_snoc, h.opened]
    rfl
  started i hsome := by
    rw [startCount_snoc]
    simp only [ClaudeEvent.isBlockStart, if_true]
    rw [blockAt_snoc] at hsome
    by_cases heq : i = r.1
    · push_cast
      omega
    · rw [blockStep, Function.update_of_ne heq] at hsome
      have := h.started i hsome
      push_cast
      omega
  known i hi' := by
    rw [startCount_snoc]
    simp only [ClaudeEvent.isBlockStart, if_true]
    rcases hknown i hi' with hk | rfl
    · have := h.known i hk
      push_cast
      omega
    · push_cast
      omega

theorem Numbers.congr {ctx' : StreamContext} (h : Numbers ctx t)
    (hopen : ctx'.responsesOpenIndices = ctx.responsesOpenIndices)
    (hnext : ctx'.responsesNextContentIndex = ctx.responsesNextContentIndex)
    (hknown : ∀ i, Known ctx' i → Known ctx i) : Numbers ctx' t where
  count_le := h.count_le
  next := by rw [hnext, h.next]
  opened := by rw [hopen, h.opened]
  started := h.started
  known i hi := h.known i (hknown i hi)

/-- Sending a delta keeps the invariant. -/
theorem Numbers.pushDelta (h : Numbers ctx t) (index : ℤ) (delta : ClaudeDelta) :
    Numbers ctx (t ++ [.contentBlockDelta index delta]) where
  count_le := by
    rw [startCount_snoc]
    exact h.count_le
  next := by
    rw [startCount_snoc]
    exact h.next
  opened := by
    rw [openIndices_snoc]
    exact h.opened
  started i hi := by
    rw [startCount_snoc]
    rw [blockAt_snoc] at hi
    exact h.started i hi
  known i hi := by
    rw [startCount_snoc]
    exact h.known i hi

theorem serveBlock_permits_open {result : List ClaudeEvent} {index : ℤ} {block : ClaudeBlock}
    {delta : Option ClaudeDelta} (hopen : index ∈ ctx.responsesOpenIndices)
    (hP : Permits BlocksAllow (t ++ result)) :
    Permits BlocksAllow (t ++ (serveBlock index block delta ⟨ctx, result⟩).result) ↔
      ∀ d, delta = some d → kindAt (t ++ result) index = some d.kind := by
  have hstart : startUnlessOpen index block ⟨ctx, result⟩ = ⟨ctx, result⟩ := by
    rw [startUnlessOpen, if_pos hopen]
  rcases delta with _ | d
  · rw [serveBlock, hstart]
    simpa using hP
  · rw [serveBlock, hstart, Emit.push_result, ← List.append_assoc, permits_snoc]
    simp [hP, BlocksAllow]

theorem serveBlock_permits_closed {result : List ClaudeEvent} {index : ℤ} {block : ClaudeBlock}
    {delta : Option ClaudeDelta} (hclosed : index ∉ ctx.responsesOpenIndices)
    (hP : Permits BlocksAllow (t ++ result))
    (hkind : ∀ d, delta = some d → d.kind = block.kind) :
    Permits BlocksAllow (t ++ (serveBlock index block delta ⟨ctx, result⟩).result) ↔
      index = startCount (t ++ result) := by
  have hstart : (startUnlessOpen index block ⟨ctx, result⟩).result
      = result ++ [.contentBlockStart index block] := by
    rw [startUnlessOpen, if_neg hclosed]
    rfl
  have hpermits : Permits BlocksAllow (t ++ (startUnlessOpen index block ⟨ctx, result⟩).result) ↔
      index = startCount (t ++ result) := by
    rw [hstart, ← List.append_assoc, permits_snoc]
    exact and_iff_right hP
  rcases delta with _ | d
  · exact hpermits
  · have hblock : kindAt (t ++ (startUnlessOpen index block ⟨ctx, result⟩).result) index
        = some d.kind := by
      rw [hstart, ← List.append_assoc, kindAt_snoc_start, Function.update_self, hkind d rfl]
    rw [serveBlock, Emit.push_result, ← List.append_assoc, permits_snoc]
    exact (and_iff_left hblock).trans hpermits

theorem Serves.permits_iff (h : Serves st req st') (hN : Numbers st.ctx (t ++ st.result))
    (hP : Permits BlocksAllow (t ++ st.result)) :
    Permits BlocksAllow (t ++ st'.result) ↔ RequestFits st.ctx (kindAt (t ++ st.result)) req := by
  obtain ⟨r, registered, block, delta, hr, htk, hro, -, -, hbk, hds, hdk⟩ := h
  have hdb : ∀ d, delta = some d → d.kind = block.kind := fun d hd => (hdk d hd).trans hbk.symm
  rw [RequestFits]
  generalize htarget : req.target = target at hr
  rcases hr with i | ⟨byKey, fallback, _, _⟩
  · -- a registered index: it lies below the number of blocks, so it must be open
    obtain ⟨h0, hlt⟩ := hN.known i (htk i htarget)
    by_cases hopen : i ∈ st.ctx.responsesOpenIndices
    · have hopen' : i ∈ registered.responsesOpenIndices := by rwa [hro]
      rw [serveBlock_permits_open hopen' hP]
      constructor
      · intro hall
        refine ⟨hopen, fun hdelta => ?_⟩
        obtain ⟨d, hd⟩ := Option.isSome_iff_exists.1 (hds.trans hdelta)
        rw [hall d hd, hdk d hd]
      · rintro ⟨-, hfit⟩ d hd
        rw [hfit (by rw [← hds, hd]; rfl), hdk d hd]
    · have hclosed : i ∉ registered.responsesOpenIndices := by rwa [hro]
      rw [serveBlock_permits_closed hclosed hP hdb]
      constructor
      · intro heq
        omega
      · rintro ⟨hmem, -⟩
        exact absurd hmem hopen
  · -- the next index: it is never open
    have hclosed : st.ctx.responsesNextContentIndex ∉ registered.responsesOpenIndices := by
      rw [hro]
      exact hN.next_not_open
    rw [serveBlock_permits_closed hclosed hP hdb]
    exact hN.next_nonneg_iff.symm

theorem Serves.numbers (h : Serves st req st') (hN : Numbers st.ctx (t ++ st.result))
    (hfits : RequestFits st.ctx (kindAt (t ++ st.result)) req) :
    Numbers st'.ctx (t ++ st'.result) := by
  obtain ⟨r, registered, block, delta, hr, htk, hro, hrn, hrk, -, -, -⟩ := h
  rw [RequestFits] at hfits
  have hknown : ∀ i, Known registered i → Known st.ctx i ∨ i = r.1 := by
    intro i hi
    rcases hrk i hi with hi | rfl
    · exact known_of_resolves hr i hi
    · exact Or.inr rfl
  -- the state after the block was started
  have hstarted : Numbers (startUnlessOpen r.1 block ⟨registered, st.result⟩).ctx
      (t ++ (startUnlessOpen r.1 block ⟨registered, st.result⟩).result) := by
    generalize htarget : req.target = target at hr hfits
    rcases hr with i | ⟨byKey, fallback, _, _⟩
    · have hopen : i ∈ registered.responsesOpenIndices := by
        rw [hro]
        exact hfits.1
      rw [startUnlessOpen, if_pos hopen]
      refine hN.congr hro hrn fun j hj => ?_
      rcases hknown j hj with hj | rfl
      · exact hj
      · exact htk _ htarget
    · have hclosed : st.ctx.responsesNextContentIndex ∉ registered.responsesOpenIndices := by
        rw [hro]
        exact hN.next_not_open
      have hnext := hN.next_nonneg_iff.1 hfits
      have hlt : startCount (t ++ st.result) < 2147483648 := by
        have hle := hN.count_le
        have hwrap := hN.next
        have h0 : (0 : ℤ) ≤ st.ctx.responsesNextContentIndex := hfits
        rcases Nat.lt_or_eq_of_le hle with hlt | heq
        · exact hlt
        · rw [heq] at hwrap
          rw [hwrap] at h0
          exact absurd h0 (by decide)
      rw [startUnlessOpen, if_neg hclosed]
      simp only [Emit.withCtx_ctx, Emit.push_ctx, Emit.withCtx_result, Emit.push_result]
      rw [← List.append_assoc, hro]
      exact Numbers.start (r := (st.ctx.responsesNextContentIndex, registered)) hN hnext hlt hrn
        hknown block
  rcases delta with _ | d
  · exact hstarted
  · rw [serveBlock, Emit.push_ctx, Emit.push_result, ← List.append_assoc]
    exact hstarted.pushDelta r.1 d

/-! ### Steps and runs -/

theorem kindAt_append_quiet (hq : ∀ e ∈ q, e.isQuiet = true) : kindAt (t ++ q) = kindAt t := by
  funext i
  rw [kindAt, blockAt_append_quiet hq, kindAt]

theorem Serves.kindAt_eq (h : Serves st req st') :
    kindAt (t ++ st'.result) = req.record st.ctx (kindAt (t ++ st.result)) := by
  obtain ⟨r, registered, block, delta, hr, -, hro, -, -, hbk, -, -⟩ := h
  have hindex : r.1 = req.target.getD st.ctx.responsesNextContentIndex ∧
      r.2.responsesOpenIndices = st.ctx.responsesOpenIndices := by
    generalize req.target = target at hr
    rcases hr with i | ⟨_, _, _, _⟩ <;> exact ⟨rfl, rfl⟩
  have hstart : kindAt (t ++ (startUnlessOpen r.1 block ⟨registered, st.result⟩).result)
      = req.record st.ctx (kindAt (t ++ st.result)) := by
    rw [BlockRequest.record, ← hindex.1, startUnlessOpen, hro, hindex.2]
    by_cases hopen : r.1 ∈ st.ctx.responsesOpenIndices
    · simp only [hopen, if_true]
    · simp only [hopen, if_false]
      rw [Emit.withCtx_result, Emit.push_result, ← List.append_assoc, kindAt_snoc_start, hbk]
  rcases delta with _ | d
  · exact hstart
  · rw [serveBlock, Emit.push_result, ← List.append_assoc, ← hstart]
    funext i
    rw [kindAt, blockAt_snoc]
    rfl

def TracksKinds (s : StreamContext × (ℤ → Option BlockKind)) (t : List ClaudeEvent) : Prop :=
  Numbers s.1 t ∧ s.2 = kindAt t

/-- The step lemma: one upstream block keeps the numbering iff it meets the condition,
and then the invariant holds again. -/
theorem blocks_step (env : Env) (s : StreamContext × (ℤ → Option BlockKind))
    (t : List ClaudeEvent) (event : Bytes) (o : List ClaudeEvent)
    (s' : StreamContext × (ℤ → Option BlockKind)) (htracks : TracksKinds s t)
    (hP : Permits BlocksAllow t)
    (hstep : withGhost (openaiResponsesStreamToClaude env) (recordKinds env) event s
      = .ok (o, s')) :
    (Permits BlocksAllow (t ++ o) ↔ StepKeepsBlocks env s t event) ∧
    (StepKeepsBlocks env s t event → TracksKinds s' (t ++ o)) := by
  obtain ⟨ctx, kinds⟩ := s
  obtain ⟨hN, rfl⟩ := htracks
  obtain ⟨hstep, hkinds⟩ := withGhost_eq_ok hstep
  have hstart : Numbers (Emit.start ctx : Emit ClaudeEvent).ctx
      (t ++ (Emit.start ctx : Emit ClaudeEvent).result) := by simpa using hN
  have hPstart : Permits BlocksAllow (t ++ (Emit.start ctx : Emit ClaudeEvent).result) := by
    simpa using hP
  -- a quiet step meets the condition trivially and keeps everything
  have hquiet : ∀ st : Emit ClaudeEvent, Quietly (Emit.start ctx) st →
      Permits BlocksAllow (t ++ st.result) ∧ Numbers st.ctx (t ++ st.result) ∧
        kindAt (t ++ st.result) = kindAt t := by
    intro st hq
    obtain ⟨q, hout, hq', -⟩ := hq.out
    refine ⟨hq.permits hPstart, hstart.quietly hq, ?_⟩
    rw [hout]
    exact kindAt_append_quiet hq'
  rw [openaiResponsesStreamToClaude] at hstep
  unfold recordKinds at hkinds
  unfold StepKeepsBlocks
  rcases hread : readResponsesInput env event with _ | _ | ⟨name, data⟩
  case skip =>
    rw [hread] at hstep hkinds
    obtain ⟨rfl, hctx⟩ := Prod.mk.inj (Except.ok.inj hstep)
    rw [List.append_nil]
    exact ⟨by simpa using hP, fun _ => ⟨hctx ▸ hN, hkinds⟩⟩
  case done =>
    rw [hread] at hstep hkinds
    obtain ⟨rfl, hctx⟩ := Prod.mk.inj (Except.ok.inj hstep)
    obtain ⟨h1, h2, h3⟩ := hquiet _ (quietly_finalizeDone (Emit.start ctx))
    exact ⟨by simpa using h1, fun _ => ⟨hctx ▸ h2, hkinds.trans h3.symm⟩⟩
  case event =>
    rw [hread] at hstep hkinds
    obtain ⟨rfl, hctx⟩ := Prod.mk.inj (Except.ok.inj hstep)
    simp only
    rcases convertResponsesEvent_cases env name data (Emit.start ctx) with
      ⟨hnone, hq⟩ | ⟨req, st1, hreq, hpre, hserves⟩
    · rw [Emit.start_ctx] at hnone
      simp only [hnone] at hkinds
      obtain ⟨h1, h2, h3⟩ := hquiet _ hq
      refine ⟨iff_of_true h1 ?_, fun _ => ⟨hctx ▸ h2, hkinds.trans h3.symm⟩⟩
      rw [hnone]
      intro req hreq
      exact absurd hreq (by simp)
    · rw [Emit.start_ctx] at hreq
      simp only [hreq] at hkinds
      obtain ⟨h1, h2, h3⟩ := hquiet st1 hpre.quietly
      -- the condition reads the same before and after the `message_start`
      have hfits : RequestFits st1.ctx (kindAt (t ++ st1.result)) req ↔
          ∀ req', blockRequest ctx name data = some req' → RequestFits ctx (kindAt t) req' := by
        rw [RequestFits, hpre.open_next.1, hpre.open_next.2, h3, hreq]
        constructor
        · intro h req' hreq'
          rw [← Option.some_inj.1 hreq']
          exact h
        · intro h
          exact h req rfl
      refine ⟨(hserves.permits_iff h2 h1).trans hfits, fun h => ?_⟩
      refine ⟨hctx ▸ hserves.numbers h2 (hfits.2 h), hkinds.trans ?_⟩
      rw [hserves.kindAt_eq, h3, BlockRequest.record, BlockRequest.record, hpre.open_next.1,
        hpre.open_next.2]
      rfl

/-- **Numbering of blocks**: a run numbers its blocks 0, 1, 2, … and sends every
delta to a block of its kind iff every step meets the condition. -/
theorem blocksNumbered_responsesToClaude_iff (env : Env) (events : List Bytes) :
    BlocksNumbered (responsesToClaudeRun env events).out ↔
      StepsMeet (withGhost (openaiResponsesStreamToClaude env) (recordKinds env))
        (StepKeepsBlocks env) (StreamContext.new, fun _ => none) [] events := by
  have hrun := permits_feed_iff
    (fun s t i o s' htracks hP hstep => (blocks_step env s t i o s' htracks hP hstep).1)
    (fun s t i o s' htracks hP hC hstep => (blocks_step env s t i o s' htracks hP hstep).2 hC)
    events (s := (StreamContext.new, fun _ => none)) (t := []) ⟨numbers_new, rfl⟩ permits_nil
  rw [blocksNumbered_iff_permits, responsesToClaudeRun, ← hrun, List.nil_append,
    (feed_withGhost events StreamContext.new _).1]

/-- A text delta and a reasoning delta, both without an item: they share the fallback
slot, and the thinking delta goes to the text block. -/
def textThenReasoning : List Bytes :=
  [eventBlock "response.output_text.delta" (Json.obj [("delta", .str "Hi")]).compact,
   eventBlock "response.reasoning.delta" (Json.obj [("delta", .str "Why")]).compact]

/-- The deltas of `textThenReasoning`, parsed. -/
def textThenReasoningEnv : Env :=
  Env.ofValues [.obj [("delta", .str "Hi")], .obj [("delta", .str "Why")]]

theorem not_blocksNumbered_textThenReasoning :
    ¬ BlocksNumbered (responsesToClaudeRun textThenReasoningEnv textThenReasoning).out := by
  rw [blocksNumbered_iff_permits]
  decide +kernel

end AiOpenRouter
