/-
The blocks that the streaming loop cuts out of the upstream bytes.

* `popSseChunks` pops the events behind each chunk;
* `sseFraming` — whatever the chunks, events and rest make up the bytes, every
  event ends with its only delimiter, the rest has none, and the events are
  those of the bytes in one piece.
-/
import AiOpenRouter.Sse

namespace AiOpenRouter

/-- The two blank lines that end an event block: LF LF and CR LF CR LF. -/
def sseDelimiters : List Bytes := [[10, 10], [13, 10, 13, 10]]

/-- No delimiter occurs in `b`. -/
def NoDelimiter (b : Bytes) : Prop := ∀ d ∈ sseDelimiters, ∀ pre post, b ≠ pre ++ d ++ post

/-- The bytes end with a delimiter, and contain no earlier one. -/
def IsSseBlock (event : Bytes) : Prop :=
  (∃ body, ∃ d ∈ sseDelimiters, event = body ++ d) ∧
    ∀ d ∈ sseDelimiters, ∀ pre post, event = pre ++ d ++ post → post = []

/-! ### The first delimiter -/

theorem findSseDelimiterFrom_none {b : Bytes} : ∀ {idx : ℕ},
    findSseDelimiterFrom idx b = none → NoDelimiter b := by
  induction b with
  | nil =>
    intro idx _ d hd pre post h
    simp only [sseDelimiters, List.mem_cons, List.not_mem_nil, or_false] at hd
    rcases hd with rfl | rfl <;> simp at h
  | cons x rest ih =>
    intro idx h d hd pre post heq
    rw [findSseDelimiterFrom] at h
    split_ifs at h with hlf hcr
    rcases pre with _ | ⟨y, pre⟩
    · simp only [sseDelimiters, List.mem_cons, List.not_mem_nil, or_false] at hd
      rcases hd with rfl | rfl
      · exact hlf ⟨post, heq.symm⟩
      · exact hcr ⟨post, heq.symm⟩
    · rw [List.cons_append, List.cons_append, List.cons.injEq] at heq
      exact ih h d hd pre post heq.2

theorem findSseDelimiterFrom_some {b : Bytes} : ∀ {idx start len : ℕ},
    findSseDelimiterFrom idx b = some (start, len) →
      ∃ body, ∃ d ∈ sseDelimiters, ∃ post, b = body ++ d ++ post ∧
        idx + body.length = start ∧ d.length = len ∧
        ∀ d' ∈ sseDelimiters, ∀ pre post', b = pre ++ d' ++ post' → body.length ≤ pre.length := by
  induction b with
  | nil =>
    intro idx start len h
    simp [findSseDelimiterFrom] at h
  | cons x rest ih =>
    intro idx start len h
    rw [findSseDelimiterFrom] at h
    split_ifs at h with hlf hcr
    · obtain ⟨rfl, rfl⟩ := Prod.mk.inj (Option.some_inj.1 h)
      obtain ⟨post, hpost⟩ := hlf
      exact ⟨[], [10, 10], by simp [sseDelimiters], post, hpost.symm, rfl, rfl, by simp⟩
    · obtain ⟨rfl, rfl⟩ := Prod.mk.inj (Option.some_inj.1 h)
      obtain ⟨post, hpost⟩ := hcr
      exact ⟨[], [13, 10, 13, 10], by simp [sseDelimiters], post, hpost.symm, rfl, rfl, by simp⟩
    · obtain ⟨body, d, hd, post, rfl, hstart, hlen, hfirst⟩ := ih h
      refine ⟨x :: body, d, hd, post, rfl, ?_, hlen, fun d' hd' pre post' heq => ?_⟩
      · rw [List.length_cons]
        omega
      · rcases pre with _ | ⟨y, pre⟩
        · -- a delimiter at the first byte would have been found there
          simp only [sseDelimiters, List.mem_cons, List.not_mem_nil, or_false] at hd'
          rcases hd' with rfl | rfl
          · exact absurd ⟨post', heq.symm⟩ hlf
          · exact absurd ⟨post', heq.symm⟩ hcr
        · rw [List.cons_append, List.cons_append, List.cons.injEq] at heq
          exact Nat.succ_le_succ (hfirst d' hd' pre post' heq.2)

theorem eq_nil_of_delimiter_eq {d d' m post : Bytes} (hd : d ∈ sseDelimiters)
    (hd' : d' ∈ sseDelimiters) (h : d = m ++ d' ++ post) : post = [] := by
  simp only [sseDelimiters, List.mem_cons, List.not_mem_nil, or_false] at hd hd'
  have hlen := congrArg List.length h
  simp only [List.length_append] at hlen
  rcases hd with rfl | rfl <;> rcases hd' with rfl | rfl
  · exact List.eq_nil_of_length_eq_zero (by simp at hlen; omega)
  · simp at hlen
    omega
  · -- LF LF does not occur in CR LF CR LF
    rcases m with _ | ⟨x, _ | ⟨y, m⟩⟩
    · simp at h
    · simp at h
    · exact List.eq_nil_of_length_eq_zero (by simp at hlen; omega)
  · exact List.eq_nil_of_length_eq_zero (by simp at hlen; omega)

/-! ### Blocks -/

theorem isSseBlock_of_pop {b event rest : Bytes} (h : sseFinder.pop b = some (event, rest)) :
    IsSseBlock event := by
  have happ := Framing.Finder.pop_append h
  rw [sseFinder_pop, popSseEvent] at h
  rcases hfind : findSseDelimiter b with _ | ⟨start, len⟩
  · rw [hfind] at h
    exact absurd h (by simp)
  · rw [hfind] at h
    obtain ⟨rfl, -⟩ := Prod.mk.inj (Option.some_inj.1 h)
    obtain ⟨body, d, hd, post, hb, hstart, hlen, hfirst⟩ := findSseDelimiterFrom_some hfind
    have hevent : b.take (start + len) = body ++ d := by
      rw [hb, List.take_append_of_le_length (by rw [List.length_append]; omega)]
      exact List.take_of_length_le (by rw [List.length_append]; omega)
    rw [hevent] at happ ⊢
    refine ⟨⟨body, d, hd, rfl⟩, fun d' hd' pre post' heq => ?_⟩
    have hle := hfirst d' hd' pre (post' ++ rest) (by rw [happ, heq, List.append_assoc])
    rw [List.append_assoc] at heq
    rcases List.append_eq_append_iff.1 heq with ⟨m, rfl, hm⟩ | ⟨m, rfl, hm⟩
    · rw [← List.append_assoc] at hm
      exact eq_nil_of_delimiter_eq hd hd' hm
    · -- the delimiter does not start inside the body
      have hnil : m = [] := by
        rw [List.length_append] at hle
        exact List.eq_nil_of_length_eq_zero (by omega)
      rw [hnil, List.nil_append] at hm
      exact eq_nil_of_delimiter_eq (m := []) hd hd' hm.symm

theorem isSseBlock_of_mem_drain (b : Bytes) :
    ∀ event ∈ (sseFinder.drain b).1, IsSseBlock event := by
  induction b using sseFinder.drain_induction with
  | hnone b h =>
    rw [Framing.Finder.drain_of_none h]
    simp
  | hsome b event rest h ih =>
    rw [Framing.Finder.drain_of_some h]
    intro event' hmem
    rcases List.mem_cons.1 hmem with rfl | hmem
    · exact isSseBlock_of_pop h
    · exact ih event' hmem

theorem noDelimiter_drain_snd (b : Bytes) : NoDelimiter (sseFinder.drain b).2 := by
  have hnone := Framing.Finder.pop_drain_snd (F := sseFinder) b
  rw [sseFinder_pop, popSseEvent] at hnone
  rcases hfind : findSseDelimiter (sseFinder.drain b).2 with _ | ⟨start, len⟩
  · exact findSseDelimiterFrom_none hfind
  · rw [hfind] at hnone
    exact absurd hnone (by simp)

/-! ### Popping until there is nothing left -/

/-- `while let Some(event) = pop_sse_event(&mut pending)`: the events, and what stays pending. -/
def popSseEventsFor : ℕ → Bytes → List Bytes × Bytes
  | 0, pending => ([], pending)
  | fuel + 1, pending =>
    match popSseEvent pending with
    | none => ([], pending)
    | some (event, rest) =>
      let popped := popSseEventsFor fuel rest
      (event :: popped.1, popped.2)

/-- The loop, which makes no more turns than the buffer has bytes. -/
def popSseEvents (pending : Bytes) : List Bytes × Bytes := popSseEventsFor pending.length pending

/-- Each chunk is appended to what is pending, and the events are popped. -/
def popSseChunks : Bytes → List Bytes → List Bytes × Bytes
  | pending, [] => ([], pending)
  | pending, chunk :: chunks =>
    let popped := popSseEvents (pending ++ chunk)
    let rest := popSseChunks popped.2 chunks
    (popped.1 ++ rest.1, rest.2)

theorem popSseEventsFor_eq_drainN (fuel : ℕ) (pending : Bytes) :
    popSseEventsFor fuel pending = sseFinder.drainN fuel pending := by
  induction fuel generalizing pending with
  | zero => rfl
  | succ fuel ih =>
    rw [popSseEventsFor, Framing.Finder.drainN, sseFinder_pop]
    cases popSseEvent pending with
    | none => rfl
    | some popped => simp only [ih]

theorem popSseChunks_eq_drainChunks (pending : Bytes) (chunks : List Bytes) :
    popSseChunks pending chunks = sseFinder.drainChunks pending chunks := by
  induction chunks generalizing pending with
  | nil => rfl
  | cons chunk chunks ih =>
    rw [popSseChunks, Framing.Finder.drainChunks, popSseEvents, popSseEventsFor_eq_drainN]
    simp only [ih]
    rfl

/-- **Framing is lossless and independent of the chunks.** -/
theorem sseFraming (chunks : List Bytes) :
    (popSseChunks [] chunks).1.flatten ++ (popSseChunks [] chunks).2 = chunks.flatten ∧
    (∀ event ∈ (popSseChunks [] chunks).1, IsSseBlock event) ∧
    NoDelimiter (popSseChunks [] chunks).2 ∧
    popSseEvent (popSseChunks [] chunks).2 = none ∧
    popSseChunks [] chunks = popSseEvents chunks.flatten := by
  have hnone : sseFinder.pop [] = none := rfl
  have hdrain : popSseChunks [] chunks = sseFinder.drain chunks.flatten := by
    rw [popSseChunks_eq_drainChunks, Framing.Finder.drainChunks_eq hnone, List.nil_append]
  rw [hdrain, ← sseFinder_pop]
  exact ⟨Framing.Finder.drain_flatten _, isSseBlock_of_mem_drain _, noDelimiter_drain_snd _,
    Framing.Finder.pop_drain_snd _, (popSseEventsFor_eq_drainN _ _).symm⟩

end AiOpenRouter
