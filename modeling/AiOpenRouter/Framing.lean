/-
Cutting a growing buffer into frames.

A `Finder` says where the first frame of a buffer ends, and carries what makes
the cutting independent of how the bytes arrive: a frame is non-empty, lies
inside the buffer, and stays the first frame when more bytes are appended.

* `drain_append` — draining a buffer, appending more and draining again gives
  the frames of the whole buffer;
* `drainChunks_eq` — so does draining after each of any number of chunks;
* `drain_flatten` — nothing is lost: frames and rest concatenate to the buffer.
-/
import Mathlib.Data.List.Basic

namespace Framing

variable {α : Type*}

structure Finder (α : Type*) where
  find : List α → Option ℕ
  pos : ∀ {b n}, find b = some n → 0 < n
  le_length : ∀ {b n}, find b = some n → n ≤ b.length
  stable : ∀ {b n}, find b = some n → ∀ c, find (b ++ c) = some n

namespace Finder

variable (F : Finder α)

def pop (b : List α) : Option (List α × List α) :=
  (F.find b).map fun n => (b.take n, b.drop n)

/-- Pop frames while there are any, at most `fuel` of them. -/
def drainN : ℕ → List α → List (List α) × List α
  | 0, b => ([], b)
  | fuel + 1, b =>
    match F.pop b with
    | none => ([], b)
    | some (frame, rest) => (frame :: (drainN fuel rest).1, (drainN fuel rest).2)

/-- Pop frames until there is none; a buffer has fewer frames than elements. -/
def drain (b : List α) : List (List α) × List α := F.drainN b.length b

variable {F}

variable {b frame rest : List α}

theorem pop_eq_some (h : F.pop b = some (frame, rest)) :
    ∃ n, F.find b = some n ∧ frame = b.take n ∧ rest = b.drop n := by
  rw [pop, Option.map_eq_some_iff] at h
  obtain ⟨n, hn, heq⟩ := h
  rw [Prod.mk.injEq] at heq
  exact ⟨n, hn, heq.1.symm, heq.2.symm⟩

theorem pop_append (h : F.pop b = some (frame, rest)) : b = frame ++ rest := by
  obtain ⟨n, -, rfl, rfl⟩ := pop_eq_some h
  exact (List.take_append_drop n b).symm

theorem pop_length_lt (h : F.pop b = some (frame, rest)) : rest.length < b.length := by
  obtain ⟨n, hn, -, rfl⟩ := pop_eq_some h
  have h0 := F.pos hn
  have h1 := F.le_length hn
  rw [List.length_drop]
  omega

theorem pop_append_right (h : F.pop b = some (frame, rest)) (c : List α) :
    F.pop (b ++ c) = some (frame, rest ++ c) := by
  obtain ⟨n, hn, rfl, rfl⟩ := pop_eq_some h
  have hle := F.le_length hn
  rw [pop, F.stable hn c, Option.map_some, List.take_append_of_le_length hle,
    List.drop_append_of_le_length hle]

theorem drainN_eq_drain :
    ∀ {fuel : ℕ}, b.length ≤ fuel →
    F.drainN fuel b = F.drain b := by
  suffices H : ∀ {fuel : ℕ} (fuel' : ℕ) {b : List α}, b.length ≤ fuel → b.length ≤ fuel' →
      F.drainN fuel b = F.drainN fuel' b by
    intro fuel h
    exact H b.length h (Nat.le_refl _)
  intro fuel
  induction fuel with
  | zero =>
    intro fuel' b h _
    have hnil : F.pop b = none := by
      rcases hp : F.pop b with _ | ⟨frame, rest⟩
      · rfl
      · have := pop_length_lt hp
        omega
    rcases fuel' with _ | fuel'
    · rfl
    · rw [drainN, drainN, hnil]
  | succ fuel ih =>
    intro fuel' b h h'
    rcases hp : F.pop b with _ | ⟨frame, rest⟩
    · rcases fuel' with _ | fuel'
      · simp only [drainN, hp]
      · simp only [drainN, hp]
    · have hlt := pop_length_lt hp
      rcases fuel' with _ | fuel'
      · omega
      · rw [drainN, hp, drainN, hp]
        simp only
        rw [ih fuel' (by omega) (by omega)]

theorem drain_of_none (h : F.pop b = none) : F.drain b = ([], b) := by
  rw [drain]
  rcases b.length with _ | n
  · rfl
  · rw [drainN, h]

theorem drain_of_some (h : F.pop b = some (frame, rest)) :
    F.drain b = (frame :: (F.drain rest).1, (F.drain rest).2) := by
  have hlt := pop_length_lt h
  obtain ⟨n, hn⟩ : ∃ n, b.length = n + 1 := ⟨b.length - 1, by omega⟩
  rw [drain, hn, drainN, h]
  simp only
  rw [drainN_eq_drain (by omega)]

theorem drain_induction {P : List α → Prop}
    (hnone : ∀ b, F.pop b = none → P b)
    (hsome : ∀ b frame rest, F.pop b = some (frame, rest) → P rest → P b) :
    ∀ b, P b := by
  intro b
  induction hlen : b.length using Nat.strongRecOn generalizing b with
  | _ n ih =>
    rcases hp : F.pop b with _ | ⟨frame, rest⟩
    · exact hnone b hp
    · have hlt := pop_length_lt hp
      exact hsome b frame rest hp (ih rest.length (by omega) rest rfl)

/-- **Frames do not depend on when the rest of the bytes arrives.** -/
theorem drain_append (b c : List α) :
    F.drain (b ++ c)
      = ((F.drain b).1 ++ (F.drain ((F.drain b).2 ++ c)).1,
         (F.drain ((F.drain b).2 ++ c)).2) := by
  induction b using F.drain_induction with
  | hnone b h =>
    rw [drain_of_none h, List.nil_append]
  | hsome b frame rest h ih =>
    rw [drain_of_some h, drain_of_some (pop_append_right h c), ih, List.cons_append]

theorem drain_flatten (b : List α) : (F.drain b).1.flatten ++ (F.drain b).2 = b := by
  induction b using F.drain_induction with
  | hnone b h =>
    rw [drain_of_none h]
    rfl
  | hsome b frame rest h ih =>
    rw [drain_of_some h, List.flatten_cons, List.append_assoc, ih]
    exact (pop_append h).symm

theorem pop_drain_snd (b : List α) : F.pop (F.drain b).2 = none := by
  induction b using F.drain_induction with
  | hnone b h =>
    rw [drain_of_none h]
    exact h
  | hsome b frame rest h ih =>
    rw [drain_of_some h]
    exact ih

variable (F)

/-- Append chunks to a pending buffer, draining it after each. -/
def drainChunks : List α → List (List α) → List (List α) × List α
  | pending, [] => ([], pending)
  | pending, chunk :: chunks =>
    let drained := F.drain (pending ++ chunk)
    let rest := drainChunks drained.2 chunks
    (drained.1 ++ rest.1, rest.2)

variable {F}

/-- **The frames of a chunked stream are those of its concatenation.** -/
theorem drainChunks_eq {pending : List α} (hpending : F.pop pending = none)
    (chunks : List (List α)) :
    F.drainChunks pending chunks = F.drain (pending ++ chunks.flatten) := by
  induction chunks generalizing pending with
  | nil => rw [drainChunks, List.flatten_nil, List.append_nil, drain_of_none hpending]
  | cons chunk chunks ih =>
    rw [drainChunks, ih (pop_drain_snd _), List.flatten_cons, ← List.append_assoc,
      drain_append (pending ++ chunk)]

end Finder

end Framing
