/-
What is logged of a streamed body (`capture_stream_chunk`).

* `captured_of_chunks`: the body is cut at the limit, and when it counts as truncated;
* `captured_iff`: the flag is right, unless the body ends at the limit and an empty chunk follows.
-/
import Mathlib.Data.List.Induction
import Mathlib.Data.Nat.Notation

namespace AiOpenRouter

/-- `MAX_STREAM_LOG_BODY_BYTES`. -/
def maxStreamLogBodyBytes : ℕ := 256 * 1024

/-- What has been captured: `stream_body`, `stream_body_truncated` and `stream_debug_body`. -/
structure StreamCapture where
  body : List UInt8
  truncated : Bool
  debugBody : List UInt8
  deriving DecidableEq

namespace StreamCapture

def start : StreamCapture := ⟨[], false, []⟩

/-- `capture_stream_chunk`. -/
def captureStreamChunk (streamCaptureBody streamDebugCaptureBody : Bool) (capture : StreamCapture)
    (outgoing : List UInt8) : StreamCapture :=
  let capture :=
    if streamCaptureBody && !capture.truncated then
      let remaining := maxStreamLogBodyBytes - capture.body.length
      if remaining = 0 then { capture with truncated := true }
      else if outgoing.length ≤ remaining then { capture with body := capture.body ++ outgoing }
      else { capture with body := capture.body ++ outgoing.take remaining, truncated := true }
    else capture
  if streamDebugCaptureBody then { capture with debugBody := capture.debugBody ++ outgoing }
  else capture

/-- The capture of a stream whose body is logged. -/
def ofChunks (streamDebugCaptureBody : Bool) (chunks : List (List UInt8)) : StreamCapture :=
  chunks.foldl (captureStreamChunk true streamDebugCaptureBody) start

theorem ofChunks_concat (debug : Bool) (chunks : List (List UInt8)) (chunk : List UInt8) :
    ofChunks debug (chunks ++ [chunk]) =
      captureStreamChunk true debug (ofChunks debug chunks) chunk := by
  rw [ofChunks, List.foldl_append]
  rfl

/-! ### One chunk -/

variable {capture : StreamCapture} (debug : Bool) (outgoing : List UInt8)

theorem captureStreamChunk_of_truncated (h : capture.truncated = true) :
    (captureStreamChunk true debug capture outgoing).body = capture.body ∧
      (captureStreamChunk true debug capture outgoing).truncated = true := by
  rw [captureStreamChunk, h]
  cases debug with
  | false => exact ⟨rfl, h⟩
  | true => exact ⟨rfl, h⟩

/-- What is not truncated takes as much as it has room for, and is truncated where it has none, or
not enough. -/
theorem captureStreamChunk_of_open (h : capture.truncated = false) :
    (captureStreamChunk true debug capture outgoing).body =
        capture.body ++ outgoing.take (maxStreamLogBodyBytes - capture.body.length) ∧
      ((captureStreamChunk true debug capture outgoing).truncated = true ↔
        maxStreamLogBodyBytes - capture.body.length = 0 ∨
          maxStreamLogBodyBytes - capture.body.length < outgoing.length) := by
  have hdebug : ∀ next : StreamCapture,
      (if debug then { next with debugBody := next.debugBody ++ outgoing } else next).body =
          next.body ∧
        (if debug then { next with debugBody := next.debugBody ++ outgoing } else next).truncated =
          next.truncated := by
    intro next
    cases debug with
    | false => exact ⟨rfl, rfl⟩
    | true => exact ⟨rfl, rfl⟩
  rw [captureStreamChunk, h, (hdebug _).1, (hdebug _).2]
  dsimp only
  rw [if_pos (by decide)]
  split_ifs with hfull hroom
  · rw [hfull]
    exact ⟨by simp, iff_of_true rfl (.inl rfl)⟩
  · rw [List.take_of_length_le hroom]
    refine ⟨rfl, iff_of_false (by simp) ?_⟩
    omega
  · exact ⟨rfl, iff_of_true rfl (.inr (Nat.lt_of_not_le hroom))⟩

/-! ### Many chunks -/

/-- **What is captured of a stream**: the body up to the limit. It counts as truncated where there
is more, and also where an empty chunk comes last behind a body that ends at the limit. -/
theorem captured_of_chunks (chunks : List (List UInt8)) :
    (ofChunks debug chunks).body = chunks.flatten.take maxStreamLogBodyBytes ∧
      ((ofChunks debug chunks).truncated = true ↔
        maxStreamLogBodyBytes < chunks.flatten.length ∨
          chunks.flatten.length = maxStreamLogBodyBytes ∧ chunks.getLast? = some []) := by
  induction chunks using List.reverseRecOn with
  | nil =>
    refine ⟨rfl, iff_of_false (fun h => nomatch h) ?_⟩
    rintro (hlong | ⟨-, hlast⟩)
    · exact absurd hlong (Nat.not_lt_zero _)
    · cases hlast
  | append_singleton chunks chunk ih =>
    obtain ⟨hbody, hflag⟩ := ih
    have hflat : (chunks ++ [chunk]).flatten = chunks.flatten ++ chunk := by simp
    have hlast : (chunks ++ [chunk]).getLast? = some [] ↔ chunk.length = 0 := by simp
    rw [ofChunks_concat, hflat, hlast, List.length_append]
    cases htruncated : (ofChunks debug chunks).truncated with
    | true =>
      obtain ⟨hkeep, htrue⟩ := captureStreamChunk_of_truncated debug chunk htruncated
      have hfull : maxStreamLogBodyBytes ≤ chunks.flatten.length := by
        rcases hflag.1 htruncated with hlong | ⟨heq, -⟩
        · exact Nat.le_of_lt hlong
        · exact Nat.le_of_eq heq.symm
      rw [hkeep, htrue, hbody, List.take_append_of_le_length hfull]
      refine ⟨rfl, iff_of_true rfl ?_⟩
      omega
    | false =>
      obtain ⟨htaken, hiff⟩ := captureStreamChunk_of_open debug chunk htruncated
      have hfits : chunks.flatten.length ≤ maxStreamLogBodyBytes := by
        rw [htruncated] at hflag
        by_contra hlong
        exact absurd (hflag.2 (.inl (Nat.lt_of_not_le hlong))) (by decide)
      rw [hbody, List.take_of_length_le hfits] at htaken hiff
      rw [htaken, hiff, List.take_append, List.take_of_length_le hfits]
      refine ⟨rfl, ?_⟩
      omega

/-- **The capture is right** exactly when no empty chunk comes last behind a body that ends at the
limit. -/
theorem captured_iff (chunks : List (List UInt8)) :
    ((ofChunks debug chunks).body =
          chunks.flatten.take (min chunks.flatten.length maxStreamLogBodyBytes) ∧
        ((ofChunks debug chunks).truncated = true ↔
          maxStreamLogBodyBytes < chunks.flatten.length)) ↔
      ¬(chunks.flatten.length = maxStreamLogBodyBytes ∧ chunks.getLast? = some []) := by
  obtain ⟨hbody, hflag⟩ := captured_of_chunks debug chunks
  rw [hbody, hflag, Nat.min_comm, ← List.take_take, List.take_length]
  constructor
  · rintro ⟨-, hiff⟩ ⟨hlength, hlast⟩
    have hlong := hiff.1 (.inr ⟨hlength, hlast⟩)
    omega
  · intro hnot
    exact ⟨rfl, or_iff_left hnot⟩

/-- A body that ends at the limit, and an empty chunk. -/
theorem captured_empty_chunk :
    ¬((ofChunks false [List.replicate maxStreamLogBodyBytes 0, []]).truncated = true ↔
      maxStreamLogBodyBytes <
        ([List.replicate maxStreamLogBodyBytes 0, []] : List (List UInt8)).flatten.length) := by
  have hlength : ([List.replicate maxStreamLogBodyBytes 0, []] :
      List (List UInt8)).flatten.length = maxStreamLogBodyBytes := by simp
  have hflag := (captured_of_chunks false [List.replicate maxStreamLogBodyBytes 0, []]).2
  rw [hlength] at hflag ⊢
  rw [hflag]
  intro hiff
  exact absurd (hiff.1 (.inr ⟨rfl, rfl⟩)) (Nat.lt_irrefl _)

end StreamCapture

end AiOpenRouter
