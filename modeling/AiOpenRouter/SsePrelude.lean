/-
The probe of `handle_proxy_request`, which a stream without a content type of its own has to pass.

`looks_like_sse_prelude` decodes at most 256 bytes of the first chunk, leaves out a byte order mark
and white space, and looks for `event:`, `data:` or a colon.

* `looksLikeSsePrelude_iff`: the bytes that pass the probe;
* `probe_iff`: an event stream is accepted exactly where its first line is a comment or a field
  `event` or `data`, and the first chunk reaches its colon; a byte stream is treated alike however
  it is cut exactly where it starts with a colon, or the whole of it does not pass.
-/
import AiOpenRouter.LossyDecoding
import AiOpenRouter.ProxyPipeline
import AiOpenRouter.StreamLoop

open AiOpenRouter.Text

namespace AiOpenRouter

/-! ### The task of a stream -/

/-- `sse_fallback_probe_enabled`. -/
def sseFallbackProbeEnabled (stream : Bool) (contentType : String) : Bool :=
  stream && !containsText contentType "text/event-stream" &&
    !containsText contentType "application/json" &&
    (contentType = "" || containsText contentType "text/plain")

def passThrough (bodyEnd : BodyEnd) : List Bytes → List (Sent UInt8)
  | [] =>
    match bodyEnd with
    | .eof => []
    | .readError => [.error "stream read failed"]
  | bytes :: chunks => .data bytes :: passThrough bodyEnd chunks

/-- The task of a stream: without a route, for a transformer that needs no buffer. -/
def streamTask (route : Option (StreamRoute UInt8)) (probe : Bool) (bodyEnd : BodyEnd)
    (chunks : List Bytes) (ctx : StreamContext) : List (Sent UInt8) :=
  match route with
  | some route => handleStream route probe bodyEnd chunks ctx
  | none =>
    if passesProbe probe chunks then passThrough bodyEnd chunks
    else [.error "upstream stream probe failed: non-SSE payload"]

def RejectedAsNonSse (sent : List (Sent UInt8)) : Prop :=
  .error "upstream stream probe failed: non-SSE payload" ∈ sent

def loopErrors : List String :=
  ["stream transform buffer overflow", "stream transform failed", "stream read failed"]

variable {message : String} {bodyEnd : BodyEnd} {chunks : List Bytes} {route : StreamRoute UInt8}
  {text : List Char}

theorem error_mem_sendData {out : List UInt8} : Sent.error message ∉ sendData out := by
  rw [sendData]
  split_ifs <;> simp

theorem error_mem_sendFinalizerOr {message' : String} {ctx : StreamContext}
    (h : Sent.error message ∈ (sendFinalizerOr route message' ctx).1) : message = message' := by
  have h : _ ∈ (if (route.finalize ctx).1.isEmpty then [Sent.error message'] else
      [.data (route.finalize ctx).1]) := h
  split_ifs at h
  · exact Sent.error.inj (List.mem_singleton.1 h)
  · exact absurd (List.mem_singleton.1 h) (by simp)

theorem error_mem_onBodyEnd {pending : Bytes} {ctx : StreamContext}
    (h : Sent.error message ∈ onBodyEnd route bodyEnd pending ctx) : message ∈ loopErrors := by
  cases bodyEnd with
  | readError =>
    rw [error_mem_sendFinalizerOr h]
    decide
  | eof =>
    rcases List.mem_append.1 (show _ ∈ _ ++ _ from h) with htail | hdata
    · rw [convertTail] at htail
      split_ifs at htail
      · exact absurd htail List.not_mem_nil
      · split at htail
        · exact absurd htail error_mem_sendData
        · rw [error_mem_sendFinalizerOr htail]
          decide
    · exact absurd hdata error_mem_sendData

theorem error_mem_streamLoop :
    ∀ {chunks : List Bytes} {pending : Bytes} {ctx : StreamContext},
      Sent.error message ∈ streamLoop route bodyEnd chunks pending ctx → message ∈ loopErrors := by
  intro chunks
  induction chunks with
  | nil => exact fun h => error_mem_onBodyEnd h
  | cons bytes chunks ih =>
    intro pending ctx h
    simp only [streamLoop] at h
    split_ifs at h
    · rw [error_mem_sendFinalizerOr h]
      decide
    · split at h
      · rw [error_mem_sendFinalizerOr h]
        decide
      · exact (List.mem_append.1 h).elim (fun hdata => absurd hdata error_mem_sendData) ih

theorem error_mem_passThrough (h : Sent.error message ∈ passThrough bodyEnd chunks) :
    message ∈ loopErrors := by
  induction chunks with
  | nil =>
    cases bodyEnd with
    | eof => exact absurd h List.not_mem_nil
    | readError =>
      rw [Sent.error.inj (List.mem_singleton.1 h)]
      decide
  | cons bytes chunks ih =>
    rw [passThrough] at h
    exact ih ((List.mem_cons.1 h).resolve_left (by simp))

theorem rejectedAsNonSse_iff (route : Option (StreamRoute UInt8)) (probe : Bool)
    (bodyEnd : BodyEnd) (chunks : List Bytes) (ctx : StreamContext) :
    RejectedAsNonSse (streamTask route probe bodyEnd chunks ctx) ↔
      passesProbe probe chunks = false := by
  have hloop : "upstream stream probe failed: non-SSE payload" ∉ loopErrors := by decide
  rw [RejectedAsNonSse]
  cases hpass : passesProbe probe chunks with
  | false =>
    refine iff_of_true ?_ rfl
    cases route <;> simp [streamTask, handleStream, hpass]
  | true =>
    refine iff_of_false (fun h => hloop ?_) (by simp)
    cases route with
    | none =>
      rw [streamTask, hpass, if_pos rfl] at h
      exact error_mem_passThrough h
    | some route =>
      rw [streamTask, handleStream, hpass, if_pos rfl] at h
      exact error_mem_streamLoop h

/-! ### What passes the probe -/

/-- What is left out before a name: white space, after a byte order mark or not. -/
def IsLead (lead : List Char) : Prop :=
  lead.all isWhitespace = true ∨
    ∃ blanks, lead = '\uFEFF' :: blanks ∧ blanks.all isWhitespace = true

def IsProbedName (name : List Char) : Prop :=
  name.map Char.toLower ∈ ["event:".toList, "data:".toList, ":".toList]

instance (name : List Char) : Decidable (IsProbedName name) := inferInstanceAs (Decidable (_ ∈ _))

/-- The first 256 bytes start with a name. -/
def HasPrelude (bytes : Bytes) : Prop :=
  ∃ lead name, IsLead lead ∧ IsProbedName name ∧
    (lead ++ name).flatMap String.utf8EncodeChar <+: bytes.take 256

def withoutLead (text : List Char) : List Char :=
  trimStart ((stripPrefix "\uFEFF" text).getD text)

theorem stripPrefix_isSome_iff {pre : String} {s : List Char} :
    (stripPrefix pre s).isSome = true ↔ pre.toList <+: s := by
  rw [Option.isSome_iff_exists]
  constructor
  · rintro ⟨rest, h⟩
    exact ⟨rest, (stripPrefix_eq_some h).symm⟩
  · rintro ⟨rest, rfl⟩
    exact ⟨rest, stripPrefix_append pre rest⟩

def IsPlainHead (text : List Char) : Prop :=
  ∀ c ∈ text.head?, isWhitespace c = false ∧ c ≠ '\uFEFF'

theorem trimStart_append {blanks : List Char} (hblanks : blanks.all isWhitespace = true)
    (htext : IsPlainHead text) : trimStart (blanks ++ text) = text := by
  rw [trimStart, List.dropWhile_append_of_pos (List.all_eq_true.1 hblanks)]
  cases text with
  | nil => rfl
  | cons c text => exact List.dropWhile_cons_of_neg (by simp [(htext c rfl).1])

theorem getD_stripPrefix_of_ne (h : ∀ c ∈ text.head?, c ≠ '\uFEFF') :
    (stripPrefix "\uFEFF" text).getD text = text := by
  cases hstrip : stripPrefix "\uFEFF" text with
  | none => rfl
  | some rest => exact absurd rfl (h '\uFEFF' (by rw [stripPrefix_eq_some hstrip]; rfl))

theorem withoutLead_append {lead text : List Char} (hlead : IsLead lead)
    (htext : IsPlainHead text) : withoutLead (lead ++ text) = text := by
  rcases hlead with hblanks | ⟨blanks, rfl, hblanks⟩
  · rw [withoutLead, getD_stripPrefix_of_ne]
    · exact trimStart_append hblanks htext
    · cases lead with
      | nil => exact fun c hc => (htext c hc).2
      | cons d lead =>
        rintro c hc rfl
        cases hc
        exact absurd (List.all_eq_true.1 hblanks _ List.mem_cons_self) (by decide)
  · have hstrip : stripPrefix "\uFEFF" ('\uFEFF' :: blanks ++ text) = some (blanks ++ text) :=
      stripPrefix_append "\uFEFF" (blanks ++ text)
    rw [withoutLead, hstrip]
    exact trimStart_append hblanks htext

theorem exists_lead (text : List Char) : ∃ lead, IsLead lead ∧ text = lead ++ withoutLead text := by
  cases hstrip : stripPrefix "\uFEFF" text with
  | none =>
    refine ⟨text.takeWhile isWhitespace, .inl List.all_takeWhile, ?_⟩
    rw [withoutLead, hstrip]
    exact List.takeWhile_append_dropWhile.symm
  | some rest =>
    refine ⟨'\uFEFF' :: rest.takeWhile isWhitespace, .inr ⟨_, rfl, List.all_takeWhile⟩, ?_⟩
    rw [withoutLead, hstrip]
    exact (stripPrefix_eq_some hstrip).trans
      (congrArg ('\uFEFF' :: ·) List.takeWhile_append_dropWhile.symm)

theorem toLower_of_isWhitespace {c : Char} (h : isWhitespace c = true) : c.toLower = c := by
  refine dif_neg fun hupper => ?_
  have hlow : 65 ≤ c.toNat := hupper.1
  have hhigh : c.toNat ≤ 90 := hupper.2
  simp only [isWhitespace, Bool.or_eq_true, Bool.and_eq_true, decide_eq_true_eq] at h
  omega

theorem IsProbedName.ne_nil {name : List Char} (h : IsProbedName name) : name ≠ [] := by
  rintro rfl
  exact absurd h (by decide)

theorem IsProbedName.plainHead {name : List Char} (h : IsProbedName name) (more : List Char) :
    IsPlainHead (name ++ more) := by
  obtain ⟨c, name, rfl⟩ := List.exists_cons_of_ne_nil h.ne_nil
  rintro d hd
  cases hd
  have hlower : c.toLower = 'e' ∨ c.toLower = 'd' ∨ c.toLower = ':' := by
    rw [IsProbedName, List.map_cons] at h
    rcases List.mem_cons.1 h with h | h
    · exact .inl (List.cons.inj h).1
    · rcases List.mem_cons.1 h with h | h
      · exact .inr (.inl (List.cons.inj h).1)
      · exact .inr (.inr (List.cons.inj (List.mem_singleton.1 h)).1)
  constructor
  · rw [Bool.eq_false_iff]
    intro hspace
    rw [toLower_of_isWhitespace hspace] at hlower
    rcases hlower with rfl | rfl | rfl <;> exact absurd hspace (by decide)
  · rintro rfl
    exact absurd hlower (by decide)

theorem probed_iff :
    ((stripPrefix "event:" (text.map Char.toLower)).isSome ||
        (stripPrefix "data:" (text.map Char.toLower)).isSome ||
        (stripPrefix ":" (text.map Char.toLower)).isSome) = true ↔
      ∃ name more, IsProbedName name ∧ text = name ++ more := by
  have hprefix : ∀ pre : String, (stripPrefix pre (text.map Char.toLower)).isSome = true ↔
      ∃ name more, name.map Char.toLower = pre.toList ∧ text = name ++ more := by
    intro pre
    rw [stripPrefix_isSome_iff]
    constructor
    · rintro ⟨rest, hrest⟩
      obtain ⟨name, more, htext, hname, -⟩ := List.map_eq_append_iff.1 hrest.symm
      exact ⟨name, more, hname, htext⟩
    · rintro ⟨name, more, hname, rfl⟩
      rw [List.map_append, hname]
      exact List.prefix_append _ _
  rw [Bool.or_eq_true, Bool.or_eq_true, hprefix, hprefix, hprefix]
  constructor
  · rintro ((⟨name, more, hname, htext⟩ | ⟨name, more, hname, htext⟩) | ⟨name, more, hname, htext⟩)
    · exact ⟨name, more, by simp [IsProbedName, hname], htext⟩
    · exact ⟨name, more, by simp [IsProbedName, hname], htext⟩
    · exact ⟨name, more, by simp [IsProbedName, hname], htext⟩
  · rintro ⟨name, more, hname, htext⟩
    rcases List.mem_cons.1 hname with hname | hname
    · exact .inl (.inl ⟨name, more, hname, htext⟩)
    · rcases List.mem_cons.1 hname with hname | hname
      · exact .inl (.inr ⟨name, more, hname, htext⟩)
      · exact .inr ⟨name, more, List.mem_singleton.1 hname, htext⟩

theorem not_mem_lead_name {lead name : List Char} (hlead : IsLead lead)
    (hname : IsProbedName name) : '\uFFFD' ∉ lead ++ name := by
  have hblanks : ∀ blanks : List Char, blanks.all isWhitespace = true → '\uFFFD' ∉ blanks :=
    fun blanks h hmem => absurd (List.all_eq_true.1 h _ hmem) (by decide)
  intro hmem
  rcases List.mem_append.1 hmem with hmem | hmem
  · rcases hlead with h | ⟨blanks, rfl, h⟩
    · exact hblanks lead h hmem
    · exact (List.mem_cons.1 hmem).elim (by decide) (hblanks blanks h)
  · have hlower : '\uFFFD' ∈ name.map Char.toLower := List.mem_map.2 ⟨_, hmem, by decide⟩
    rcases List.mem_cons.1 hname with h | h
    · exact absurd (h ▸ hlower) (by decide)
    · rcases List.mem_cons.1 h with h | h
      · exact absurd (h ▸ hlower) (by decide)
      · exact absurd (List.mem_singleton.1 h ▸ hlower) (by decide)

/-- **What passes the probe.** -/
theorem looksLikeSsePrelude_iff (chunk : Bytes) :
    looksLikeSsePrelude chunk = true ↔ HasPrelude chunk := by
  have hpassed : looksLikeSsePrelude chunk = true ↔ ∃ name more, IsProbedName name ∧
      withoutLead (fromUtf8Lossy (chunk.take 256)) = name ++ more := by
    rw [← probed_iff, looksLikeSsePrelude]
    split_ifs with hnil
    · subst hnil
      exact iff_of_false (by simp) (by decide)
    · exact Iff.rfl
  rw [hpassed]
  constructor
  · rintro ⟨name, more, hname, hrest⟩
    obtain ⟨lead, hlead, htext⟩ := exists_lead (fromUtf8Lossy (chunk.take 256))
    refine ⟨lead, name, hlead, hname, ?_⟩
    rw [← prefix_fromUtf8Lossy_iff (not_mem_lead_name hlead hname), htext, hrest,
      ← List.append_assoc]
    exact List.prefix_append _ _
  · rintro ⟨lead, name, hlead, hname, hbytes⟩
    rw [← prefix_fromUtf8Lossy_iff (not_mem_lead_name hlead hname)] at hbytes
    obtain ⟨more, hmore⟩ := hbytes
    refine ⟨name, more, hname, ?_⟩
    rw [← hmore, List.append_assoc, withoutLead_append hlead (hname.plainHead more)]

/-! ### Event streams -/

inductive FirstLine where
  | comment
  | event
  | data
  | id
  | retry
  deriving DecidableEq

/-- The text before the colon of the line. -/
def FirstLine.name : FirstLine → List Char
  | comment => []
  | event => ['e', 'v', 'e', 'n', 't']
  | data => ['d', 'a', 't', 'a']
  | id => ['i', 'd']
  | retry => ['r', 'e', 't', 'r', 'y']

/-- The bytes of an event stream: blank lines, after a byte order mark or not, and a first line
that is a comment or a field. -/
structure EventStream where
  marked : Bool
  blanks : List Char
  firstLine : FirstLine
  /-- What follows the name of the first line. -/
  rest : Bytes
  blank : ∀ c ∈ blanks, c = ' ' ∨ c = '\t' ∨ c = '\n' ∨ c = '\r'
  ended : ∀ c ∈ blanks.getLast?, c = '\n' ∨ c = '\r'
  /-- A field may have no colon. -/
  named : rest.head? = some 58 ∨ firstLine ≠ .comment ∧ ∀ b ∈ rest.head?, b = 10 ∨ b = 13

namespace EventStream

variable (s : EventStream)

def lead : List Char := (if s.marked then ['\uFEFF'] else []) ++ s.blanks

/-- The bytes up to the end of the first name. -/
def head : Bytes := (s.lead ++ s.firstLine.name).flatMap String.utf8EncodeChar

def bytes : Bytes := s.head ++ s.rest

/-- The first line is a comment or a field `event` or `data` with its colon, and the colon stands in
the first 256 bytes of a chunk. -/
def NamedIn (chunk : Bytes) : Prop :=
  (s.firstLine = .comment ∨ s.firstLine = .event ∨ s.firstLine = .data) ∧
    s.rest.head? = some 58 ∧ s.head.length < min chunk.length 256

instance (chunk : Bytes) : Decidable (s.NamedIn chunk) := inferInstanceAs (Decidable (_ ∧ _ ∧ _))

theorem isLead_lead : IsLead s.lead := by
  have hblanks : s.blanks.all isWhitespace = true := List.all_eq_true.2 fun c hc => by
    rcases s.blank c hc with rfl | rfl | rfl | rfl <;> rfl
  rw [lead]
  split_ifs
  · exact .inr ⟨s.blanks, rfl, hblanks⟩
  · exact .inl hblanks

/-- What follows the lead, decoded. -/
def tail : List Char := s.firstLine.name ++ fromUtf8Lossy s.rest

theorem fromUtf8Lossy_bytes : fromUtf8Lossy s.bytes = s.lead ++ s.tail := by
  rw [bytes, head, fromUtf8Lossy_append, tail, List.append_assoc]

theorem decoded_rest : (s.rest.head? = some 58 ∧ ∃ more, fromUtf8Lossy s.rest = ':' :: more) ∨
    s.firstLine ≠ .comment ∧ ∀ c ∈ (fromUtf8Lossy s.rest).head?, c = '\n' ∨ c = '\r' := by
  have hdecode : ∀ (b : UInt8) (rest : Bytes), b < 0x80 →
      fromUtf8Lossy (b :: rest) = Char.ofNat b.toNat :: fromUtf8Lossy rest := fun b rest hb => by
    rw [fromUtf8Lossy.eq_def]
    exact if_pos hb
  rcases s.named with hcolon | ⟨hfield, hend⟩
  · refine .inl ⟨hcolon, ?_⟩
    cases hrest : s.rest with
    | nil => rw [hrest] at hcolon; cases hcolon
    | cons b rest =>
      rw [hrest] at hcolon
      cases hcolon
      exact ⟨_, hdecode 58 rest (by decide)⟩
  · refine .inr ⟨hfield, ?_⟩
    cases hrest : s.rest with
    | nil =>
      rw [fromUtf8Lossy]
      exact fun c hc => absurd hc (by simp)
    | cons b rest =>
      rw [hrest] at hend
      rcases hend b rfl with rfl | rfl
      · rw [hdecode 10 rest (by decide)]
        exact fun c hc => .inl (Option.some.inj hc).symm
      · rw [hdecode 13 rest (by decide)]
        exact fun c hc => .inr (Option.some.inj hc).symm

theorem plainHead_tail : IsPlainHead s.tail := by
  intro c hc
  rw [tail] at hc
  cases hline : s.firstLine with
  | comment =>
    rw [hline] at hc
    rcases s.decoded_rest with ⟨-, more, hmore⟩ | ⟨hfield, -⟩
    · rw [hmore] at hc
      cases hc
      decide
    · exact absurd hline hfield
  | event | data | id | retry =>
    rw [hline] at hc
    cases hc
    decide

end EventStream

theorem FirstLine.eq_of_prefix {line : FirstLine} {name rest : List Char}
    (hname : name ∈ ["event:".toList, "data:".toList, ":".toList])
    (hcolon : line = .comment → rest.head? = some ':') (h : name <+: line.name ++ rest) :
    name = line.name ++ [':'] ∧ rest.head? = some ':' ∧
      (line = .comment ∨ line = .event ∨ line = .data) := by
  obtain ⟨more, hmore⟩ := h
  have hname : name = "event:".toList ∨ name = "data:".toList ∨ name = ":".toList := by
    simpa using hname
  cases line with
  | comment =>
    have hcolon := hcolon rfl
    rw [FirstLine.name, List.nil_append] at hmore
    rcases hname with rfl | rfl | rfl
    · rw [← hmore] at hcolon
      exact absurd hcolon (by simp)
    · rw [← hmore] at hcolon
      exact absurd hcolon (by simp)
    · exact ⟨rfl, hcolon, .inl rfl⟩
  | event | data | id | retry =>
    rcases hname with rfl | rfl | rfl <;> simp [FirstLine.name] at hmore ⊢
    all_goals simp [← hmore]

namespace EventStream

variable (s : EventStream)

theorem map_toLower_name (line : FirstLine) : line.name.map Char.toLower = line.name := by
  cases line <;> rfl

theorem probedName_iff {name more : List Char} (htail : s.tail = name ++ more) :
    IsProbedName name ↔ name = s.firstLine.name ++ [':'] ∧
      (s.firstLine = .comment ∨ s.firstLine = .event ∨ s.firstLine = .data) := by
  constructor
  · intro hname
    have hprefix : name.map Char.toLower <+:
        s.firstLine.name ++ (fromUtf8Lossy s.rest).map Char.toLower := by
      rw [← map_toLower_name s.firstLine, ← List.map_append]
      exact (List.prefix_append name more).map _ |>.trans (htail ▸ List.prefix_rfl)
    have hrest : (s.firstLine = .comment →
        ((fromUtf8Lossy s.rest).map Char.toLower).head? = some ':') := fun hcomment => by
      rcases s.decoded_rest with ⟨-, d, hd⟩ | ⟨hfield, -⟩
      · rw [hd]
        rfl
      · exact absurd hcomment hfield
    obtain ⟨hlower, hhead, hline⟩ := FirstLine.eq_of_prefix hname hrest hprefix
    refine ⟨?_, hline⟩
    rcases s.decoded_rest with ⟨-, d, hd⟩ | ⟨-, hend⟩
    · have hlength : name.length = (s.firstLine.name ++ [':']).length := by
        rw [← hlower, List.length_map]
      have htail : name ++ more = (s.firstLine.name ++ [':']) ++ d := by
        rw [← htail, tail, hd, List.append_assoc]
        rfl
      exact (List.append_inj htail hlength).1
    · cases hd : fromUtf8Lossy s.rest with
      | nil => rw [hd] at hhead; cases hhead
      | cons c d =>
        rw [hd] at hhead hend
        rcases hend c rfl with rfl | rfl <;> exact absurd (Option.some.inj hhead) (by decide)
  · rintro ⟨rfl, hline⟩
    rcases hline with h | h | h <;> rw [h] <;> decide

theorem head_rest_of_tail {more : List Char} (h : s.tail = s.firstLine.name ++ ':' :: more) :
    s.rest.head? = some 58 := by
  have hrest : fromUtf8Lossy s.rest = ':' :: more := List.append_cancel_left h
  rcases s.decoded_rest with ⟨hcolon, -⟩ | ⟨-, hend⟩
  · exact hcolon
  · rw [hrest] at hend
    exact absurd (hend ':' rfl) (by decide)

theorem flatMap_name : (s.lead ++ (s.firstLine.name ++ [':'])).flatMap String.utf8EncodeChar =
    s.head ++ [58] := by
  rw [← List.append_assoc, List.flatMap_append]
  rfl

/-- **An event stream and the probe of its first chunk.** -/
theorem passes_iff {chunk : Bytes} (hchunk : chunk <+: s.bytes) :
    looksLikeSsePrelude chunk = true ↔ s.NamedIn chunk := by
  rw [looksLikeSsePrelude_iff]
  have htake : chunk.take 256 <+: s.bytes := (List.take_prefix 256 chunk).trans hchunk
  have hlength : (chunk.take 256).length = min 256 chunk.length := List.length_take
  constructor
  · rintro ⟨lead, name, hlead, hname, hbytes⟩
    have hdecoded := (prefix_fromUtf8Lossy_iff (not_mem_lead_name hlead hname)).2
      (hbytes.trans htake)
    rw [fromUtf8Lossy_bytes] at hdecoded
    obtain ⟨more, hmore⟩ := hdecoded
    rw [List.append_assoc] at hmore
    -- the decoded text begins with the name, and so does the probed tail
    have htail : s.tail = name ++ more := by
      rw [← withoutLead_append s.isLead_lead s.plainHead_tail, ← hmore,
        withoutLead_append hlead (hname.plainHead more)]
    obtain ⟨rfl, hline⟩ := (s.probedName_iff htail).1 hname
    have hsame : lead = s.lead := by
      rw [htail] at hmore
      exact List.append_cancel_right hmore
    refine ⟨hline, s.head_rest_of_tail (htail.trans (List.append_assoc ..)), ?_⟩
    have hle := hbytes.length_le
    rw [hsame, flatMap_name, List.length_append, List.length_singleton] at hle
    omega
  · rintro ⟨hline, hcolon, hlt⟩
    refine ⟨s.lead, s.firstLine.name ++ [':'], s.isLead_lead, ?_, ?_⟩
    · rcases hline with h | h | h <;> rw [h] <;> decide
    · -- all of the name is inside the 256 bytes
      rw [flatMap_name]
      refine List.prefix_of_prefix_length_le ?_ htake ?_
      · obtain ⟨rest, hrest⟩ : ∃ rest, s.rest = 58 :: rest := by
          cases hrest : s.rest with
          | nil => rw [hrest] at hcolon; cases hcolon
          | cons b rest =>
            rw [hrest] at hcolon
            exact ⟨rest, by rw [Option.some.inj hcolon]⟩
        exact ⟨rest, by rw [bytes, hrest, List.append_assoc]; rfl⟩
      · rw [List.length_append, List.length_singleton]
        omega

theorem bytes_ne_nil : s.bytes ≠ [] := by
  intro h
  have hdecoded := s.fromUtf8Lossy_bytes
  rw [h] at hdecoded
  obtain ⟨hname, hrest⟩ := List.append_eq_nil_iff.1
    (show s.firstLine.name ++ fromUtf8Lossy s.rest = [] from
      (List.append_eq_nil_iff.1 hdecoded.symm).2)
  rcases s.decoded_rest with ⟨-, more, hmore⟩ | ⟨hfield, -⟩
  · rw [hrest] at hmore
    cases hmore
  · cases hline : s.firstLine with
    | comment => exact hfield hline
    | event | data | id | retry => rw [hline] at hname; cases hname

end EventStream

/-! ### Cuttings -/

/-- The chunks of a byte stream, none of them empty. -/
def IsCutting (bytes : Bytes) (chunks : List Bytes) : Prop :=
  chunks.flatten = bytes ∧ [] ∉ chunks

theorem passesProbe_cons (chunk : Bytes) (chunks : List Bytes) :
    passesProbe true (chunk :: chunks) = looksLikeSsePrelude chunk := rfl

theorem HasPrelude.mono {chunk bytes : Bytes} (h : HasPrelude chunk) (hle : chunk <+: bytes) :
    HasPrelude bytes := by
  obtain ⟨lead, name, hlead, hname, hbytes⟩ := h
  exact ⟨lead, name, hlead, hname, hbytes.trans (hle.take 256)⟩

theorem length_le_flatMap (text : List Char) :
    text.length ≤ (text.flatMap String.utf8EncodeChar).length := by
  induction text with
  | nil => exact Nat.le_refl 0
  | cons c text ih =>
    have hpos := List.length_pos_iff.2 (utf8EncodeChar_ne_nil c)
    rw [List.flatMap_cons, List.length_append, List.length_cons]
    omega

theorem eq_of_toLower_colon {c : Char} (h : c.toLower = ':') : c = ':' := by
  unfold Char.toLower at h
  split at h
  · next hupper =>
    have hval : (c.val + ('a'.val - 'A'.val)).toNat = 58 := congrArg Char.toNat h
    have hlow : 65 ≤ c.val.toNat := hupper.1
    have hhigh : c.val.toNat ≤ 90 := hupper.2
    have hdiff : ('a'.val - 'A'.val).toNat = 32 := rfl
    rw [UInt32.toNat_add, hdiff] at hval
    omega
  · exact h

theorem HasPrelude.eq_colon {b : UInt8} (h : HasPrelude [b]) : b = 58 := by
  obtain ⟨lead, name, hlead, hname, hbytes⟩ := h
  obtain ⟨c, name, rfl⟩ := List.exists_cons_of_ne_nil hname.ne_nil
  have hle := (length_le_flatMap (lead ++ c :: name)).trans hbytes.length_le
  rw [List.length_append, List.length_cons] at hle
  have hle : lead.length + (name.length + 1) ≤ 1 := hle
  obtain rfl : lead = [] := List.length_eq_zero_iff.1 (by omega)
  obtain rfl : name = [] := List.length_eq_zero_iff.1 (by omega)
  have hlower : c.toLower = ':' := by simpa [IsProbedName] using hname
  rw [eq_of_toLower_colon hlower] at hbytes
  exact (List.cons.inj (hbytes.eq_of_length rfl)).1.symm

theorem hasPrelude_colon (rest : Bytes) : HasPrelude (58 :: rest) :=
  ⟨[], [':'], .inl rfl, by decide, ⟨rest.take 255, rfl⟩⟩

theorem not_hasPrelude_nil : ¬HasPrelude [] := fun h =>
  absurd ((looksLikeSsePrelude_iff []).2 h) (by simp [looksLikeSsePrelude])

theorem IsCutting.exists_cons {bytes : Bytes} (h : IsCutting bytes chunks) (hbytes : bytes ≠ []) :
    ∃ chunk rest, chunks = chunk :: rest ∧ chunk ≠ [] ∧ chunk <+: bytes := by
  obtain ⟨hflatten, hempty⟩ := h
  cases chunks with
  | nil => exact absurd hflatten.symm hbytes
  | cons chunk rest =>
    refine ⟨chunk, rest, rfl, fun hnil => hempty (hnil ▸ List.mem_cons_self), rest.flatten, ?_⟩
    rw [← hflatten, List.flatten_cons]

theorem IsCutting.eq_nil (h : IsCutting [] chunks) : chunks = [] := by
  cases chunks with
  | nil => rfl
  | cons chunk rest =>
    have hchunk : chunk = [] := (List.append_eq_nil_iff.1 h.1).1
    exact absurd (hchunk ▸ List.mem_cons_self) h.2

theorem alike_iff (bytes : Bytes) :
    (∀ chunks chunks', IsCutting bytes chunks → IsCutting bytes chunks' →
      (passesProbe true chunks = false ↔ passesProbe true chunks' = false)) ↔
    bytes.head? = some 58 ∨ ¬HasPrelude bytes := by
  constructor
  · intro halike
    by_contra hnot
    obtain ⟨hcolon, hprelude⟩ := not_or.1 hnot
    rw [not_not] at hprelude
    cases bytes with
    | nil => exact not_hasPrelude_nil hprelude
    | cons b rest =>
      have hfirst : ¬HasPrelude [b] := fun h => hcolon (congrArg some h.eq_colon)
      have hrest : rest ≠ [] := fun hnil => hfirst (hnil ▸ hprelude)
      have hsame := halike [b :: rest] [[b], rest] ⟨List.append_nil _, by simp⟩
        ⟨by simp, by simp [Ne.symm hrest]⟩
      rw [passesProbe_cons, passesProbe_cons, ← Bool.not_eq_true, ← Bool.not_eq_true,
        looksLikeSsePrelude_iff, looksLikeSsePrelude_iff] at hsame
      exact hsame.2 hfirst hprelude
  · intro hbytes chunks chunks' hcut hcut'
    rcases eq_or_ne bytes [] with rfl | hne
    · rw [hcut.eq_nil, hcut'.eq_nil]
    · obtain ⟨chunk, rest, rfl, hchunk, hprefix⟩ := hcut.exists_cons hne
      obtain ⟨chunk', rest', rfl, hchunk', hprefix'⟩ := hcut'.exists_cons hne
      rw [passesProbe_cons, passesProbe_cons, ← Bool.not_eq_true, ← Bool.not_eq_true,
        looksLikeSsePrelude_iff, looksLikeSsePrelude_iff]
      rcases hbytes with hcolon | hnone
      · have hstarts : ∀ chunk : Bytes, chunk ≠ [] → chunk <+: bytes → HasPrelude chunk := by
          intro chunk hchunk hprefix
          obtain ⟨b, tail, rfl⟩ := List.exists_cons_of_ne_nil hchunk
          obtain ⟨more, rfl⟩ := hprefix
          rw [Option.some.inj hcolon]
          exact hasPrelude_colon tail
        exact iff_of_false (not_not.2 (hstarts chunk hchunk hprefix))
          (not_not.2 (hstarts chunk' hchunk' hprefix'))
      · exact iff_of_true (fun h => hnone (h.mono hprefix)) fun h => hnone (h.mono hprefix')

/-- **The probe and the cutting of the stream.** -/
theorem probe_iff (route : Option (StreamRoute UInt8)) (stream : Bool) (contentType : String)
    (h : sseFallbackProbeEnabled stream contentType = true) (bodyEnd : BodyEnd)
    (ctx : StreamContext) :
    (∀ (s : EventStream) (chunks : List Bytes), IsCutting s.bytes chunks →
      (¬RejectedAsNonSse (streamTask route (sseFallbackProbeEnabled stream contentType) bodyEnd
        chunks ctx) ↔ s.NamedIn (chunks.headD []))) ∧
    ∀ bytes : Bytes,
      (∀ chunks chunks', IsCutting bytes chunks → IsCutting bytes chunks' →
        (RejectedAsNonSse (streamTask route (sseFallbackProbeEnabled stream contentType) bodyEnd
          chunks ctx) ↔
        RejectedAsNonSse (streamTask route (sseFallbackProbeEnabled stream contentType) bodyEnd
          chunks' ctx))) ↔
      bytes.head? = some 58 ∨ ¬HasPrelude bytes := by
  simp only [rejectedAsNonSse_iff, h]
  refine ⟨fun s chunks hcut => ?_, alike_iff⟩
  obtain ⟨chunk, rest, rfl, -, hprefix⟩ := hcut.exists_cons s.bytes_ne_nil
  rw [passesProbe_cons, Bool.not_eq_false, s.passes_iff hprefix]
  rfl

/-- A stream of one field `data`. -/
def oneField : EventStream where
  marked := false
  blanks := []
  firstLine := .data
  rest := [58, 32, 123, 125, 10, 10]
  blank := fun c hc => absurd hc List.not_mem_nil
  ended := fun c hc => absurd hc (by simp)
  named := .inl rfl

/-- The field is accepted in two chunks, the first of which has its name. -/
theorem probe_two_chunks :
    ¬RejectedAsNonSse (streamTask none (sseFallbackProbeEnabled true "text/plain") .eof
      [[100, 97, 116, 97, 58, 32, 123], [125, 10, 10]] .new) := by
  have hprobe : sseFallbackProbeEnabled true "text/plain" = true := by decide
  exact ((probe_iff none true "text/plain" hprobe .eof .new).1 oneField
    [[100, 97, 116, 97, 58, 32, 123], [125, 10, 10]] ⟨by decide, by decide⟩).2 (by decide)

/-- It is rejected where the name is cut. -/
theorem rejected_in_name :
    sseFallbackProbeEnabled true "text/plain" = true ∧
      IsCutting oneField.bytes [[100, 97], [116, 97, 58, 32, 123, 125, 10, 10]] ∧
      RejectedAsNonSse (streamTask none true .eof
        [[100, 97], [116, 97, 58, 32, 123, 125, 10, 10]] .new) ∧
      IsCutting oneField.bytes [oneField.bytes] ∧
      ¬RejectedAsNonSse (streamTask none true .eof [oneField.bytes] .new) := by
  rw [rejectedAsNonSse_iff, rejectedAsNonSse_iff]
  exact ⟨by decide, ⟨by decide, by decide⟩, by decide, ⟨by decide, by decide⟩, by decide⟩

end AiOpenRouter
