/-
Server-sent events: from the upstream bytes to event blocks and their lines.

* `popSseEvent` cuts the pending buffer at the first blank line
  (`find_sse_delimiter`: LF LF or CR LF CR LF); `sseFinder` packages it as a
  `Framing.Finder`, so the cutting does not depend on the arrival of the bytes;
* `parseSse` and `parseSseBlock` read the event name and the data payload of
  one block.

Text is a list of characters here, with the Rust string functions the parsers
call (`from_utf8_lossy`, `lines`, `trim`, `strip_prefix`).
-/
import AiOpenRouter.Framing

namespace AiOpenRouter

abbrev Bytes := List UInt8

/-! ### Rust text functions -/

namespace Text

def isContinuation (b : UInt8) : Bool := 0x80 ≤ b && b ≤ 0xBF

/-- The bytes that may follow the first byte of a three or four byte character. -/
def isSecond (b0 b1 : UInt8) : Bool :=
  if b0 = 0xE0 then 0xA0 ≤ b1 && b1 ≤ 0xBF
  else if b0 = 0xED then 0x80 ≤ b1 && b1 ≤ 0x9F
  else if b0 = 0xF0 then 0x90 ≤ b1 && b1 ≤ 0xBF
  else if b0 = 0xF4 then 0x80 ≤ b1 && b1 ≤ 0x8F
  else isContinuation b1

def low6 (b : UInt8) : ℕ := b.toNat % 64

/-- `String::from_utf8_lossy`: each maximal ill-formed prefix of a character
becomes one U+FFFD. -/
def fromUtf8Lossy : Bytes → List Char
  | [] => []
  | b0 :: rest =>
    if b0 < 0x80 then Char.ofNat b0.toNat :: fromUtf8Lossy rest
    else if 0xC2 ≤ b0 && b0 ≤ 0xDF then
      match rest with
      | [] => ['\uFFFD']
      | b1 :: rest1 =>
        if isContinuation b1 then
          Char.ofNat (b0.toNat % 32 * 64 + low6 b1) :: fromUtf8Lossy rest1
        else '\uFFFD' :: fromUtf8Lossy (b1 :: rest1)
    else if 0xE0 ≤ b0 && b0 ≤ 0xEF then
      match rest with
      | [] => ['\uFFFD']
      | b1 :: rest1 =>
        if isSecond b0 b1 then
          match rest1 with
          | [] => ['\uFFFD']
          | b2 :: rest2 =>
            if isContinuation b2 then
              Char.ofNat ((b0.toNat % 16 * 64 + low6 b1) * 64 + low6 b2) :: fromUtf8Lossy rest2
            else '\uFFFD' :: fromUtf8Lossy (b2 :: rest2)
        else '\uFFFD' :: fromUtf8Lossy (b1 :: rest1)
    else if 0xF0 ≤ b0 && b0 ≤ 0xF4 then
      match rest with
      | [] => ['\uFFFD']
      | b1 :: rest1 =>
        if isSecond b0 b1 then
          match rest1 with
          | [] => ['\uFFFD']
          | b2 :: rest2 =>
            if isContinuation b2 then
              match rest2 with
              | [] => ['\uFFFD']
              | b3 :: rest3 =>
                if isContinuation b3 then
                  Char.ofNat (((b0.toNat % 8 * 64 + low6 b1) * 64 + low6 b2) * 64 + low6 b3)
                    :: fromUtf8Lossy rest3
                else '\uFFFD' :: fromUtf8Lossy (b3 :: rest3)
            else '\uFFFD' :: fromUtf8Lossy (b2 :: rest2)
        else '\uFFFD' :: fromUtf8Lossy (b1 :: rest1)
    else '\uFFFD' :: fromUtf8Lossy rest

/-- `char::is_whitespace`: the Unicode property White_Space. -/
def isWhitespace (c : Char) : Bool :=
  let n := c.toNat
  (9 ≤ n && n ≤ 13) || n = 0x20 || n = 0x85 || n = 0xA0 || n = 0x1680 ||
    (0x2000 ≤ n && n ≤ 0x200A) || n = 0x2028 || n = 0x2029 || n = 0x202F ||
    n = 0x205F || n = 0x3000

/-- `str::trim_start`. -/
def trimStart (s : List Char) : List Char := s.dropWhile isWhitespace

/-- `str::trim_end_matches` with a predicate. -/
def trimEndMatches (p : Char → Bool) (s : List Char) : List Char :=
  (s.reverse.dropWhile p).reverse

/-- `str::trim`. -/
def trim (s : List Char) : List Char := trimEndMatches isWhitespace (trimStart s)

/-- `str::lines`: a line ends with LF or CR LF, and the last line may have no end. -/
def lines : List Char → List (List Char)
  | [] => []
  | '\n' :: rest => [] :: lines rest
  | '\r' :: '\n' :: rest => [] :: lines rest
  | c :: rest =>
    match lines rest with
    | [] => [[c]]
    | line :: more => (c :: line) :: more

/-- `str::strip_prefix`. -/
def stripPrefix (pre : String) (s : List Char) : Option (List Char) :=
  s.dropPrefix? pre.toList

end Text

/-! ### The two block parsers -/

/-- `parse_sse`: the last `event: ` value and the last `data: ` value of the block. -/
def parseSse (data : Bytes) : String × String :=
  (Text.lines (Text.fromUtf8Lossy data)).foldl
    (fun acc rawLine =>
      let line := Text.trim rawLine
      match Text.stripPrefix "event: " line with
      | some evt => (String.ofList evt, acc.2)
      | none =>
        match Text.stripPrefix "data: " line with
        | some data => (acc.1, String.ofList data)
        | none => acc)
    ("", "")

/-- The event name and the data lines that `parse_sse_block` collects. -/
def parseSseBlockLines (event : Bytes) : String × List String :=
  (Text.lines (Text.fromUtf8Lossy event)).foldl
    (fun acc rawLine =>
      let line := Text.trimEndMatches (· == '\r') rawLine
      match Text.stripPrefix "event: " line with
      | some evt => (String.ofList (Text.trim evt), acc.2)
      | none =>
        match Text.stripPrefix "data: " line with
        | some data => (acc.1, acc.2 ++ [String.ofList data])
        | none =>
          match Text.stripPrefix "data:" line with
          | some data => (acc.1, acc.2 ++ [String.ofList (Text.trimStart data)])
          | none => acc)
    ("", [])

/-- `parse_sse_block`: the event name and the data lines joined by LF, or
nothing when the block has no data line. -/
def parseSseBlock (event : Bytes) : Option (String × String) :=
  let parsed := parseSseBlockLines event
  if parsed.2 = [] then none else some (parsed.1, "\n".intercalate parsed.2)

/-! ### Writing blocks -/

def utf8Bytes (s : String) : Bytes := s.toUTF8.data.toList

def eventBlock (eventType data : String) : Bytes :=
  utf8Bytes ("event: " ++ eventType ++ "\ndata: " ++ data ++ "\n\n")

/-- An event block with one line of data. -/
def dataBlock (data : String) : Bytes := utf8Bytes ("data: " ++ data ++ "\n\n")

theorem utf8Bytes_append (s t : String) : utf8Bytes (s ++ t) = utf8Bytes s ++ utf8Bytes t := by
  show (s ++ t).toByteArray.data.toList = s.toByteArray.data.toList ++ t.toByteArray.data.toList
  rw [String.toByteArray_append, ByteArray.data_append, Array.toList_append]

theorem eventBlock_ne_nil (eventType data : String) : eventBlock eventType data ≠ [] := by
  rw [eventBlock, String.append_assoc, String.append_assoc, String.append_assoc, utf8Bytes_append]
  intro h
  exact absurd (List.append_eq_nil_iff.1 h).1 (by decide)

theorem dataBlock_ne_nil (data : String) : dataBlock data ≠ [] := by
  rw [dataBlock, String.append_assoc, utf8Bytes_append]
  intro h
  exact absurd (List.append_eq_nil_iff.1 h).1 (by decide)

/-! ### Cutting the pending buffer into blocks -/

/-- `find_sse_delimiter`, its loop running from position `idx` on. -/
def findSseDelimiterFrom (idx : ℕ) : Bytes → Option (ℕ × ℕ)
  | [] => none
  | b :: rest =>
    if [10, 10] <+: b :: rest then some (idx, 2)
    else if [13, 10, 13, 10] <+: b :: rest then some (idx, 4)
    else findSseDelimiterFrom (idx + 1) rest

/-- `find_sse_delimiter`: start and length of the first blank line. -/
def findSseDelimiter (buffer : Bytes) : Option (ℕ × ℕ) := findSseDelimiterFrom 0 buffer

/-- `pop_sse_event`: the first block, its blank line included, and the rest of the buffer. -/
def popSseEvent (buffer : Bytes) : Option (Bytes × Bytes) :=
  match findSseDelimiter buffer with
  | none => none
  | some (start, len) => some (buffer.take (start + len), buffer.drop (start + len))

theorem findSseDelimiterFrom_bounds {b : Bytes} : ∀ {idx start len : ℕ},
    findSseDelimiterFrom idx b = some (start, len) →
      idx ≤ start ∧ 0 < len ∧ start + len ≤ idx + b.length := by
  induction b with
  | nil =>
    intro idx start len h
    simp [findSseDelimiterFrom] at h
  | cons x rest ih =>
    intro idx start len h
    rw [findSseDelimiterFrom] at h
    split_ifs at h with hlf hcr
    · obtain ⟨rfl, rfl⟩ : idx = start ∧ 2 = len := by simpa using h
      have := hlf.length_le
      simp only [List.length_cons, List.length_nil] at this ⊢
      omega
    · obtain ⟨rfl, rfl⟩ : idx = start ∧ 4 = len := by simpa using h
      have := hcr.length_le
      simp only [List.length_cons, List.length_nil] at this ⊢
      omega
    · have := ih h
      simp only [List.length_cons]
      omega

/-- A blank line that is not in `b` at its first byte does not appear there
when bytes are appended, if `b` has a blank line further on. -/
theorem not_prefix_append {x : UInt8} {rest : Bytes} {idx : ℕ} {r : ℕ × ℕ}
    (hlf : ¬ [10, 10] <+: x :: rest) (hcr : ¬ [13, 10, 13, 10] <+: x :: rest)
    (h : findSseDelimiterFrom idx rest = some r) (c : Bytes) :
    ¬ [10, 10] <+: x :: (rest ++ c) ∧ ¬ [13, 10, 13, 10] <+: x :: (rest ++ c) := by
  rcases rest with _ | ⟨y, rest⟩
  · simp [findSseDelimiterFrom] at h
  · rcases rest with _ | ⟨z, rest⟩
    · simp [findSseDelimiterFrom] at h
    · refine ⟨by simpa using hlf, ?_⟩
      rcases rest with _ | ⟨w, rest⟩
      · -- three bytes: the only blank line in reach is LF LF after `x`
        simp only [findSseDelimiterFrom] at h
        simp at h
        simp only [List.cons_append, List.cons_prefix_cons]
        rintro ⟨-, hy, hz, -⟩
        subst hy hz
        simp at h
      · simpa using hcr

theorem findSseDelimiterFrom_append {b : Bytes} : ∀ {idx : ℕ} {r : ℕ × ℕ},
    findSseDelimiterFrom idx b = some r →
      ∀ c, findSseDelimiterFrom idx (b ++ c) = some r := by
  induction b with
  | nil =>
    intro idx r h
    simp [findSseDelimiterFrom] at h
  | cons x rest ih =>
    intro idx r h c
    have happ : x :: rest <+: x :: (rest ++ c) := List.prefix_append (x :: rest) c
    rw [List.cons_append, findSseDelimiterFrom]
    rw [findSseDelimiterFrom] at h
    split_ifs at h with hlf hcr
    · rw [if_pos (hlf.trans happ), h]
    · have hlf' : ¬ [10, 10] <+: x :: (rest ++ c) := by
        obtain ⟨t, ht⟩ := hcr
        rw [← List.cons_append, ← ht]
        simp
      rw [if_neg hlf', if_pos (hcr.trans happ), h]
    · obtain ⟨hlf', hcr'⟩ := not_prefix_append hlf hcr h c
      rw [if_neg hlf', if_neg hcr']
      exact ih h c

/-- The blank-line cut of the streaming loop. -/
def sseFinder : Framing.Finder UInt8 where
  find b := (findSseDelimiter b).map fun r => r.1 + r.2
  pos := by
    intro b n h
    obtain ⟨⟨start, len⟩, hr, rfl⟩ := Option.map_eq_some_iff.1 h
    have := findSseDelimiterFrom_bounds hr
    show 0 < start + len
    omega
  le_length := by
    intro b n h
    obtain ⟨⟨start, len⟩, hr, rfl⟩ := Option.map_eq_some_iff.1 h
    have := findSseDelimiterFrom_bounds hr
    show start + len ≤ b.length
    omega
  stable := by
    intro b n h c
    obtain ⟨r, hr, rfl⟩ := Option.map_eq_some_iff.1 h
    rw [findSseDelimiter, findSseDelimiterFrom_append hr c]
    rfl

theorem sseFinder_pop (b : Bytes) : sseFinder.pop b = popSseEvent b := by
  rw [Framing.Finder.pop, popSseEvent]
  show ((findSseDelimiter b).map fun r => r.1 + r.2).map _ = _
  rcases findSseDelimiter b with _ | ⟨start, len⟩
  · rfl
  · rfl

end AiOpenRouter
