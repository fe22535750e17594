/-
The event blocks that the converters write, read back by `parse_sse`.

A line of printable ASCII that does not end in a blank (`Text.IsPlainLine`)
comes back as it is: its bytes are its characters, no line end is in it, and
trimming leaves it alone.  `parseSse_eventBlock` is the round trip for a block
with a name and one line of data, `parseSse_dataBlock` and
`parseSseBlock_dataBlock` for one line of data.
-/
import AiOpenRouter.SseParsers

namespace AiOpenRouter

namespace Text

def IsPlainLine (s : String) : Prop :=
  (∀ c ∈ s.toList, 32 ≤ c.toNat ∧ c.toNat < 127) ∧ ∃ c ∈ s.toList.getLast?, c ≠ ' '

instance (s : String) : Decidable (IsPlainLine s) :=
  @instDecidableAnd _ _ (List.decidableBAll _ s.toList) s.toList.getLast?.decidableExistsMem

/-! ### Bytes and characters -/

theorem utf8EncodeChar_ascii {c : Char} (h : c.toNat < 128) :
    String.utf8EncodeChar c = [UInt8.ofNat c.toNat] := by
  have hle : c.val.toNat ≤ 127 := Nat.lt_succ_iff.1 h
  rw [String.utf8EncodeChar, if_pos hle]
  rfl

variable {s : String}

theorem utf8Bytes_ascii (h : ∀ c ∈ s.toList, c.toNat < 128) :
    utf8Bytes s = s.toList.map fun c => UInt8.ofNat c.toNat := by
  have hbytes : utf8Bytes s = s.toList.flatMap String.utf8EncodeChar := by
    show s.toByteArray.data.toList = _
    rw [← String.utf8Encode_toList, List.utf8Encode, List.toList_data_toByteArray]
  rw [hbytes, List.flatMap_congr fun c hc => utf8EncodeChar_ascii (h c hc)]
  exact (List.map_eq_flatMap ..).symm

theorem fromUtf8Lossy_ascii {cs : List Char} (h : ∀ c ∈ cs, c.toNat < 128) :
    fromUtf8Lossy (cs.map fun c => UInt8.ofNat c.toNat) = cs := by
  induction cs with
  | nil => rfl
  | cons c cs ih =>
    have hc : c.toNat < 128 := h c List.mem_cons_self
    have hnat : (UInt8.ofNat c.toNat).toNat = c.toNat := by
      rw [UInt8.toNat_ofNat']
      exact Nat.mod_eq_of_lt (by omega)
    have hlt : UInt8.ofNat c.toNat < 0x80 := by
      rw [UInt8.lt_iff_toNat_lt, hnat]
      exact hc
    have htail := ih fun d hd => h d (List.mem_cons_of_mem c hd)
    rw [List.map_cons, fromUtf8Lossy.eq_def]
    dsimp only
    rw [if_pos hlt, hnat, Char.ofNat_toNat, htail]

/-! ### Lines -/

theorem lines_append_newline {line rest : List Char} (h : ∀ c ∈ line, c ≠ '\n' ∧ c ≠ '\r') :
    lines (line ++ '\n' :: rest) = line :: lines rest := by
  induction line with
  | nil => simp [lines]
  | cons c line ih =>
    obtain ⟨hlf, hcr⟩ := h c List.mem_cons_self
    have ih' := ih fun d hd => h d (List.mem_cons_of_mem c hd)
    rw [List.cons_append, lines, ih']
    · exact hlf
    · rintro rest hc
      exact absurd hc hcr

/-- A line that starts and ends with other characters than blanks is trimmed to itself. -/
theorem trim_eq_self {c d : Char} {s : List Char} (hc : isWhitespace c = false)
    (hd : isWhitespace d = false) (hlast : (c :: s).getLast? = some d) :
    trim (c :: s) = c :: s := by
  have hstart : trimStart (c :: s) = c :: s := by simp [trimStart, hc]
  obtain ⟨init, hinit⟩ : ∃ init, c :: s = init ++ [d] :=
    ⟨_, (List.dropLast_append_getLast? d hlast).symm⟩
  rw [trim, hstart, trimEndMatches, hinit, List.reverse_append, List.reverse_singleton,
    List.singleton_append, List.dropWhile_cons_of_neg (by simp [hd]), List.reverse_cons,
    List.reverse_reverse]

theorem IsPlainLine.not_lineEnd (h : IsPlainLine s) : ∀ c ∈ s.toList, c ≠ '\n' ∧ c ≠ '\r' := by
  intro c hc
  have hle := (h.1 c hc).1
  constructor
  · rintro rfl
    exact absurd hle (by decide)
  · rintro rfl
    exact absurd hle (by decide)

theorem IsPlainLine.ne_empty (h : IsPlainLine s) : s ≠ "" := by
  rintro rfl
  obtain ⟨-, c, hc, -⟩ := h
  cases hc

theorem IsPlainLine.getLast (h : IsPlainLine s) :
    ∃ d, s.toList.getLast? = some d ∧ isWhitespace d = false := by
  obtain ⟨hchars, d, hlast, hne⟩ := h
  have hrange := hchars d (List.mem_of_getLast? hlast)
  refine ⟨d, hlast, ?_⟩
  have hspace : d.toNat ≠ 32 := fun h => hne (Char.toNat_inj.1 h)
  simp only [isWhitespace, Bool.or_eq_false_iff, Bool.and_eq_false_iff, decide_eq_false_iff_not]
  omega

theorem trim_field {c : Char} {field : List Char} (hc : isWhitespace c = false)
    (h : IsPlainLine s) :
    trim (c :: field ++ s.toList) = c :: field ++ s.toList := by
  obtain ⟨d, hlast, hd⟩ := h.getLast
  refine trim_eq_self hc hd ?_
  show ((c :: field) ++ s.toList).getLast? = _
  rw [List.getLast?_append, hlast]
  rfl

theorem stripPrefix_append (pre : String) (s : List Char) :
    stripPrefix pre (pre.toList ++ s) = some s := by
  rw [stripPrefix, List.dropPrefix?_eq_some_iff]
  exact ⟨pre.toList, rfl, beq_self_eq_true _⟩

end Text

/-! ### Blocks -/

open Text

theorem lines_field {field s : String} {rest : List Char}
    (hfield : ∀ c ∈ field.toList, c ≠ '\n' ∧ c ≠ '\r') (hs : IsPlainLine s) :
    lines (field.toList ++ s.toList ++ '\n' :: rest) =
      (field.toList ++ s.toList) :: lines rest := by
  refine lines_append_newline ?_
  intro c hc
  rcases List.mem_append.1 hc with hc | hc
  · exact hfield c hc
  · exact hs.not_lineEnd c hc

theorem ascii_of_isPlainLine {s : String} (h : IsPlainLine s) : ∀ c ∈ s.toList, c.toNat < 128 :=
  fun c hc => by
    have hlt := (h.1 c hc).2
    omega

variable {data eventType : String}

theorem lines_eventBlock (htype : IsPlainLine eventType) (hdata : IsPlainLine data) :
    lines (fromUtf8Lossy (eventBlock eventType data)) =
      ["event: ".toList ++ eventType.toList, "data: ".toList ++ data.toList, []] := by
  have hchars : ("event: " ++ eventType ++ "\ndata: " ++ data ++ "\n\n").toList =
      "event: ".toList ++ eventType.toList ++ '\n' ::
        ("data: ".toList ++ data.toList ++ '\n' :: ['\n']) := by
    simp
  have hascii : ∀ c ∈ ("event: " ++ eventType ++ "\ndata: " ++ data ++ "\n\n").toList,
      c.toNat < 128 := by
    rw [hchars]
    simp only [List.forall_mem_append, List.forall_mem_cons]
    exact ⟨⟨by simp, ascii_of_isPlainLine htype⟩, by decide,
      ⟨by simp, ascii_of_isPlainLine hdata⟩, by decide, by decide, by simp⟩
  rw [eventBlock, utf8Bytes_ascii hascii, fromUtf8Lossy_ascii hascii, hchars,
    lines_field (by simp) htype, lines_field (by simp) hdata]
  simp [lines]

theorem lines_dataBlock (hdata : IsPlainLine data) :
    lines (fromUtf8Lossy (dataBlock data)) = ["data: ".toList ++ data.toList, []] := by
  have hchars : ("data: " ++ data ++ "\n\n").toList =
      "data: ".toList ++ data.toList ++ '\n' :: ['\n'] := by
    simp
  have hascii : ∀ c ∈ ("data: " ++ data ++ "\n\n").toList, c.toNat < 128 := by
    rw [hchars]
    simp only [List.forall_mem_append, List.forall_mem_cons]
    exact ⟨⟨by simp, ascii_of_isPlainLine hdata⟩, by decide, by decide, by simp⟩
  rw [dataBlock, utf8Bytes_ascii hascii, fromUtf8Lossy_ascii hascii, hchars,
    lines_field (by simp) hdata]
  simp [lines]

theorem trim_event (h : IsPlainLine eventType) :
    trim ("event: ".toList ++ eventType.toList) = "event: ".toList ++ eventType.toList :=
  trim_field (by decide) h

theorem trim_data (h : IsPlainLine data) :
    trim ("data: ".toList ++ data.toList) = "data: ".toList ++ data.toList :=
  trim_field (by decide) h

theorem stripPrefix_event_data (s : List Char) :
    stripPrefix "event: " ("data: ".toList ++ s) = none := rfl

/-- **A block with a name and a line of data is read back.** -/
theorem parseSse_eventBlock (htype : IsPlainLine eventType) (hdata : IsPlainLine data) :
    parseSse (eventBlock eventType data) = (eventType, data) := by
  rw [parseSse, lines_eventBlock htype hdata]
  simp only [List.foldl_cons, List.foldl_nil, trim_event htype, trim_data hdata,
    stripPrefix_append, stripPrefix_event_data, String.ofList_toList]
  rfl

theorem trimEndMatches_eq_self {p : Char → Bool} {s : List Char} {d : Char}
    (hlast : s.getLast? = some d) (hd : p d = false) : trimEndMatches p s = s := by
  obtain ⟨init, rfl⟩ : ∃ init, s = init ++ [d] :=
    ⟨_, (List.dropLast_append_getLast? d hlast).symm⟩
  rw [trimEndMatches, List.reverse_append, List.reverse_singleton, List.singleton_append,
    List.dropWhile_cons_of_neg (by simp [hd]), List.reverse_cons, List.reverse_reverse]

theorem parseSseBlock_dataBlock (hdata : IsPlainLine data) :
    parseSseBlock (dataBlock data) = some ("", data) := by
  have hbare : trimEndMatches (· == '\r') ("data: ".toList ++ data.toList) =
      "data: ".toList ++ data.toList := by
    obtain ⟨d, hlast, -⟩ := hdata.getLast
    refine trimEndMatches_eq_self (d := d) ?_ ?_
    · rw [List.getLast?_append, hlast]
      rfl
    · simpa using (hdata.not_lineEnd d (List.mem_of_getLast? hlast)).2
  have hlines : parseSseBlockLines (dataBlock data) = ("", [data]) := by
    rw [parseSseBlockLines, lines_dataBlock hdata]
    simp only [List.foldl_cons, List.foldl_nil, hbare, stripPrefix_append, stripPrefix_event_data,
      String.ofList_toList]
    rfl
  rw [parseSseBlock, hlines]
  simp

theorem parseSse_dataBlock (hdata : IsPlainLine data) : parseSse (dataBlock data) = ("", data) := by
  rw [parseSse, lines_dataBlock hdata]
  simp only [List.foldl_cons, List.foldl_nil, trim_data hdata, stripPrefix_append,
    stripPrefix_event_data, String.ofList_toList]
  rfl

end AiOpenRouter
