/-
The session cookie of a request (`auth.rs`).

`extractCookieValue` goes through the parts of the header and gives up at the first one without an
equals sign.

* `cookieLoop_eq_some_iff`: the loop finds the first pair of a name exactly when every part before
  it has an equals sign;
* `cookieFound_iff`: so the value of a cookie is found, and a live session authenticates the
  request, exactly when the header is plain text and no part of another form comes first.
-/
import AiOpenRouter.RemoteRequests
import AiOpenRouter.RemoteSessions
import AiOpenRouter.TrimmedPieces

namespace AiOpenRouter

open Text TrimmedPieces

/-! ### Cookies -/

/-- `str::split_once` at an equals sign. -/
def splitAtEquals : List Char → Option (List Char × List Char)
  | [] => none
  | c :: text =>
    if c = '=' then some ([], text)
    else (splitAtEquals text).map fun parts => (c :: parts.1, parts.2)

/-- The loop of `extract_cookie_value`. -/
def cookieLoop (key : List Char) : List (List Char) → Option (List Char)
  | [] => none
  | cookie :: cookies =>
    match splitAtEquals (trim cookie) with
    -- the `?` leaves the function, not the turn of the loop
    | none => none
    | some (name, value) =>
      if trim name = key ∧ trim value ≠ [] then some (trim value) else cookieLoop key cookies

/-- `extract_cookie_value`, from the bytes of the header. -/
def extractCookieValue (cookie : Option (List UInt8)) (key : String) : Option String :=
  ((headerText cookie).bind fun cookies => cookieLoop key.toList (cookies.splitOn ';')).map
    String.ofList

/-- `SESSION_COOKIE_NAME`. -/
def sessionCookieName : String := "aor_session"

/-! ### Requests -/

/-- The headers that a request is authenticated by, each the first of its name. -/
structure CredentialHeaders where
  authorization : Option (List UInt8)
  cookie : Option (List UInt8)

/-- `extract_bearer_token`. -/
def extractBearerToken (headers : CredentialHeaders) : Option String :=
  (((headerText headers.authorization).bind fun raw => stripPrefix "Bearer " (trim raw)).filter
    fun token => trim token ≠ []).map fun token => String.ofList (trim token)

/-- `authenticate_request`, with the sessions after it. -/
def authenticateRequest (env : AuthEnv) (stored : StoredRemoteAdminAuth) (now : ℤ)
    (sessions : HashMap AuthSession) (headers : CredentialHeaders) :
    Except String Bool × HashMap AuthSession :=
  match (extractBearerToken headers).elim (.ok false) (stored.verifyPassword env) with
  | .error message => (.error message, sessions)
  | .ok true => (.ok true, sessions)
  | .ok false =>
    match extractCookieValue headers.cookie sessionCookieName with
    | none => (.ok false, sessions)
    | some token =>
      -- `verify_session` accepts no blank token
      if trimmed token = "" then (.ok false, sessions)
      else
        (.ok (stored.verifySession token now sessions).1,
          (stored.verifySession token now sessions).2)

/-! ### The parts of a header -/

/-- The parts of a header between its semicolons, each byte as the character of its number. -/
def cookieParts (cookie : List UInt8) : List (List Char) :=
  (cookie.map fun b => Char.ofNat b.toNat).splitOn ';'

/-- The value that a part gives a cookie: the part is a pair of that name, and its value is not
blank. -/
def valueIn (key part : List Char) : Option (List Char) :=
  ((splitAtEquals part).filter fun pair => trim pair.1 = key ∧ trim pair.2 ≠ []).map
    fun pair => trim pair.2

theorem splitAtEquals_append {name : List Char} (h : '=' ∉ name) (value : List Char) :
    splitAtEquals (name ++ '=' :: value) = some (name, value) := by
  induction name with
  | nil => rfl
  | cons c name ih =>
    rw [List.mem_cons, not_or] at h
    rw [List.cons_append, splitAtEquals, if_neg (Ne.symm h.1), ih h.2]
    rfl

variable {part value : List Char}

theorem splitAtEquals_of_notMem (h : '=' ∉ part) : splitAtEquals part = none := by
  induction part with
  | nil => rfl
  | cons c part ih =>
    rw [List.mem_cons, not_or] at h
    rw [splitAtEquals, if_neg (Ne.symm h.1), ih h.2]
    rfl

theorem splitAtEquals_trim {name : List Char} (h : '=' ∉ name) (value : List Char) :
    splitAtEquals (trim (name ++ '=' :: value)) =
      some (name.dropWhile isWhitespace, value.rdropWhile isWhitespace) := by
  have htrim : trim (name ++ '=' :: value) =
      name.dropWhile isWhitespace ++ '=' :: value.rdropWhile isWhitespace :=
    core_append_cons (by decide) name value
  rw [htrim]
  exact splitAtEquals_append (fun hmem => h (List.dropWhile_subset _ hmem)) _

theorem cookieLoop_cons (h : '=' ∈ part) (key : List Char) (parts : List (List Char)) :
    cookieLoop key (part :: parts) = (valueIn key part).or (cookieLoop key parts) := by
  obtain ⟨name, value, rfl, hname⟩ := List.eq_append_cons_of_mem h
  have htrimName : trim (name.dropWhile isWhitespace) = trim name := core_dropWhile name
  have htrimValue : trim (value.rdropWhile isWhitespace) = trim value := core_rdropWhile value
  rw [cookieLoop, splitAtEquals_trim hname, valueIn, splitAtEquals_append hname]
  dsimp only
  rw [htrimName, htrimValue, Option.filter_some]
  by_cases hpair : trim name = key ∧ trim value ≠ []
  · rw [if_pos hpair, if_pos (decide_eq_true hpair)]
    rfl
  · rw [if_neg hpair, if_neg fun h => hpair (of_decide_eq_true h)]
    rfl

theorem cookieLoop_cons_of_notMem (h : '=' ∉ part) (key : List Char) (parts : List (List Char)) :
    cookieLoop key (part :: parts) = none := by
  have htrim : '=' ∉ trim part := fun hmem =>
    h (core_subset part (show '=' ∈ core isWhitespace part from hmem))
  rw [cookieLoop, splitAtEquals_of_notMem htrim]

theorem valueIn_of_notMem (h : '=' ∉ part) (key : List Char) : valueIn key part = none := by
  rw [valueIn, splitAtEquals_of_notMem h]
  rfl

/-! ### Finding a cookie -/

/-- **The loop finds the first pair of a name** exactly when every part before it has an equals
sign. -/
theorem cookieLoop_eq_some_iff {key : List Char} {parts : List (List Char)}
    (hvalue : parts.findSome? (valueIn key) = some value) :
    cookieLoop key parts = some value ↔
      ∀ part ∈ parts.takeWhile (fun part => (valueIn key part).isNone), '=' ∈ part := by
  induction parts with
  | nil => cases hvalue
  | cons part parts ih =>
    rw [List.findSome?_cons] at hvalue
    by_cases hequals : '=' ∈ part
    · rw [cookieLoop_cons hequals]
      cases hpart : valueIn key part with
      | some found =>
        rw [hpart] at hvalue
        rw [List.takeWhile_cons_of_neg (by rw [hpart]; exact Bool.false_ne_true)]
        exact iff_of_true hvalue fun other hother => absurd hother List.not_mem_nil
      | none =>
        rw [hpart] at hvalue
        rw [List.takeWhile_cons_of_pos (by rw [hpart]; rfl), Option.none_or, ih hvalue,
          List.forall_mem_cons]
        exact (and_iff_right hequals).symm
    · have hpart : valueIn key part = none := valueIn_of_notMem hequals key
      rw [cookieLoop_cons_of_notMem hequals, List.takeWhile_cons_of_pos (by rw [hpart]; rfl)]
      exact iff_of_false (fun h => nomatch h)
        fun hall => hequals (hall part List.mem_cons_self)

theorem trimmed_of_valueIn {key : List Char} (h : valueIn key part = some value) :
    trimmed (String.ofList value) ≠ "" := by
  obtain ⟨pair, hfilter, rfl⟩ := Option.map_eq_some_iff.1 h
  obtain ⟨-, hpair⟩ := Option.filter_eq_some_iff.1 hfilter
  have hne : trim pair.2 ≠ [] := (of_decide_eq_true hpair).2
  have htwice : trim (trim pair.2) = trim pair.2 := core_eq_self (noEdges_core pair.2)
  rw [trimmed, String.toList_ofList, htwice]
  intro hempty
  exact hne (String.ofList_injective hempty)

theorem extractCookieValue_iff {key : String} {cookie : List UInt8}
    (hvalue : (cookieParts cookie).findSome? (valueIn key.toList) = some value) :
    extractCookieValue (some cookie) key = some (String.ofList value) ↔
      (headerValueToStr cookie).isSome ∧
        ∀ part ∈ (cookieParts cookie).takeWhile (fun part => (valueIn key.toList part).isNone),
          '=' ∈ part := by
  rw [extractCookieValue, headerText, Option.bind_some, headerValueToStr]
  split_ifs with hvisible
  · rw [Option.map_some, Option.bind_some, String.toList_ofList,
      ← cookieLoop_eq_some_iff hvalue, cookieParts]
    rw [Option.map_eq_some_iff]
    constructor
    · rintro ⟨found, hfound, hsame⟩
      rw [String.ofList_injective hsame] at hfound
      exact ⟨rfl, hfound⟩
    · rintro ⟨-, hfound⟩
      exact ⟨value, hfound, rfl⟩
  · exact iff_of_false (fun h => nomatch h) fun h => nomatch h.1

theorem authenticateRequest_of_session {env : AuthEnv} {stored : StoredRemoteAdminAuth} {now : ℤ}
    {sessions : HashMap AuthSession} {headers : CredentialHeaders} {token : String}
    (hbearer : extractBearerToken headers = none)
    (htoken : extractCookieValue headers.cookie sessionCookieName = some token)
    (hne : trimmed token ≠ "") (hlive : (stored.verifySession token now sessions).1 = true) :
    (authenticateRequest env stored now sessions headers).1 = .ok true := by
  rw [authenticateRequest, hbearer, htoken]
  dsimp only [Option.elim]
  rw [if_neg hne, hlive]

/-- **A cookie is found**, and its session taken, exactly when the header is plain text and every
part before the cookie has an equals sign. -/
theorem cookieFound_iff (key : String) (cookie : List UInt8) (value : List Char)
    (hvalue : (cookieParts cookie).findSome? (valueIn key.toList) = some value) :
    (extractCookieValue (some cookie) key = some (String.ofList value) ∧
        (key = sessionCookieName → ∀ (env : AuthEnv) (stored : StoredRemoteAdminAuth) (now : ℤ)
          (sessions : HashMap AuthSession) (headers : CredentialHeaders),
          headers.cookie = some cookie → extractBearerToken headers = none →
          (stored.verifySession (String.ofList value) now sessions).1 = true →
          (authenticateRequest env stored now sessions headers).1 = .ok true)) ↔
      (headerValueToStr cookie).isSome ∧
        ∀ part ∈ (cookieParts cookie).takeWhile (fun part => (valueIn key.toList part).isNone),
          '=' ∈ part := by
  rw [← extractCookieValue_iff hvalue]
  refine and_iff_left_of_imp
    fun hfound hkey env stored now sessions headers hcookie hbearer hlive =>
    authenticateRequest_of_session hbearer ?_ ?_ hlive
  · rw [hcookie, ← hkey]
    exact hfound
  · obtain ⟨part, -, hpart⟩ := List.exists_of_findSome?_eq_some hvalue
    exact trimmed_of_valueIn hpart

/-- A pair in front of it. -/
theorem cookieFound_behind_pair :
    extractCookieValue (some (asciiBytes "foo=bar; aor_session=session-xyz".toList))
      sessionCookieName = some "session-xyz" :=
  ((cookieFound_iff sessionCookieName (asciiBytes "foo=bar; aor_session=session-xyz".toList)
    "session-xyz".toList (by decide +kernel)).2 ⟨by decide +kernel, by decide +kernel⟩).1

/-- A part without an equals sign in front of it. -/
theorem cookie_lost_behind_flag :
    (cookieParts (asciiBytes "foo; aor_session=session-xyz".toList)).findSome?
        (valueIn sessionCookieName.toList) = some "session-xyz".toList ∧
      extractCookieValue (some (asciiBytes "foo; aor_session=session-xyz".toList))
        sessionCookieName = none := by
  decide +kernel

end AiOpenRouter
