/-
IP addresses, and the texts that `std::net` reads as one.

* `parseIpAddr` is `IpAddr::from_str`;
* `text_of_parseIpAddr`: the text of an IPv4 address has digits and dots, that of an
  IPv6 address has hexadecimal digits, dots and at least two colons.
-/
import Mathlib.Data.List.Basic
import Mathlib.Data.List.Count
import Mathlib.Data.List.TakeWhile

namespace Net

/-! ### Addresses -/

/-- `Ipv4Addr`, by its octets. -/
structure Ipv4Addr where
  a : UInt8
  b : UInt8
  c : UInt8
  d : UInt8
  deriving DecidableEq

/-- `IpAddr`. -/
inductive IpAddr where
  | v4 (address : Ipv4Addr)
  | v6 (segments : Vector UInt16 8)
  deriving DecidableEq

/-- `IpAddr::is_loopback`. -/
def IpAddr.isLoopback : IpAddr → Bool
  | .v4 address => address.a == 127
  | .v6 segments => segments == #v[0, 0, 0, 0, 0, 0, 0, 1]

/-! ### Reading -/

/-- `char::to_digit`. -/
def toDigit (radix : ℕ) (c : Char) : Option ℕ :=
  if '0' ≤ c ∧ c ≤ '9' then some (c.toNat - '0'.toNat) |>.filter (· < radix)
  else if 'a' ≤ c ∧ c ≤ 'z' then some (c.toNat - 'a'.toNat + 10) |>.filter (· < radix)
  else if 'A' ≤ c ∧ c ≤ 'Z' then some (c.toNat - 'A'.toNat + 10) |>.filter (· < radix)
  else none

def IsDigit (radix : ℕ) (c : Char) : Prop := (toDigit radix c).isSome = true

instance (radix : ℕ) (c : Char) : Decidable (IsDigit radix c) :=
  inferInstanceAs (Decidable (_ = true))

/-- `Parser::read_number`: all the digits that follow, when they are not too many. -/
def readNumber (radix maxDigits bound : ℕ) (allowZeroPrefix : Bool) (s : List Char) :
    Option (ℕ × List Char) :=
  let digits := s.takeWhile (IsDigit radix ·)
  if digits = [] ∨ maxDigits < digits.length ∨
      (allowZeroPrefix = false ∧ digits.head? = some '0' ∧ 1 < digits.length) then none
  else
    let number := digits.foldl (fun n c => n * radix + (toDigit radix c).getD 0) 0
    if number < bound then some (number, s.dropWhile (IsDigit radix ·)) else none

/-- `Parser::read_given_char`. -/
def readGivenChar (given : Char) : List Char → Option (List Char)
  | [] => none
  | c :: s => if c = given then some s else none

/-- `Parser::read_separator`: a separator stands before everything but the first. -/
def readSeparated {α : Type} (first : Bool) (separator : Char)
    (inner : List Char → Option (α × List Char)) (s : List Char) : Option (α × List Char) :=
  if first then inner s else (readGivenChar separator s).bind inner

/-- A number of at most three decimal digits without a leading zero. -/
def readOctet (s : List Char) : Option (UInt8 × List Char) :=
  (readNumber 10 3 256 false s).map fun read => (UInt8.ofNat read.1, read.2)

/-- `Parser::read_ipv4_addr`. -/
def readIpv4Addr (s : List Char) : Option (Ipv4Addr × List Char) :=
  (readSeparated true '.' readOctet s).bind fun a =>
    (readSeparated false '.' readOctet a.2).bind fun b =>
      (readSeparated false '.' readOctet b.2).bind fun c =>
        (readSeparated false '.' readOctet c.2).map fun d => (⟨a.1, b.1, c.1, d.1⟩, d.2)

def readGroup (s : List Char) : Option (UInt16 × List Char) :=
  (readNumber 16 4 65536 true s).map fun read => (UInt16.ofNat read.1, read.2)

/-- The two groups that an IPv4 address stands for. -/
def Ipv4Addr.groups (address : Ipv4Addr) : List UInt16 :=
  [address.a.toUInt16 * 256 + address.b.toUInt16, address.c.toUInt16 * 256 + address.d.toUInt16]

/-- `read_groups`: at most so many groups, the last two of them maybe as an IPv4 address. -/
def readGroups : ℕ → Bool → List Char → List UInt16 × Bool × List Char
  | 0, _, s => ([], false, s)
  | n + 1, first, s =>
    match if 0 < n then readSeparated first ':' readIpv4Addr s else none with
    | some (address, rest) => (address.groups, true, rest)
    | none =>
      match readSeparated first ':' readGroup s with
      | none => ([], false, s)
      | some (group, rest) =>
        let read := readGroups n false rest
        (group :: read.1, read.2)

/-- The groups before and after a `::`. -/
def ofGroups (head tail : List UInt16) : Vector UInt16 8 :=
  Vector.ofFn fun i =>
    if i < head.length then head.getD i 0
    else if 8 ≤ i + tail.length then tail.getD (i + tail.length - 8) 0
    else 0

/-- `Parser::read_ipv6_addr`. -/
def readIpv6Addr (s : List Char) : Option (Vector UInt16 8 × List Char) :=
  let head := readGroups 8 true s
  if head.1.length = 8 then some (ofGroups head.1 [], head.2.2)
  else if head.2.1 then none
  else
    (readGivenChar ':' head.2.2).bind fun rest =>
      (readGivenChar ':' rest).map fun rest =>
        let tail := readGroups (8 - (head.1.length + 1)) true rest
        (ofGroups head.1 tail.1, tail.2.2)

/-- `IpAddr::from_str`: nothing may follow the address. -/
def parseIpAddr (s : List Char) : Option IpAddr :=
  match ((readIpv4Addr s).map fun read => (IpAddr.v4 read.1, read.2)).or
      ((readIpv6Addr s).map fun read => (IpAddr.v6 read.1, read.2)) with
  | some (address, []) => some address
  | _ => none

/-! ### The texts of addresses -/

def IsAddressChar (c : Char) : Prop := IsDigit 16 c ∨ c = ':' ∨ c = '.'

theorem isDigit_sixteen_of_ten {c : Char} (h : IsDigit 10 c) : IsDigit 16 c := by
  unfold IsDigit toDigit at h ⊢
  split_ifs at h ⊢ <;> simp_all <;> omega

variable {s rest : List Char}

theorem digits_of_readNumber {radix maxDigits bound : ℕ} {allowZeroPrefix : Bool} {number : ℕ}
    (h : readNumber radix maxDigits bound allowZeroPrefix s = some (number, rest)) :
    ∃ digits, s = digits ++ rest ∧ ∀ c ∈ digits, IsDigit radix c := by
  unfold readNumber at h
  dsimp only at h
  split_ifs at h
  cases h
  refine ⟨s.takeWhile (IsDigit radix ·), List.takeWhile_append_dropWhile.symm, fun c hc => ?_⟩
  have hdigit := List.mem_takeWhile_imp hc
  exact of_decide_eq_true hdigit

theorem digits_of_readOctet {octet : UInt8} (h : readOctet s = some (octet, rest)) :
    ∃ digits, s = digits ++ rest ∧ ∀ c ∈ digits, IsDigit 10 c := by
  obtain ⟨⟨number, rest'⟩, hread, heq⟩ := Option.map_eq_some_iff.1 h
  cases heq
  exact digits_of_readNumber hread

theorem digits_of_readGroup {group : UInt16} (h : readGroup s = some (group, rest)) :
    ∃ digits, s = digits ++ rest ∧ ∀ c ∈ digits, IsDigit 16 c := by
  obtain ⟨⟨number, rest'⟩, hread, heq⟩ := Option.map_eq_some_iff.1 h
  cases heq
  exact digits_of_readNumber hread

theorem eq_of_readGivenChar {given : Char} (h : readGivenChar given s = some rest) :
    s = given :: rest := by
  cases s with
  | nil => cases h
  | cons c s =>
    rw [readGivenChar] at h
    split_ifs at h with hc
    cases h
    rw [hc]

theorem readSeparated_eq_some {α : Type} {separator : Char}
    {inner : List Char → Option (α × List Char)} {read : α × List Char}
    (h : readSeparated false separator inner s = some read) :
    ∃ rest, s = separator :: rest ∧ inner rest = some read := by
  obtain ⟨rest, hgiven, hinner⟩ := Option.bind_eq_some_iff.1 h
  exact ⟨rest, eq_of_readGivenChar hgiven, hinner⟩

/-- **The text of an IPv4 address** has decimal digits and dots. -/
structure IsIpv4Text (text : List Char) : Prop where
  chars : ∀ c ∈ text, IsDigit 10 c ∨ c = '.'
  dot : '.' ∈ text

theorem text_of_readIpv4Addr {address : Ipv4Addr} (h : readIpv4Addr s = some (address, rest)) :
    ∃ text, s = text ++ rest ∧ IsIpv4Text text := by
  obtain ⟨⟨a, s₁⟩, ha, h⟩ := Option.bind_eq_some_iff.1 h
  obtain ⟨⟨b, s₂⟩, hb, h⟩ := Option.bind_eq_some_iff.1 h
  obtain ⟨⟨c, s₃⟩, hc, h⟩ := Option.bind_eq_some_iff.1 h
  obtain ⟨⟨d, s₄⟩, hd, h⟩ := Option.map_eq_some_iff.1 h
  cases h
  obtain ⟨as, rfl, has⟩ := digits_of_readOctet ha
  obtain ⟨_, rfl, hb⟩ := readSeparated_eq_some hb
  obtain ⟨bs, rfl, hbs⟩ := digits_of_readOctet hb
  obtain ⟨_, rfl, hc⟩ := readSeparated_eq_some hc
  obtain ⟨cs, rfl, hcs⟩ := digits_of_readOctet hc
  obtain ⟨_, rfl, hd⟩ := readSeparated_eq_some hd
  obtain ⟨ds, rfl, hds⟩ := digits_of_readOctet hd
  refine ⟨as ++ '.' :: (bs ++ '.' :: (cs ++ '.' :: ds)), by simp, ?_, by simp⟩
  intro c hmem
  simp only [List.mem_append, List.mem_cons] at hmem
  rcases hmem with hmem | rfl | hmem | rfl | hmem | rfl | hmem
  · exact .inl (has c hmem)
  · exact .inr rfl
  · exact .inl (hbs c hmem)
  · exact .inr rfl
  · exact .inl (hcs c hmem)
  · exact .inr rfl
  · exact .inl (hds c hmem)

theorem IsIpv4Text.addressChars {text : List Char} (h : IsIpv4Text text) :
    ∀ c ∈ text, IsAddressChar c := by
  intro c hmem
  rcases h.chars c hmem with hdigit | rfl
  · exact .inl (isDigit_sixteen_of_ten hdigit)
  · exact .inr (.inr rfl)

theorem addressChars_of_digits {digits : List Char} (h : ∀ c ∈ digits, IsDigit 16 c) :
    ∀ c ∈ digits, IsAddressChar c := fun c hmem => .inl (h c hmem)

theorem text_of_readGroups {n : ℕ} {first : Bool} {s : List Char} :
    ∃ text, s = text ++ (readGroups n first s).2.2 ∧ (∀ c ∈ text, IsAddressChar c) ∧
      (readGroups n first s).1.length ≤
        text.count ':' + (if first then 1 else 0) +
          (if (readGroups n first s).2.1 then 1 else 0) := by
  induction n generalizing first s with
  | zero => exact ⟨[], rfl, fun c hmem => absurd hmem List.not_mem_nil, Nat.zero_le _⟩
  | succ n ih =>
    -- a group or an address, and the colon before it
    have hseparated : ∀ {α : Type} {inner : List Char → Option (α × List Char)} {read : α}
        {rest : List Char}, readSeparated first ':' inner s = some (read, rest) →
          (∀ s', inner s' = some (read, rest) →
            ∃ text, s' = text ++ rest ∧ ∀ c ∈ text, IsAddressChar c) →
          ∃ text, s = text ++ rest ∧ (∀ c ∈ text, IsAddressChar c) ∧
            1 ≤ text.count ':' + (if first then 1 else 0) := by
      intro α inner read rest hread hinner
      cases first with
      | true =>
        obtain ⟨text, htext, hchars⟩ := hinner s hread
        exact ⟨text, htext, hchars, by simp⟩
      | false =>
        obtain ⟨s', rfl, hread⟩ := readSeparated_eq_some hread
        obtain ⟨text, rfl, hchars⟩ := hinner s' hread
        refine ⟨':' :: text, rfl, fun c hmem => ?_, by simp⟩
        rcases List.mem_cons.1 hmem with rfl | hmem
        · exact .inr (.inl rfl)
        · exact hchars c hmem
    rw [readGroups]
    cases hipv4 : (if 0 < n then readSeparated first ':' readIpv4Addr s else none) with
    | some read =>
      obtain ⟨address, rest⟩ := read
      split_ifs at hipv4
      obtain ⟨text, htext, hchars, hcount⟩ := hseparated hipv4 fun s' hs' => by
        obtain ⟨text, htext, hipv4Text⟩ := text_of_readIpv4Addr hs'
        exact ⟨text, htext, hipv4Text.addressChars⟩
      refine ⟨text, htext, hchars, ?_⟩
      show 2 ≤ _
      simp only [if_true]
      omega
    | none =>
      cases hgroup : readSeparated first ':' readGroup s with
      | none =>
        exact ⟨[], rfl, fun c hmem => absurd hmem List.not_mem_nil, Nat.zero_le _⟩
      | some read =>
        obtain ⟨group, rest⟩ := read
        obtain ⟨text, htext, hchars, hcount⟩ := hseparated hgroup fun s' hs' => by
          obtain ⟨digits, hdigits, hall⟩ := digits_of_readGroup hs'
          exact ⟨digits, hdigits, addressChars_of_digits hall⟩
        obtain ⟨more, hmore, hmoreChars, hmoreCount⟩ := @ih false rest
        refine ⟨text ++ more, ?_, fun c hmem => ?_, ?_⟩
        · rw [List.append_assoc, ← hmore]
          exact htext
        · rcases List.mem_append.1 hmem with hmem | hmem
          · exact hchars c hmem
          · exact hmoreChars c hmem
        · rw [List.count_append]
          dsimp only
          rw [List.length_cons]
          simp only [Bool.false_eq_true, if_false] at hmoreCount
          omega

/-- **The text of an IPv6 address** has hexadecimal digits, dots and at least two colons. -/
structure IsIpv6Text (text : List Char) : Prop where
  chars : ∀ c ∈ text, IsAddressChar c
  colons : 2 ≤ text.count ':'

theorem text_of_readIpv6Addr {segments : Vector UInt16 8}
    (h : readIpv6Addr s = some (segments, rest)) : ∃ text, s = text ++ rest ∧ IsIpv6Text text := by
  unfold readIpv6Addr at h
  dsimp only at h
  obtain ⟨head, hhead, hheadChars, hheadCount⟩ := @text_of_readGroups 8 true s
  split_ifs at h with hfull hipv4
  · cases h
    refine ⟨head, hhead, hheadChars, ?_⟩
    rw [hfull] at hheadCount
    split_ifs at hheadCount <;> omega
  · obtain ⟨s₁, h₁, h⟩ := Option.bind_eq_some_iff.1 h
    obtain ⟨s₂, h₂, h⟩ := Option.map_eq_some_iff.1 h
    cases h
    have hcolons := (eq_of_readGivenChar h₁).trans (congrArg (':' :: ·) (eq_of_readGivenChar h₂))
    obtain ⟨tail, htail, htailChars, -⟩ :=
      @text_of_readGroups (8 - ((readGroups 8 true s).1.length + 1)) true s₂
    refine ⟨head ++ ':' :: ':' :: tail, ?_, fun c hmem => ?_, ?_⟩
    · rw [List.append_assoc, List.cons_append, List.cons_append, ← htail, ← hcolons]
      exact hhead
    · simp only [List.mem_append, List.mem_cons] at hmem
      rcases hmem with hmem | rfl | rfl | hmem
      · exact hheadChars c hmem
      · exact .inr (.inl rfl)
      · exact .inr (.inl rfl)
      · exact htailChars c hmem
    · simp only [List.count_append, List.count_cons_self]
      omega

def IpAddr.IsTextOf (text : List Char) : IpAddr → Prop
  | .v4 _ => IsIpv4Text text
  | .v6 _ => IsIpv6Text text

theorem text_of_parseIpAddr {text : List Char} {address : IpAddr}
    (h : parseIpAddr text = some address) : address.IsTextOf text := by
  unfold parseIpAddr at h
  cases hread : ((readIpv4Addr text).map fun read => (IpAddr.v4 read.1, read.2)).or
      ((readIpv6Addr text).map fun read => (IpAddr.v6 read.1, read.2)) with
  | none =>
    rw [hread] at h
    cases h
  | some read =>
    obtain ⟨found, rest⟩ := read
    rw [hread] at h
    cases rest with
    | cons c rest => cases h
    | nil =>
      cases h
      rw [Option.or_eq_some_iff] at hread
      rcases hread with hipv4 | ⟨-, hipv6⟩
      · obtain ⟨⟨read, rest⟩, hread, heq⟩ := Option.map_eq_some_iff.1 hipv4
        cases heq
        obtain ⟨text', rfl, htext⟩ := text_of_readIpv4Addr hread
        rw [List.append_nil]
        exact htext
      · obtain ⟨⟨read, rest⟩, hread, heq⟩ := Option.map_eq_some_iff.1 hipv6
        cases heq
        obtain ⟨text', rfl, htext⟩ := text_of_readIpv6Addr hread
        rw [List.append_nil]
        exact htext

end Net
