/-
Hash maps with string keys, kept with their entries in iteration order.

The order is visible wherever a map is printed or walked; `SameAs` compares two
maps by content.
-/
import Mathlib.Algebra.BigOperators.Group.List.Basic
import Mathlib.Algebra.Ring.Nat
import Mathlib.Data.List.Induction
import Mathlib.Data.List.Nodup

namespace AiOpenRouter

/-- `HashMap<String, α>`: the entries in iteration order. -/
structure HashMap (α : Type) where
  entries : List (String × α)
  nodup : (entries.map Prod.fst).Nodup

namespace HashMap

variable {α : Type}

/-- `HashMap::new`. -/
def empty : HashMap α := ⟨[], List.nodup_nil⟩

/-- `HashMap::get`. -/
def get (m : HashMap α) (key : String) : Option α := m.entries.lookup key

/-- `HashMap::keys`. -/
def keys (m : HashMap α) : List String := m.entries.map Prod.fst

/-- `HashMap::contains_key`. -/
def contains (m : HashMap α) (key : String) : Bool := decide (key ∈ m.keys)

/-- `HashMap::is_empty`. -/
def isEmpty (m : HashMap α) : Bool := m.entries.isEmpty

/-- The same map: the same entries, in any order. -/
def SameAs (m m' : HashMap α) : Prop := m.entries.Perm m'.entries

theorem map_fst_replace (entries : List (String × α)) (key : String) (value : α) :
    (entries.map fun entry => if entry.1 = key then (key, value) else entry).map Prod.fst =
      entries.map Prod.fst := by
  rw [List.map_map]
  refine List.map_congr_left fun entry _ => ?_
  by_cases h : entry.1 = key
  · simp [h]
  · simp [h]

/-- `entry(key).or_insert(value)`: a key the map has keeps its value. -/
def insertNew (m : HashMap α) (key : String) (value : α) : HashMap α :=
  if h : key ∈ m.keys then m
  else
    ⟨m.entries ++ [(key, value)], by
      rw [List.map_append, List.map_singleton, ← List.concat_eq_append]
      exact m.nodup.concat h⟩

/-- `HashMap::insert`: a key the map has gets the new value. -/
def insert (m : HashMap α) (key : String) (value : α) : HashMap α :=
  if key ∈ m.keys then
    ⟨m.entries.map fun entry => if entry.1 = key then (key, value) else entry, by
      rw [map_fst_replace]
      exact m.nodup⟩
  else m.insertNew key value

/-! ### Looking up -/

@[simp] theorem get_empty (key : String) : (empty : HashMap α).get key = none := rfl

variable {m m' : HashMap α} {key key' : String} {entries : List (String × α)} {entry : String × α}
  (f : α → ℕ) (value : α)

theorem get_isSome_iff : (m.get key).isSome ↔ key ∈ m.keys := by
  rw [get, List.lookup_isSome_iff]
  constructor
  · rintro ⟨entry, hmem, hkey⟩
    exact List.mem_map.2 ⟨entry, hmem, (beq_iff_eq.1 hkey).symm⟩
  · intro h
    obtain ⟨entry, hmem, rfl⟩ := List.mem_map.1 h
    exact ⟨entry, hmem, beq_self_eq_true _⟩

theorem get_eq_none_iff : m.get key = none ↔ key ∉ m.keys := by
  rw [← get_isSome_iff, Option.not_isSome_iff_eq_none]

theorem get_eq_some_iff {value : α} : m.get key = some value ↔ (key, value) ∈ m.entries := by
  obtain ⟨entries, hnodup⟩ := m
  show entries.lookup key = some value ↔ _
  induction entries with
  | nil => simp
  | cons entry entries ih =>
    obtain ⟨key', value'⟩ := entry
    rw [List.map_cons, List.nodup_cons] at hnodup
    rw [List.lookup_cons, List.mem_cons]
    by_cases h : key = key'
    · subst h
      have hnot : (key, value) ∉ entries := fun hmem =>
        hnodup.1 (List.mem_map.2 ⟨_, hmem, rfl⟩)
      simp [hnot, eq_comm]
    · rw [beq_false_of_ne h, ih hnodup.2]
      simp [h]

theorem mem_keys_of_get {value : α} (h : m.get key = some value) : key ∈ m.keys :=
  get_isSome_iff.1 (by rw [h]; rfl)

/-! ### Inserting -/

theorem insertNew_of_mem (h : key ∈ m.keys) : m.insertNew key value = m := dif_pos h

theorem entries_insertNew (h : key ∉ m.keys) :
    (m.insertNew key value).entries = m.entries ++ [(key, value)] := by
  rw [insertNew, dif_neg h]

theorem get_insertNew_of_get {value : α} (value' : α) (h : m.get key = some value) :
    (m.insertNew key' value').get key = some value := by
  by_cases hmem : key' ∈ m.keys
  · rwa [insertNew_of_mem value' hmem]
  · rw [get_eq_some_iff, entries_insertNew value' hmem]
    exact List.mem_append_left _ (get_eq_some_iff.1 h)

theorem get_insertNew_self (h : key ∉ m.keys) : (m.insertNew key value).get key = some value := by
  rw [get_eq_some_iff, entries_insertNew value h]
  exact List.mem_append_right _ (List.mem_singleton_self _)

theorem get_insertNew (m : HashMap α) (key key' : String) (value : α) :
    (m.insertNew key value).get key' =
      (m.get key').or (if key' = key then some value else none) := by
  by_cases hmem : key ∈ m.keys
  · rw [insertNew_of_mem value hmem]
    by_cases hkey : key' = key
    · obtain ⟨old, hold⟩ := Option.isSome_iff_exists.1 (get_isSome_iff.2 hmem)
      rw [hkey, hold]
      rfl
    · rw [if_neg hkey, Option.or_none]
  · by_cases hkey : key' = key
    · rw [hkey, get_insertNew_self value hmem, get_eq_none_iff.2 hmem, if_pos rfl]
      rfl
    · refine Option.ext fun found => ?_
      rw [if_neg hkey, Option.or_none, get_eq_some_iff, get_eq_some_iff,
        entries_insertNew value hmem, List.mem_append, List.mem_singleton]
      exact ⟨fun h => h.resolve_right fun heq => hkey (Prod.mk.inj heq).1, .inl⟩

theorem mem_entries_insertNew {value : α} (h : entry ∈ (m.insertNew key value).entries) :
    entry ∈ m.entries ∨ entry = (key, value) := by
  by_cases hmem : key ∈ m.keys
  · rw [insertNew_of_mem value hmem] at h
    exact .inl h
  · rw [entries_insertNew value hmem] at h
    exact (List.mem_append.1 h).imp_right List.mem_singleton.1

theorem mem_keys_insertNew {value : α} :
    key' ∈ (m.insertNew key value).keys ↔ key' ∈ m.keys ∨ key' = key := by
  by_cases hmem : key ∈ m.keys
  · rw [insertNew_of_mem value hmem]
    exact ⟨.inl, fun h => h.elim id fun h => h ▸ hmem⟩
  · rw [keys, entries_insertNew value hmem, List.map_append, List.mem_append, List.map_singleton,
      List.mem_singleton]
    rfl

theorem get_insert (m : HashMap α) (key key' : String) (value : α) :
    (m.insert key value).get key' = if key' = key then some value else m.get key' := by
  unfold insert
  -- a key that is there keeps its place
  by_cases hmem : key ∈ m.keys
  · rw [if_pos hmem]
    obtain ⟨old, hold⟩ := Option.isSome_iff_exists.1 (get_isSome_iff.2 hmem)
    refine Option.ext fun found => ?_
    rw [get_eq_some_iff]
    by_cases hkey : key' = key
    · subst hkey
      rw [if_pos rfl, Option.some_inj]
      constructor
      · intro h
        obtain ⟨entry, -, heq⟩ := List.mem_map.1 h
        by_cases hentry : entry.1 = key'
        · rw [if_pos hentry] at heq
          exact (Prod.mk.inj heq).2
        · rw [if_neg hentry] at heq
          exact absurd (congrArg Prod.fst heq) hentry
      · rintro rfl
        exact List.mem_map.2 ⟨(key', old), get_eq_some_iff.1 hold, if_pos rfl⟩
    · rw [if_neg hkey, get_eq_some_iff]
      constructor
      · intro h
        obtain ⟨entry, hentry, heq⟩ := List.mem_map.1 h
        by_cases hfst : entry.1 = key
        · rw [if_pos hfst] at heq
          exact absurd (Prod.mk.inj heq).1.symm hkey
        · rw [if_neg hfst] at heq
          exact heq ▸ hentry
      · intro h
        exact List.mem_map.2 ⟨(key', found), h, if_neg hkey⟩
  · rw [if_neg hmem, get_insertNew]
    by_cases hkey : key' = key
    · rw [hkey, get_eq_none_iff.2 hmem]
      rfl
    · rw [if_neg hkey, if_neg hkey, Option.or_none]

/-- `HashMap::remove`. -/
def remove (m : HashMap α) (key : String) : HashMap α where
  entries := m.entries.filter fun entry => entry.1 ≠ key
  nodup := m.nodup.sublist (List.filter_sublist.map Prod.fst)

theorem get_remove (m : HashMap α) (key key' : String) :
    (m.remove key).get key' = if key' = key then none else m.get key' := by
  refine Option.ext fun value => ?_
  rw [get_eq_some_iff, remove, List.mem_filter, decide_eq_true_eq, ← get_eq_some_iff]
  by_cases hkey : key' = key
  · simp [hkey]
  · simp [hkey]

def ofEntries (entries : List (String × α)) : HashMap α :=
  entries.foldl (fun m entry => m.insert entry.1 entry.2) empty

theorem entries_insert (h : key ∉ m.keys) :
    (m.insert key value).entries = m.entries ++ [(key, value)] := by
  rw [insert, if_neg h, entries_insertNew value h]

theorem entries_ofEntries (h : (entries.map Prod.fst).Nodup) :
    (ofEntries entries).entries = entries := by
  have hfold : ∀ (entries : List (String × α)) (m : HashMap α),
      (m.keys ++ entries.map Prod.fst).Nodup →
        (entries.foldl (fun m entry => m.insert entry.1 entry.2) m).entries =
          m.entries ++ entries := by
    intro entries
    induction entries with
    | nil => exact fun m _ => (List.append_nil _).symm
    | cons entry entries ih =>
      intro m hnodup
      have hnew : entry.1 ∉ m.keys := fun hmem =>
        (List.nodup_append.1 hnodup).2.2 _ hmem _ List.mem_cons_self rfl
      have hkeys : (m.insert entry.1 entry.2).keys = m.keys ++ [entry.1] := by
        rw [keys, entries_insert entry.2 hnew, List.map_append]
        rfl
      rw [List.foldl_cons, ih, entries_insert entry.2 hnew, List.append_assoc]
      · rfl
      · rw [hkeys, List.append_assoc]
        exact hnodup
  exact hfold entries empty h

theorem eq_of_entries_eq (h : m.entries = m'.entries) : m = m' := by
  cases m
  cases m'
  congr

theorem ofEntries_entries (m : HashMap α) : ofEntries m.entries = m :=
  eq_of_entries_eq (entries_ofEntries m.nodup)

/-! ### The same map in another order -/

/-- **Two maps are the same exactly when they have the same values.** -/
theorem sameAs_iff : m.SameAs m' ↔ ∀ key, m.get key = m'.get key := by
  rw [SameAs, List.perm_ext_iff_of_nodup m.nodup.of_map m'.nodup.of_map]
  constructor
  · intro h key
    refine Option.ext fun value => ?_
    rw [get_eq_some_iff, get_eq_some_iff, h]
  · rintro h ⟨key, value⟩
    rw [← get_eq_some_iff, ← get_eq_some_iff, h]

theorem exists_sameAs_cons (h : entry ∈ m.entries) :
    ∃ (m' : HashMap α) (rest : List (String × α)), m'.SameAs m ∧ m'.entries = entry :: rest := by
  obtain ⟨before, after, hsplit⟩ := List.append_of_mem h
  have hperm : (entry :: (before ++ after)).Perm m.entries := by
    rw [hsplit]
    exact List.perm_middle.symm
  exact ⟨⟨entry :: (before ++ after), (hperm.map Prod.fst).nodup_iff.2 m.nodup⟩, _, hperm, rfl⟩

def reverse (m : HashMap α) : HashMap α :=
  ⟨m.entries.reverse, by
    rw [List.map_reverse, List.nodup_reverse]
    exact m.nodup⟩

theorem reverse_sameAs (m : HashMap α) : m.reverse.SameAs m := List.reverse_perm m.entries

theorem length_le_one_of_reverse (h : m.reverse = m) : m.entries.length ≤ 1 := by
  obtain ⟨entries, hnodup⟩ := m
  have hreverse : entries.reverse = entries := congrArg HashMap.entries h
  cases entries with
  | nil => exact Nat.zero_le 1
  | cons first rest =>
    rcases List.eq_nil_or_concat rest with rfl | ⟨middle, last, rfl⟩
    · exact le_rfl
    · -- the last entry would be the first one as well
      rw [List.concat_eq_append, List.reverse_cons, List.reverse_append] at hreverse
      have hsame : last = first := (List.cons.inj hreverse).1
      rw [hsame, List.concat_eq_append, List.map_cons, List.nodup_cons, List.map_append] at hnodup
      exact absurd (List.mem_append_right _ List.mem_cons_self) hnodup.1

theorem SameAs.eq_of_length_le_one (h : m.SameAs m') (hlength : m.entries.length ≤ 1) : m = m' := by
  refine eq_of_entries_eq ?_
  have hperm : m.entries.Perm m'.entries := h
  cases hentries : m.entries with
  | nil =>
    rw [hentries] at hperm
    exact hperm.nil_eq
  | cons entry rest =>
    rw [hentries, List.length_cons] at hlength
    have hnil : rest = [] := List.length_eq_zero_iff.1 (by omega)
    rw [hentries, hnil] at hperm
    rw [hnil]
    exact (List.perm_singleton.1 hperm.symm).symm

/-! ### Maps that are filled row by row -/

theorem ofEntries_concat (entries : List (String × α)) (entry : String × α) :
    ofEntries (entries ++ [entry]) = (ofEntries entries).insert entry.1 entry.2 := by
  rw [ofEntries, List.foldl_append]
  rfl

theorem exists_split_insert (h : key ∈ m.keys) :
    ∃ before old after, m.entries = before ++ (key, old) :: after ∧
      (m.insert key value).entries = before ++ (key, value) :: after := by
  obtain ⟨entry, hmem, rfl⟩ := List.mem_map.1 h
  obtain ⟨before, after, hsplit⟩ := List.append_of_mem hmem
  refine ⟨before, entry.2, after, hsplit, ?_⟩
  have hnodup := m.nodup
  rw [hsplit, List.map_append, List.map_cons, List.nodup_middle, List.nodup_cons,
    List.mem_append, not_or] at hnodup
  have hother : ∀ others : List (String × α), entry.1 ∉ others.map Prod.fst →
      others.map (fun other => if other.1 = entry.1 then (entry.1, value) else other) =
        others := by
    intro others hnot
    refine (List.map_congr_left fun other hmem => ?_).trans (List.map_id _)
    refine if_neg fun heq => hnot ?_
    rw [← heq]
    exact List.mem_map_of_mem hmem
  rw [insert, if_pos h]
  dsimp only
  rw [hsplit, List.map_append, List.map_cons, if_pos rfl, hother _ hnodup.1.1,
    hother _ hnodup.1.2]

theorem mem_keys_insert {value : α} :
    key' ∈ (m.insert key value).keys ↔ key' ∈ m.keys ∨ key' = key := by
  rw [← get_isSome_iff, ← get_isSome_iff, get_insert]
  split_ifs with h <;> simp [h]

theorem mem_keys_ofEntries : key ∈ (ofEntries entries).keys ↔ key ∈ entries.map Prod.fst := by
  induction entries using List.reverseRecOn with
  | nil => exact Iff.rfl
  | append_singleton entries entry ih =>
    rw [ofEntries_concat, mem_keys_insert, ih, List.map_append, List.mem_append,
      List.map_singleton, List.mem_singleton]

theorem mem_of_get_ofEntries {value : α} (h : (ofEntries entries).get key = some value) :
    (key, value) ∈ entries := by
  induction entries using List.reverseRecOn with
  | nil => cases h
  | append_singleton entries entry ih =>
    rw [ofEntries_concat, get_insert] at h
    rw [List.mem_append, List.mem_singleton]
    split_ifs at h with hkey
    · cases h
      exact .inr (Prod.ext hkey rfl)
    · exact .inl (ih h)

def sumOf (f : α → ℕ) (m : HashMap α) : ℕ := (m.entries.map fun entry => f entry.2).sum

theorem sumOf_insert_of_notMem (h : key ∉ m.keys) :
    (m.insert key value).sumOf f = m.sumOf f + f value := by
  unfold sumOf
  rw [entries_insert value h, List.map_append, List.sum_append, List.map_singleton,
    List.sum_singleton]

theorem exists_sumOf_insert_of_mem (h : key ∈ m.keys) :
    ∃ old, m.get key = some old ∧ (m.insert key value).sumOf f + f old = m.sumOf f + f value := by
  obtain ⟨before, old, after, hold, hnew⟩ := exists_split_insert value h
  refine ⟨old, ?_, ?_⟩
  · rw [get_eq_some_iff, hold]
    exact List.mem_append_right _ List.mem_cons_self
  · unfold sumOf
    rw [hold, hnew, List.map_append, List.map_append, List.sum_append, List.sum_append,
      List.map_cons, List.map_cons, List.sum_cons, List.sum_cons]
    dsimp only
    omega

theorem sumOf_ofEntries_le (entries : List (String × α)) :
    (ofEntries entries).sumOf f ≤ (entries.map fun entry => f entry.2).sum := by
  induction entries using List.reverseRecOn with
  | nil => exact le_rfl
  | append_singleton entries entry ih =>
    rw [ofEntries_concat, List.map_append, List.sum_append, List.map_singleton,
      List.sum_singleton]
    by_cases h : entry.1 ∈ (ofEntries entries).keys
    · obtain ⟨old, -, hsum⟩ := exists_sumOf_insert_of_mem f entry.2 h
      omega
    · rw [sumOf_insert_of_notMem f entry.2 h]
      omega

/-- **Rows of positive weight are all in the map exactly when their keys are different.** -/
theorem sumOf_ofEntries_eq_iff {f : α → ℕ} (hpos : ∀ entry ∈ entries, 0 < f entry.2) :
    (ofEntries entries).sumOf f = (entries.map fun entry => f entry.2).sum ↔
      (entries.map Prod.fst).Nodup := by
  refine ⟨fun h => ?_, fun h => by rw [sumOf, entries_ofEntries h]⟩
  induction entries using List.reverseRecOn with
  | nil => exact List.nodup_nil
  | append_singleton entries entry ih =>
    have hle := sumOf_ofEntries_le f entries
    rw [ofEntries_concat, List.map_append, List.sum_append, List.map_singleton,
      List.sum_singleton] at h
    by_cases hmem : entry.1 ∈ (ofEntries entries).keys
    · -- the value that is replaced is missing in the sum
      obtain ⟨old, hget, hsum⟩ := exists_sumOf_insert_of_mem f entry.2 hmem
      have hold := hpos _ (List.mem_append_left _ (mem_of_get_ofEntries hget))
      dsimp only at hold
      omega
    · rw [sumOf_insert_of_notMem f entry.2 hmem] at h
      have hnodup := ih (fun other hother => hpos other (List.mem_append_left _ hother))
        (by omega)
      rw [List.map_append, List.map_singleton, ← List.concat_eq_append]
      exact hnodup.concat fun hkey => hmem (mem_keys_ofEntries.2 hkey)

/-! ### Values -/

def mapValues {β : Type} (f : α → β) (m : HashMap α) : HashMap β :=
  ⟨m.entries.map fun entry => (entry.1, f entry.2), by
    rw [List.map_map]
    exact m.nodup⟩

/-- **Values that are changed, and leave the map the same, are not changed at all.** -/
theorem eq_of_mapValues_sameAs {f : α → α} (h : (m.mapValues f).SameAs m)
    (hmem : entry ∈ m.entries) :
    f entry.2 = entry.2 := by
  have hmapped : (entry.1, f entry.2) ∈ m.entries :=
    h.mem_iff.1 (List.mem_map.2 ⟨entry, hmem, rfl⟩)
  have hfound := get_eq_some_iff.2 hmapped
  rw [get_eq_some_iff.2 (show (entry.1, entry.2) ∈ m.entries from hmem)] at hfound
  exact (Option.some_inj.1 hfound).symm

/-- `HashMap::extend`. -/
def extend (m m' : HashMap α) : HashMap α :=
  m'.entries.foldl (fun extended entry => extended.insert entry.1 entry.2) m

theorem get_extend (m m' : HashMap α) (key : String) :
    (m.extend m').get key = (m'.get key).or (m.get key) := by
  obtain ⟨entries, hnodup⟩ := m'
  show (entries.foldl (fun extended entry => extended.insert entry.1 entry.2) m).get key =
    (entries.lookup key).or (m.get key)
  induction entries generalizing m with
  | nil => rfl
  | cons entry entries ih =>
    rw [List.map_cons, List.nodup_cons] at hnodup
    rw [List.foldl_cons, ih _ hnodup.2, get_insert, List.lookup_cons]
    by_cases hkey : key = entry.1
    · have hnone : entries.lookup key = none := by
        rw [List.lookup_eq_none_iff]
        intro other hmem
        rw [bne_iff_ne, hkey]
        exact fun heq => hnodup.1 (heq ▸ List.mem_map_of_mem hmem)
      rw [hnone, if_pos hkey, hkey, beq_self_eq_true]
      rfl
    · rw [if_neg hkey, beq_false_of_ne hkey]

end HashMap

end AiOpenRouter
