/-
The documented routing rule: a request goes to the entry with the longest pattern
that occurs in its model, where a `*` at the end of a pattern is a wildcard, and to
the `default` entry when no pattern does.

`selectEntry` looks for the pattern as it is written, its `*` included, for an empty
pattern, and for the word `default`.

* `DocumentedChoice` is the rule, `FollowsRule` says that a table follows it for a
  model, in every order of its rows;
* `followsRule_iff`: it does so exactly when the rows that are found without being
  meant are shorter than one that is both, and those that are meant without being
  found are not longer.
-/
import AiOpenRouter.Routing
import AiOpenRouter.Json

namespace AiOpenRouter

/-! ### The rule -/

/-- The text of a pattern: a `*` at its end is a wildcard. -/
def patternText (pattern : String) : String :=
  if pattern.toList.getLast? = some '*' then String.ofList pattern.toList.dropLast else pattern

def IsMeant (requestModel : String) (entry : RouteEntry) : Prop :=
  entry.requestModel ≠ "default" ∧ patternText entry.requestModel ≠ "" ∧
    containsText requestModel (patternText entry.requestModel) = true

instance (requestModel : String) (entry : RouteEntry) : Decidable (IsMeant requestModel entry) :=
  inferInstanceAs (Decidable (_ ∧ _))

def IsEligible (routingTable : List RouteEntry) (requestModel : String) (entry : RouteEntry) :
    Prop :=
  IsMeant requestModel entry ∨
    entry.requestModel = "default" ∧ ∀ other ∈ routingTable, ¬ IsMeant requestModel other

def RouteEntry.patternLength (entry : RouteEntry) : ℕ := entry.requestModel.utf8ByteSize

def DocumentedChoice (routingTable : List RouteEntry) (requestModel : String)
    (entry : RouteEntry) : Prop :=
  IsEligible routingTable requestModel entry ∧ ∀ other ∈ routingTable,
    IsMeant requestModel other → other.patternLength ≤ entry.patternLength

def NoTies (routingTable : List RouteEntry) (requestModel : String) : Prop :=
  ∀ entry ∈ routingTable, ∀ other ∈ routingTable, IsMeant requestModel entry →
    IsMeant requestModel other → entry.patternLength = other.patternLength → entry = other

/-- **A table follows the rule for a model**: in every order of its rows the chosen entry is a
documented one, and without ties it is the same in all of them. -/
def FollowsRule (routingTable : List RouteEntry) (requestModel : String) : Prop :=
  (∀ rows, rows.Perm routingTable → ∃ entry, selectEntry rows requestModel = some entry ∧
      DocumentedChoice routingTable requestModel entry) ∧
    (NoTies routingTable requestModel → ∀ rows, rows.Perm routingTable →
      selectEntry rows requestModel = selectEntry routingTable requestModel)

def IsFound (requestModel : String) (entry : RouteEntry) : Prop :=
  containsText requestModel entry.requestModel = true

/-- What is found without being eligible is shorter than something that is both, and what is meant
without being found is not longer. -/
def Unobstructed (routingTable : List RouteEntry) (requestModel : String) : Prop :=
  ∀ entry ∈ routingTable,
    (IsFound requestModel entry → ¬ IsEligible routingTable requestModel entry →
      ∃ other ∈ routingTable, IsFound requestModel other ∧
        IsEligible routingTable requestModel other ∧
          entry.patternLength < other.patternLength) ∧
    (IsMeant requestModel entry → ¬ IsFound requestModel entry →
      ∃ other ∈ routingTable, IsFound requestModel other ∧
        IsEligible routingTable requestModel other ∧
          entry.patternLength ≤ other.patternLength)

/-! ### What is chosen -/

variable {rows : List RouteEntry}

theorem select_spec {requestModel : String} {entry : RouteEntry}
    (h : selectEntry rows requestModel = some entry) :
    entry ∈ rows ∧
      ((IsFound requestModel entry ∧ ∀ other ∈ rows, IsFound requestModel other →
          other.patternLength ≤ entry.patternLength) ∨
        (entry.requestModel = "default" ∧ ∀ other ∈ rows, ¬ IsFound requestModel other)) := by
  unfold selectEntry at h
  dsimp only at h
  split_ifs at h with hfound
  · have hdefault := List.find?_some h
    refine ⟨List.mem_of_find?_eq_some h, .inr ⟨of_decide_eq_true hdefault, ?_⟩⟩
    exact fun other hmem => List.filter_eq_nil_iff.1 hfound other hmem
  · obtain ⟨before, after, hsplit, hbefore, hafter⟩ := split_of_maxByKey h
    have hentry : entry ∈ rows.filter fun entry =>
      containsText requestModel entry.requestModel := by
      rw [hsplit]
      exact List.mem_append_right _ List.mem_cons_self
    obtain ⟨hmem, hcontains⟩ := List.mem_filter.1 hentry
    refine ⟨hmem, .inl ⟨hcontains, fun other hother hotherFound => ?_⟩⟩
    have hsome : other ∈ rows.filter fun entry => containsText requestModel entry.requestModel :=
      List.mem_filter.2 ⟨hother, hotherFound⟩
    rw [hsplit] at hsome
    rcases List.mem_append.1 hsome with hleft | hright
    · exact hbefore other hleft
    · rcases List.mem_cons.1 hright with rfl | hright
      · exact le_rfl
      · exact (hafter other hright).le

theorem select_concat {requestModel : String} {entry : RouteEntry}
    (hfound : IsFound requestModel entry)
    (hlongest : ∀ other ∈ rows, IsFound requestModel other →
      other.patternLength ≤ entry.patternLength) :
    selectEntry (rows ++ [entry]) requestModel = some entry := by
  have hfilter : (rows ++ [entry]).filter
        (fun entry => containsText requestModel entry.requestModel) =
      rows.filter (fun entry => containsText requestModel entry.requestModel) ++ [entry] := by
    have hcontains : containsText requestModel entry.requestModel = true := hfound
    rw [List.filter_append, List.filter_cons, if_pos hcontains, List.filter_nil]
  unfold selectEntry
  rw [hfilter, if_neg (by simp)]
  refine maxByKey_of_split (fun other hmem => ?_) fun other hmem => absurd hmem List.not_mem_nil
  obtain ⟨hmem, hother⟩ := List.mem_filter.1 hmem
  exact hlongest other hmem hother

/-! ### When the rule is followed -/

section

variable {routingTable : List RouteEntry} {requestModel : String}

variable {entry : RouteEntry}

theorem IsEligible.isMeant {other : RouteEntry} (h : IsEligible routingTable requestModel entry)
    (hmem : other ∈ routingTable) (hother : IsMeant requestModel other) :
    IsMeant requestModel entry := by
  rcases h with hmeant | ⟨-, hnone⟩
  · exact hmeant
  · exact absurd hother (hnone other hmem)

theorem documentedChoice_of_unobstructed (h : Unobstructed routingTable requestModel)
    {rows : List RouteEntry} (hperm : rows.Perm routingTable)
    (hselect : selectEntry rows requestModel = some entry) :
    DocumentedChoice routingTable requestModel entry := by
  obtain ⟨hrow, hspec⟩ := select_spec hselect
  have hmem := hperm.mem_iff.1 hrow
  rcases hspec with ⟨hfound, hlongest⟩ | ⟨hdefault, hnone⟩
  · have heligible : IsEligible routingTable requestModel entry := by
      by_contra hnot
      obtain ⟨other, hother, hotherFound, -, hlt⟩ := (h entry hmem).1 hfound hnot
      have hle := hlongest other (hperm.mem_iff.2 hother) hotherFound
      omega
    refine ⟨heligible, fun other hother hmeant => ?_⟩
    by_cases hotherFound : IsFound requestModel other
    · exact hlongest other (hperm.mem_iff.2 hother) hotherFound
    · obtain ⟨longer, hlonger, hlongerFound, -, hle⟩ := (h other hother).2 hmeant hotherFound
      exact hle.trans (hlongest longer (hperm.mem_iff.2 hlonger) hlongerFound)
  · -- nothing is found, so nothing is meant
    have hnotMeant : ∀ other ∈ routingTable, ¬ IsMeant requestModel other := by
      intro other hother hmeant
      have hnotFound := hnone other (hperm.mem_iff.2 hother)
      obtain ⟨longer, hlonger, hlongerFound, -, -⟩ := (h other hother).2 hmeant hnotFound
      exact hnone longer (hperm.mem_iff.2 hlonger) hlongerFound
    exact ⟨.inr ⟨hdefault, hnotMeant⟩, fun other hother hmeant =>
      absurd hmeant (hnotMeant other hother)⟩

theorem documentedChoice_unique (hties : NoTies routingTable requestModel)
    (hdistinct : (routingTable.map (·.requestModel)).Nodup) {other : RouteEntry}
    (hentry : entry ∈ routingTable) (hother : other ∈ routingTable)
    (hchoice : DocumentedChoice routingTable requestModel entry)
    (hotherChoice : DocumentedChoice routingTable requestModel other) : entry = other := by
  rcases hchoice.1 with hmeant | ⟨hdefault, hnone⟩
  · have hotherMeant := hotherChoice.1.isMeant hentry hmeant
    exact hties entry hentry other hother hmeant hotherMeant
      (le_antisymm (hotherChoice.2 entry hentry hmeant) (hchoice.2 other hother hotherMeant))
  · rcases hotherChoice.1 with hotherMeant | ⟨hotherDefault, -⟩
    · exact absurd hotherMeant (hnone other hother)
    · exact List.inj_on_of_nodup_map hdistinct hentry hother
        (hdefault.trans hotherDefault.symm)

/-- **A table with one default entry and different patterns follows the documented rule for a model
exactly when no row stands in the way**, and the route that is answered is that of the chosen
entry. -/
theorem followsRule_iff (hdefault : routingTable.any (·.requestModel = "default") = true)
    (hdistinct : (routingTable.map (·.requestModel)).Nodup) :
    (FollowsRule routingTable requestModel ↔ Unobstructed routingTable requestModel) ∧
      ∀ config route resolved, route.routingTable = routingTable →
        resolveRuntimeActiveRoute config route requestModel = .ok resolved →
          ∃ entry, selectEntry routingTable requestModel = some entry ∧
            resolved.routingTable = [entry] := by
  refine ⟨⟨fun h entry hmem => ⟨fun hfound hnot => ?_, fun hmeant hnot => ?_⟩, fun h => ?_⟩, ?_⟩
  · -- the row is put at the end, where it wins against the rows of its length
    by_contra hnone
    obtain ⟨before, after, hsplit⟩ := List.append_of_mem hmem
    have hperm : (before ++ after ++ [entry]).Perm routingTable := by
      rw [hsplit]
      exact (List.perm_append_singleton _ _).trans List.perm_middle.symm
    obtain ⟨chosen, hselect, hchoice⟩ := h.1 _ hperm
    obtain ⟨hrow, ⟨hchosenFound, hlongest⟩ | ⟨-, hnoneFound⟩⟩ := select_spec hselect
    · have hle := hlongest entry (List.mem_append_right _ List.mem_cons_self) hfound
      have hge : ¬ entry.patternLength < chosen.patternLength := fun hlt =>
        hnone ⟨chosen, hperm.mem_iff.1 hrow, hchosenFound, hchoice.1, hlt⟩
      have hlast : selectEntry (before ++ after ++ [entry]) requestModel = some entry := by
        refine select_concat hfound fun other hother hotherFound => ?_
        exact (hlongest other (List.mem_append_left _ hother) hotherFound).trans (not_lt.1 hge)
      rw [hlast, Option.some_inj] at hselect
      exact hnot (hselect ▸ hchoice.1)
    · exact hnoneFound entry (List.mem_append_right _ List.mem_cons_self) hfound
  · -- a row that is meant: the chosen one is as long
    obtain ⟨chosen, hselect, hchoice⟩ := h.1 _ (List.Perm.refl _)
    obtain ⟨hrow, ⟨hchosenFound, -⟩ | ⟨hchosenDefault, -⟩⟩ := select_spec hselect
    · exact ⟨chosen, hrow, hchosenFound, hchoice.1, hchoice.2 entry hmem hmeant⟩
    · exact absurd hchosenDefault (hchoice.1.isMeant hmem hmeant).1
  · have hsome : ∀ rows, rows.Perm routingTable → ∃ entry,
        selectEntry rows requestModel = some entry := fun rows hperm =>
      exists_select (by rw [hperm.any_eq]; exact hdefault) requestModel
    refine ⟨fun rows hperm => ?_, fun hties rows hperm => ?_⟩
    · obtain ⟨entry, hselect⟩ := hsome rows hperm
      exact ⟨entry, hselect, documentedChoice_of_unobstructed h hperm hselect⟩
    · obtain ⟨entry, hselect⟩ := hsome rows hperm
      obtain ⟨other, hother⟩ := hsome routingTable (List.Perm.refl _)
      rw [hselect, hother]
      refine congrArg some (documentedChoice_unique hties hdistinct ?_ ?_ ?_ ?_)
      · exact hperm.mem_iff.1 (select_spec hselect).1
      · exact (select_spec hother).1
      · exact documentedChoice_of_unobstructed h hperm hselect
      · exact documentedChoice_of_unobstructed h (List.Perm.refl _) hother
  · -- the resolved route carries the selected row
    intro config route resolved htable hok
    obtain ⟨entry, hselect⟩ := exists_select hdefault requestModel
    refine ⟨entry, hselect, ?_⟩
    unfold resolveRuntimeActiveRoute at hok
    rw [htable, hselect] at hok
    cases hfind : config.providers.find? (·.id = entry.providerId) with
    | none =>
      simp only [hfind] at hok
      cases hok
    | some provider =>
      simp only [hfind] at hok
      cases hok
      rfl

/-- **Without empty patterns, without a `*` at the end of one, and for a model that does not contain
the word `default`, the rule is followed.** -/
theorem unobstructed_of_plain
    (hplain : ∀ entry ∈ routingTable, entry.requestModel ≠ "" ∧
      entry.requestModel.toList.getLast? ≠ some '*')
    (hmodel : containsText requestModel "default" = false) :
    Unobstructed routingTable requestModel := by
  have hiff : ∀ entry ∈ routingTable, IsFound requestModel entry ↔ IsMeant requestModel entry := by
    intro entry hmem
    obtain ⟨hempty, hstar⟩ := hplain entry hmem
    rw [IsMeant, patternText, if_neg hstar]
    refine ⟨fun hfound => ⟨fun hdefault => ?_, hempty, hfound⟩, fun hmeant => hmeant.2.2⟩
    rw [IsFound, hdefault, hmodel] at hfound
    cases hfound
  intro entry hmem
  exact ⟨fun hfound hnot => absurd (.inl ((hiff entry hmem).1 hfound)) hnot,
    fun hmeant hnot => absurd ((hiff entry hmem).2 hmeant) hnot⟩

end

/-- The table of the documentation, with the pattern of Claude models. -/
def claudeTable (pattern : String) : List RouteEntry :=
  [⟨"default", "openai", "gpt-4o"⟩, ⟨pattern, "anthropic", "claude-sonnet-4"⟩]

/-- A pattern without a `*` is found. -/
theorem followsRule_claude : FollowsRule (claudeTable "claude") "claude-3-5-sonnet" := by
  refine (followsRule_iff (by decide) (by decide)).1.2 (unobstructed_of_plain ?_ (by decide))
  decide

/-- The documented pattern sends a Claude model to the default provider. -/
theorem not_followsRule_claudeStar :
    selectEntry (claudeTable "claude*") "claude-3-5-sonnet" =
        some ⟨"default", "openai", "gpt-4o"⟩ ∧
      ¬ FollowsRule (claudeTable "claude*") "claude-3-5-sonnet" := by
  have hselect : selectEntry (claudeTable "claude*") "claude-3-5-sonnet" =
      some ⟨"default", "openai", "gpt-4o"⟩ := by decide
  refine ⟨hselect, fun h => ?_⟩
  obtain ⟨entry, hentry, heligible, -⟩ := h.1 _ (List.Perm.refl _)
  rw [hselect, Option.some_inj] at hentry
  subst hentry
  rcases heligible with hmeant | ⟨-, hnone⟩
  · exact hmeant.1 rfl
  · exact hnone ⟨"claude*", "anthropic", "claude-sonnet-4"⟩ (by simp [claudeTable]) (by decide)

end AiOpenRouter
