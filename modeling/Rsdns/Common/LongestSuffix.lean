import Rsdns.Common.ByteLookup

/-!
# The longest suffix, and the two ways to find it

A trie is built by a sequence of inserts.  What a lookup returns is said here in
terms of those inserts alone.  Names of more than 256 bytes are searched for in
lower case and shorter ones as they stand, so the two ways differ on capitals.
-/

namespace Rsdns.Common

def insertAll (inserts : List (Text × Text)) : DomainSuffixTrieBuilder :=
  inserts.foldl (fun builder insert => builder.insert insert.1 insert.2)
    DomainSuffixTrieBuilder.new

/-- This is the tag of the last insert of the longest inserted domain that the text is
or that follows a dot at its end. -/
def LongestTag (inserts : List (Text × Text)) (text tag : Text) : Prop :=
  ∃ earlier domain later, inserts = earlier ++ (domain, tag) :: later ∧
    Text.trimMatches '.' domain ≠ [] ∧
    LabelKey.Covers '.' (Text.trimMatches '.' domain) text ∧
    (∀ insert ∈ later, Text.trimMatches '.' insert.1 ≠ Text.trimMatches '.' domain) ∧
    ∀ insert ∈ inserts, LabelKey.Covers '.' (Text.trimMatches '.' insert.1) text →
      (Text.trimMatches '.' insert.1).length ≤ (Text.trimMatches '.' domain).length

/-! ### The tables after all inserts -/

theorem tagAt_foldl_insert_pairs (self : DomainSuffixTrieBuilder) (inserts : List (Text × Text))
    (domain : Text) :
    (inserts.foldl (fun builder insert => builder.insert insert.1 insert.2) self).tagAt
        (LabelKey.reverseLabels '.' domain) =
      ((inserts.reverse.find? fun insert => Text.trimMatches '.' insert.1 == domain).map
        Prod.snd).or (self.tagAt (LabelKey.reverseLabels '.' domain)) := by
  induction inserts generalizing self with
  | nil => rfl
  | cons insert inserts inductionHypothesis =>
      rw [List.foldl_cons, inductionHypothesis, DomainSuffixTrieBuilder.tagAt_insert,
        List.reverse_cons, List.find?_append]
      cases later : inserts.reverse.find? fun insert => Text.trimMatches '.' insert.1 == domain with
      | some last => simp
      | none =>
          have key := DomainSuffixTrieBuilder.reverseDomainBytes_eq_iff insert.1 domain
          by_cases own : Text.trimMatches '.' insert.1 = domain
          · simp [own, key.mpr own]
          · have other : LabelKey.reverseLabels '.' domain ≠
                DomainSuffixTrieBuilder.reverseDomainBytes insert.1 :=
              fun same => own (key.mp same.symm)
            simp [own, other]

theorem tagAt_insertAll_eq_some_iff {inserts : List (Text × Text)} {domain tag : Text} :
    (insertAll inserts).tagAt (LabelKey.reverseLabels '.' domain) = some tag ↔
      ∃ earlier listed later, inserts = earlier ++ (listed, tag) :: later ∧
        Text.trimMatches '.' listed = domain ∧
        ∀ insert ∈ later, Text.trimMatches '.' insert.1 ≠ domain := by
  have fresh : DomainSuffixTrieBuilder.new.tagAt (LabelKey.reverseLabels '.' domain) = none := rfl
  rw [insertAll, tagAt_foldl_insert_pairs, fresh, Option.or_none, Option.map_eq_some_iff]
  constructor
  · rintro ⟨⟨listed, _⟩, last, rfl⟩
    obtain ⟨own, front, back, cut, others⟩ := List.find?_eq_some_iff_append.mp last
    refine ⟨back.reverse, listed, front.reverse, ?_, by simpa using own, fun insert member => ?_⟩
    · have whole := congrArg List.reverse cut
      simpa using whole
    · simpa using others insert (List.mem_reverse.mp member)
  · rintro ⟨earlier, listed, later, rfl, own, others⟩
    refine ⟨(listed, tag), List.find?_eq_some_iff_append.mpr ⟨by simpa using own, ?_⟩, rfl⟩
    refine ⟨later.reverse, earlier.reverse, by simp, fun insert member => ?_⟩
    simpa using others insert (List.mem_reverse.mp member)

theorem tagAt_insertAll_eq_none_iff {inserts : List (Text × Text)} {domain : Text} :
    (insertAll inserts).tagAt (LabelKey.reverseLabels '.' domain) = none ↔
      ∀ insert ∈ inserts, Text.trimMatches '.' insert.1 ≠ domain := by
  have fresh : DomainSuffixTrieBuilder.new.tagAt (LabelKey.reverseLabels '.' domain) = none := rfl
  rw [insertAll, tagAt_foldl_insert_pairs, fresh, Option.or_none, Option.map_eq_none_iff,
    List.find?_eq_none]
  simp

/-! ### What a lookup returns -/

theorem scan_insertAll_eq_some_iff {inserts : List (Text × Text)} {text tag : Text} :
    LabelKey.scan '.' (insertAll inserts).build.tagAt (LabelKey.reverseLabels '.' text) =
        some tag ↔ LongestTag inserts text tag := by
  simp only [LabelKey.scan_reverseLabels_eq_some_iff, DomainSuffixTrie.tagAt_build,
    tagAt_insertAll_eq_some_iff, tagAt_insertAll_eq_none_iff]
  constructor
  · rintro ⟨_, nonempty, covers, ⟨earlier, domain, later, cut, rfl, last⟩, longest⟩
    refine ⟨earlier, domain, later, cut, nonempty, covers, last, ?_⟩
    intro insert member insertCovers
    by_contra longer
    exact longest _ insertCovers (Nat.lt_of_not_le longer) insert member rfl
  · rintro ⟨earlier, domain, later, cut, nonempty, covers, last, longest⟩
    refine ⟨_, nonempty, covers, ⟨earlier, domain, later, cut, rfl, last⟩, ?_⟩
    rintro _ longerCovers longer insert member rfl
    exact absurd (longest insert member longerCovers) (Nat.not_le_of_lt longer)

theorem scan_insertAll_eq_none_iff {inserts : List (Text × Text)} {text : Text} :
    LabelKey.scan '.' (insertAll inserts).build.tagAt (LabelKey.reverseLabels '.' text) = none ↔
      ∀ insert ∈ inserts, Text.trimMatches '.' insert.1 ≠ [] →
        ¬ LabelKey.Covers '.' (Text.trimMatches '.' insert.1) text := by
  simp only [LabelKey.scan_reverseLabels_eq_none_iff, DomainSuffixTrie.tagAt_build,
    tagAt_insertAll_eq_none_iff]
  constructor
  · intro absent insert member nonempty covers
    exact absent _ nonempty covers insert member rfl
  · rintro absent _ nonempty covers insert member rfl
    exact absent insert member nonempty covers

/-- A lookup of a name without capitals finds nothing exactly if no inserted domain
covers the name, else the tag of the last insert of the longest one that does; no
index it uses is out of range. -/
theorem lookup_longest_suffix (inserts : List (Text × Text)) (query : Text)
    (lower : Text.IsLower query) :
    ((insertAll inserts).build.lookup query = none ↔
      ∀ insert ∈ inserts, Text.trimMatches '.' insert.1 ≠ [] →
        ¬ LabelKey.Covers '.' (Text.trimMatches '.' insert.1) (Text.trimMatches '.' query)) ∧
    (∀ tag, (insertAll inserts).build.lookup query = some tag ↔
      LongestTag inserts (Text.trimMatches '.' query) tag) ∧
    (insertAll inserts).build.lookupChecked query =
      some ((insertAll inserts).build.lookup query) := by
  have scanned := (insertAll inserts).build.lookup_eq_scan query
  rw [DomainSuffixTrie.searched_of_isLower lower] at scanned
  refine ⟨?_, fun tag => ?_, DomainSuffixTrie.lookupChecked_eq_some _ query⟩
  · rw [scanned, scan_insertAll_eq_none_iff]
  · rw [scanned, scan_insertAll_eq_some_iff]

/-- Domains inserted twice, with dots at their ends, and one that does not cover. -/
theorem lookup_longest_suffix_of_three :
    let inserts := [("b.c".toList, "old".toList), ("c".toList, "short".toList),
      (".b.c.".toList, "new".toList)]
    let query := "a..b.c.".toList
    Text.IsLower query ∧
    ((insertAll inserts).build.lookup query = none ↔
      ∀ insert ∈ inserts, Text.trimMatches '.' insert.1 ≠ [] →
        ¬ LabelKey.Covers '.' (Text.trimMatches '.' insert.1) (Text.trimMatches '.' query)) ∧
    (∀ tag, (insertAll inserts).build.lookup query = some tag ↔
      LongestTag inserts (Text.trimMatches '.' query) tag) ∧
    (insertAll inserts).build.lookupChecked query =
      some ((insertAll inserts).build.lookup query) := by
  intro inserts query
  have lower : Text.IsLower query := by decide
  exact ⟨lower, lookup_longest_suffix inserts query lower⟩

/-! ### Short names -/

def PathsAgree (inserts : List (Text × Text)) (query : Text) : Prop :=
  (insertAll inserts).build.lookup query = (insertAll inserts).build.lookupBig query

theorem pathsAgree_iff {inserts : List (Text × Text)} {query : Text}
    (short : (Text.trimMatches '.' query).byteLen ≤ 256) :
    PathsAgree inserts query ↔
      ∀ tag, LongestTag inserts (Text.trimMatches '.' query) tag ↔
        LongestTag inserts (Text.toAsciiLowercase (Text.trimMatches '.' query)) tag := by
  have asItStands : DomainSuffixTrie.searched query = Text.trimMatches '.' query :=
    if_neg (Nat.not_lt_of_le short)
  simp only [PathsAgree, DomainSuffixTrie.lookup_eq_scan, asItStands,
    DomainSuffixTrie.lookupBig_eq_scan, ← scan_insertAll_eq_some_iff]
  exact Option.ext_iff

/-- Inserted in lower case, a name with capitals is found only by the path for long
names. -/
theorem isLower_of_pathsAgree {query tag : Text}
    (short : (Text.trimMatches '.' query).byteLen ≤ 256)
    (agree : PathsAgree [(Text.toAsciiLowercase (Text.trimMatches '.' query), tag)] query) :
    Text.IsLower query := by
  have noLetter : '.'.isAlpha = false := by decide
  have trimmed : Text.trimMatches '.' (Text.toAsciiLowercase (Text.trimMatches '.' query)) =
      Text.toAsciiLowercase (Text.trimMatches '.' query) := by
    apply Text.trimMatches_eq_self
    · rw [ne_eq, Text.head?_toAsciiLowercase noLetter]
      exact Text.trimMatches_head?_ne '.' query
    · rw [ne_eq, Text.getLast?_toAsciiLowercase noLetter]
      exact Text.trimMatches_getLast?_ne '.' query
  rw [← Text.isLower_trimMatches_iff noLetter]
  by_contra capital
  have nonempty : Text.toAsciiLowercase (Text.trimMatches '.' query) ≠ [] := by
    intro empty
    rw [Text.toAsciiLowercase, List.map_eq_nil_iff] at empty
    exact capital (by rw [empty]; rfl)
  have lowered : LongestTag [(Text.toAsciiLowercase (Text.trimMatches '.' query), tag)]
      (Text.toAsciiLowercase (Text.trimMatches '.' query)) tag := by
    refine ⟨[], _, [], rfl, by rwa [trimmed], by rw [trimmed]; exact .inl rfl, by simp, ?_⟩
    intro insert member _
    rw [List.mem_singleton.mp member]
  obtain ⟨earlier, domain, later, cut, _, covers, _⟩ :=
    ((pathsAgree_iff short).mp agree tag).mpr lowered
  have member : (domain, tag) ∈ [(Text.toAsciiLowercase (Text.trimMatches '.' query), tag)] := by
    rw [cut]
    simp
  have same : domain = Text.toAsciiLowercase (Text.trimMatches '.' query) :=
    congrArg Prod.fst (List.mem_singleton.mp member)
  rw [same, trimmed] at covers
  rcases covers with same | ⟨front, longer⟩
  · exact capital same.symm
  · have length := congrArg List.length longer
    rw [List.length_append, List.length_cons, Text.toAsciiLowercase, List.length_map] at length
    omega

/-- On a short name both ways agree exactly if the longest domains that cover the name
as it stands and in lower case have the same tag; whatever was inserted, exactly if
the name has no capitals. -/
theorem paths_agree_iff (query : Text) (short : (Text.trimMatches '.' query).byteLen ≤ 256) :
    (∀ inserts, PathsAgree inserts query ↔
      ∀ tag, LongestTag inserts (Text.trimMatches '.' query) tag ↔
        LongestTag inserts (Text.toAsciiLowercase (Text.trimMatches '.' query)) tag) ∧
    ((∀ inserts, PathsAgree inserts query) ↔ Text.IsLower query) := by
  refine ⟨fun inserts => pathsAgree_iff short, ?_, ?_⟩
  · intro agree
    exact isLower_of_pathsAgree short (agree [(_, [])])
  · intro lower inserts
    have trimmed : Text.toAsciiLowercase (Text.trimMatches '.' query) =
        Text.trimMatches '.' query := lower.of_subset (Text.trimMatches_subset '.' query)
    rw [pathsAgree_iff short, trimmed]
    exact fun tag => Iff.rfl

theorem paths_agree_iff_of_capitals :
    (Text.trimMatches '.' "A.lan.".toList).byteLen ≤ 256 ∧
    (∀ inserts, PathsAgree inserts "A.lan.".toList ↔
      ∀ tag, LongestTag inserts (Text.trimMatches '.' "A.lan.".toList) tag ↔
        LongestTag inserts (Text.toAsciiLowercase (Text.trimMatches '.' "A.lan.".toList)) tag) ∧
    ((∀ inserts, PathsAgree inserts "A.lan.".toList) ↔ Text.IsLower "A.lan.".toList) :=
  ⟨by decide, paths_agree_iff "A.lan.".toList (by decide)⟩

/-- Only the path for long names finds a domain in lower case under a name in capitals. -/
theorem paths_disagree_on_capitals :
    (Text.trimMatches '.' "LAN".toList).byteLen ≤ 256 ∧
      ¬ PathsAgree [("lan".toList, "t".toList)] "LAN".toList := by
  refine ⟨by decide, fun agree => ?_⟩
  have missed : (insertAll [("lan".toList, "t".toList)]).build.lookup "LAN".toList = none := by
    decide
  have found : (insertAll [("lan".toList, "t".toList)]).build.lookupBig "LAN".toList =
      some "t".toList := by
    decide
  rw [PathsAgree, missed, found] at agree
  cases agree

end Rsdns.Common
