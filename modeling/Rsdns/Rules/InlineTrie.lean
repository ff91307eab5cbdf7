import Rsdns.Plugins.MatchTarget
import Rsdns.Rules.FirstMatch

/-!
# Inline domains in the trie and in the scan

The trie walks the reversed name from boundary to boundary, the scan compares the
end of the name with each pattern.  On domains that the grammar lets through both
find the same rules; the number of the rule is lost only behind the trie, where it
is read as a position.
-/

namespace Rsdns.Plugins

open Common Dns

/-! ### Trie and scan -/

/-- A domain without dots at its ends matches a name in the scan exactly if the trie
finds it under the trimmed name. -/
theorem suffixMatch_iff_covers_trimMatches {pattern : Text} (first : pattern.head? ≠ some '.')
    (last : pattern.getLast? ≠ some '.') (name : Text) :
    suffixMatch pattern name = true ↔ LabelKey.Covers '.' pattern (Text.trimMatches '.' name) := by
  rw [suffixMatch_iff, Text.trimEndMatches_eq_self last, Text.trimMatches_eq_dropWhile,
    LabelKey.covers_dropWhile_iff first]

/-- The rule's inline domains are ones that the grammar lets through. -/
def Rule.Accepted (rule : Rule) : Prop :=
  ∀ domains, inlineDomains rule = some domains → ∃ text, parseInlineDomains text = .ok domains

theorem Rule.Accepted.valid {rule : Rule} (accepted : rule.Accepted) {domains : List Text}
    (listing : inlineDomains rule = some domains) :
    ∀ domain ∈ domains, validateDomain domain = some domain := by
  obtain ⟨text, parsed⟩ := accepted domains listing
  exact (parseInlineDomains_valid parsed).2

/-- The rule lists a domain inline that matches the name. -/
def Rule.MatchesInline (rule : Rule) (name : Text) : Prop :=
  ∃ domains, rule.target = .InlineDomains domains ∧ suffixMatchAny domains name = true

theorem inlineDomains_eq_some_iff {rule : Rule} {domains : List Text} :
    inlineDomains rule = some domains ↔ rule.target = .InlineDomains domains := by
  unfold inlineDomains
  cases rule.target <;> simp

theorem Rule.lists_eq_true_iff (rule : Rule) (domain : Text) :
    rule.lists domain = true ↔
      ∃ domains, inlineDomains rule = some domains ∧
        ∃ listed ∈ domains, Text.trimMatches '.' listed = domain := by
  unfold Rule.lists
  cases inlineDomains rule with
  | none => simp
  | some domains => simp

theorem Rule.Accepted.matchesInline_iff {rule : Rule} (accepted : rule.Accepted) (name : Text) :
    rule.MatchesInline name ↔
      ∃ domain, domain ≠ [] ∧ rule.lists domain = true ∧
        LabelKey.Covers '.' domain (Text.trimMatches '.' name) := by
  simp only [Rule.MatchesInline, Rule.lists_eq_true_iff, ← inlineDomains_eq_some_iff,
    suffixMatchAny, List.any_eq_true]
  constructor
  · rintro ⟨domains, listing, pattern, member, hits⟩
    obtain ⟨nonempty, first, last⟩ := validateDomain_ends (accepted.valid listing pattern member)
    refine ⟨pattern, nonempty, ⟨domains, listing, pattern, member, ?_⟩, ?_⟩
    · exact Text.trimMatches_eq_self first last
    · exact (suffixMatch_iff_covers_trimMatches first last name).mp hits
  · rintro ⟨domain, _, ⟨domains, listing, pattern, member, trimmed⟩, covers⟩
    obtain ⟨_, first, last⟩ := validateDomain_ends (accepted.valid listing pattern member)
    rw [Text.trimMatches_eq_self first last] at trimmed
    subst trimmed
    exact ⟨domains, listing, pattern, member,
      (suffixMatch_iff_covers_trimMatches first last name).mpr covers⟩

/-- What the inline trie finds under a name, before the tag is followed. -/
def inlineTag (rules : List Rule) (name : Text) : Option Text :=
  (buildInlineTrie rules).bind fun inline => inline.trie.lookup name

theorem inlineTag_eq_lookup (rules : List Rule) (name : Text) :
    inlineTag rules name =
      ((List.finRange rules.length).foldl (insertRule rules)
        (DomainSuffixTrieBuilder.new, [])).1.build.lookup name := by
  have numbers := foldl_insertRule_snd rules (List.finRange rules.length)
    (DomainSuffixTrieBuilder.new, [])
  unfold inlineTag buildInlineTrie
  dsimp only
  split
  · next noInline =>
      rw [noInline, List.nil_append] at numbers
      cases found : ((List.finRange rules.length).foldl (insertRule rules)
          (DomainSuffixTrieBuilder.new, [])).1.build.lookup name with
      | none => rfl
      | some tag =>
          obtain ⟨domain, _, _, stored, _⟩ := DomainSuffixTrie.lookup_eq_some_iff.mp found
          rw [DomainSuffixTrie.tagAt_build, Rules.tagAt_eq_some_iff] at stored
          obtain ⟨owner, lists, _⟩ := stored
          obtain ⟨domains, listing, _⟩ := (Rule.lists_eq_true_iff _ _).mp lists
          have member : owner ∈ (List.finRange rules.length).filter fun idx =>
              (inlineDomains (rules.get idx)).isSome := by
            rw [List.mem_filter, listing]
            exact ⟨List.mem_finRange owner, rfl⟩
          rw [← numbers] at member
          cases member
  · rfl

/-- The trie finds the last rule that lists the longest listed domain. -/
theorem inlineTag_eq_some {rules : List Rule} {name tag : Text}
    (found : inlineTag rules name = some tag) :
    ∃ owner : Fin rules.length, tag = Text.ofNat owner ∧
      ∃ domain, domain ≠ [] ∧ (rules.get owner).lists domain = true ∧
        LabelKey.Covers '.' domain (DomainSuffixTrie.searched name) := by
  rw [inlineTag_eq_lookup, DomainSuffixTrie.lookup_eq_some_iff] at found
  obtain ⟨domain, nonempty, covers, stored, _⟩ := found
  rw [DomainSuffixTrie.tagAt_build, Rules.tagAt_eq_some_iff] at stored
  obtain ⟨owner, lists, _, same⟩ := stored
  exact ⟨owner, same, domain, nonempty, lists, covers⟩

theorem inlineTag_isSome {rules : List Rule} {name domain : Text} {idx : Fin rules.length}
    (nonempty : domain ≠ []) (lists : (rules.get idx).lists domain = true)
    (covers : LabelKey.Covers '.' domain (DomainSuffixTrie.searched name)) :
    (inlineTag rules name).isSome := by
  rw [inlineTag_eq_lookup, DomainSuffixTrie.lookup_isSome_iff]
  refine ⟨domain, nonempty, covers, ?_⟩
  rw [DomainSuffixTrie.tagAt_build, ← Option.ne_none_iff_isSome]
  intro missing
  have unlisted := (Rules.tagAt_eq_none_iff rules domain).mp missing idx
  rw [lists] at unlisted
  cases unlisted

/-- For a name in lower case the trie finds something exactly if a rule matches, and
what it finds is the number of a rule that matches. -/
theorem inlineTag_agrees_with_scan (rules : List Rule)
    (accepted : ∀ rule ∈ rules, rule.Accepted) (name : Text) (lower : Text.IsLower name) :
    ((inlineTag rules name).isSome ↔ ∃ rule ∈ rules, rule.MatchesInline name) ∧
      ∀ tag, inlineTag rules name = some tag →
        ∃ idx : Fin rules.length, tag = Text.ofNat idx ∧ (rules.get idx).MatchesInline name := by
  have belongs : ∀ tag, inlineTag rules name = some tag →
      ∃ idx : Fin rules.length, tag = Text.ofNat idx ∧ (rules.get idx).MatchesInline name := by
    intro tag found
    obtain ⟨owner, same, domain, nonempty, lists, covers⟩ := inlineTag_eq_some found
    rw [DomainSuffixTrie.searched_of_isLower lower] at covers
    have matching := ((accepted _ (List.get_mem rules owner)).matchesInline_iff name).mpr
      ⟨domain, nonempty, lists, covers⟩
    exact ⟨owner, same, matching⟩
  refine ⟨⟨?_, ?_⟩, belongs⟩
  · intro found
    obtain ⟨tag, found⟩ := Option.isSome_iff_exists.mp found
    obtain ⟨idx, _, matching⟩ := belongs tag found
    exact ⟨_, List.get_mem rules idx, matching⟩
  · rintro ⟨rule, member, matching⟩
    obtain ⟨domain, nonempty, lists, covers⟩ := ((accepted rule member).matchesInline_iff name).mp
      matching
    obtain ⟨idx, rfl⟩ := List.get_of_mem member
    rw [← DomainSuffixTrie.searched_of_isLower lower] at covers
    exact inlineTag_isSome nonempty lists covers

/-- A name with dots at both ends, one rule without domains and one with two. -/
theorem inlineTag_agrees_with_scan_on_two_rules :
    let rules : List Rule :=
      [{ target := .MatchAll, qtype := none, action := .Block .Poison },
        { target := .InlineDomains ["a.b".toList, "c".toList], qtype := none,
          action := .Block .NXDomain }]
    let name := "..x.a.b.".toList
    (∀ rule ∈ rules, rule.Accepted) ∧ Text.IsLower name ∧
      ((inlineTag rules name).isSome ↔ ∃ rule ∈ rules, rule.MatchesInline name) ∧
      ∀ tag, inlineTag rules name = some tag →
        ∃ idx : Fin rules.length, tag = Text.ofNat idx ∧
          (rules.get idx).MatchesInline name := by
  intro rules name
  have accepted : ∀ rule ∈ rules, rule.Accepted := by
    refine List.forall_mem_cons.mpr ⟨?_, List.forall_mem_singleton.mpr ?_⟩
    · intro domains listing
      cases listing
    · intro domains listing
      cases listing
      exact ⟨"a.b, c".toList, by decide⟩
  have lower : Text.IsLower name := by decide
  exact ⟨accepted, lower, inlineTag_agrees_with_scan rules accepted name lower⟩

namespace Rules

/-! ### The fast path -/

/-- What the fast path finds is a rule whose own domains match the name. -/
def HitsMatch (self : Rules) (name : Text) : Prop :=
  ∀ hit, self.inlineHit name = some hit →
    hit.val < self.rules.length ∧ (self.rules.get hit).MatchesInline name

/-- The fast path finds a rule that matches exactly if the inline rule at the position
of the owner's number, should there be one, has a domain that covers the name. -/
theorem hitsMatch_iff (self : Rules) (name : Text) :
    self.HitsMatch name ↔
      ∀ owner hit, self.Owns name owner → (inlineRules self.rules)[owner.val]? = some hit →
        ∃ domains, inlineDomains (self.rules.get hit) = some domains ∧
          ∃ domain ∈ domains, LabelKey.Covers '.' (Text.trimEndMatches '.' domain)
            (Text.trimEndMatches '.' name) := by
  have matching : ∀ hit, (self.rules.get hit).MatchesInline name ↔
      ∃ domains, inlineDomains (self.rules.get hit) = some domains ∧
        ∃ domain ∈ domains, LabelKey.Covers '.' (Text.trimEndMatches '.' domain)
          (Text.trimEndMatches '.' name) := by
    intro hit
    simp only [Rule.MatchesInline, inlineDomains_eq_some_iff, suffixMatchAny, List.any_eq_true,
      suffixMatch_iff]
  simp only [← matching]
  constructor
  · intro sound owner hit owns listed
    exact (sound hit ((self.inlineHit_eq_some_iff name hit).mpr ⟨owner, owns, listed⟩)).2
  · intro covered hit found
    obtain ⟨owner, owns, listed⟩ := (self.inlineHit_eq_some_iff name hit).mp found
    exact ⟨hit.isLt, covered owner hit owns listed⟩

def shiftedInline : Rules :=
  init
    [{ target := .MatchAll, qtype := some .A, action := .Block .NXDomain },
      { target := .InlineDomains ["a.b".toList], qtype := none,
        action := .Forward "u".toList none [] false none none },
      { target := .InlineDomains ["c.d".toList], qtype := none, action := .Block .Poison }]
    (by decide)

/-- The domain of the second rule is handed to the third. -/
theorem shifted_hit_does_not_match : ¬ shiftedInline.HitsMatch "a.b".toList := by
  intro sound
  have found : shiftedInline.inlineHit "a.b".toList = some ⟨2, by decide⟩ := by decide
  obtain ⟨_, domains, listing, matching⟩ := sound _ found
  cases listing
  revert matching
  decide

end Rules

end Rsdns.Plugins
