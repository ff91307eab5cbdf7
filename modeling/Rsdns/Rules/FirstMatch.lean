import Rsdns.Dns.LabelName
import Rsdns.Library.IndexScan
import Rsdns.Plugins.Rules

/-!
# First match wins

The trie of the inline domains knows, for every domain, the last rule that
lists it.  It is asked before the scan, and the number it gives is read as a
position among the inline rules.  Both are harmless exactly when the rule found
that way is the first one that accepts the query.
-/

namespace Rsdns.Plugins

open Common Dns

/-- The rule lists the domain inline, up to dots at its ends. -/
def Rule.lists (self : Rule) (domain : Text) : Bool :=
  ((inlineDomains self).getD []).any fun listed => Text.trimMatches '.' listed == domain

def inlineRules (rules : List Rule) : List (Fin rules.length) :=
  (List.finRange rules.length).filter fun idx => (inlineDomains (rules.get idx)).isSome

/-! ### The tables -/

theorem insertRule_snd (rules : List Rule)
    (tables : DomainSuffixTrieBuilder × List (Fin rules.length)) (idx : Fin rules.length) :
    (insertRule rules tables idx).2 =
      tables.2 ++ [idx].filter fun idx => (inlineDomains (rules.get idx)).isSome := by
  unfold insertRule
  cases listing : inlineDomains (rules.get idx) with
  | none => simp [-List.get_eq_getElem, listing]
  | some domains => simp [-List.get_eq_getElem, listing]

theorem tagAt_insertRule (rules : List Rule)
    (tables : DomainSuffixTrieBuilder × List (Fin rules.length)) (idx : Fin rules.length)
    (domain : Text) :
    (insertRule rules tables idx).1.tagAt (LabelKey.reverseLabels '.' domain) =
      if (rules.get idx).lists domain then some (Text.ofNat idx)
      else tables.1.tagAt (LabelKey.reverseLabels '.' domain) := by
  unfold insertRule Rule.lists
  cases listing : inlineDomains (rules.get idx) with
  | none => simp
  | some domains =>
      simp only [Option.getD_some]
      exact DomainSuffixTrieBuilder.tagAt_foldl_insert_domain tables.1 domains _ domain

theorem foldl_insertRule_snd (rules : List Rule) (idxs : List (Fin rules.length))
    (tables : DomainSuffixTrieBuilder × List (Fin rules.length)) :
    (idxs.foldl (insertRule rules) tables).2 =
      tables.2 ++ idxs.filter fun idx => (inlineDomains (rules.get idx)).isSome := by
  induction idxs generalizing tables with
  | nil => simp
  | cons idx idxs inductionHypothesis =>
      rw [List.foldl_cons, inductionHypothesis, insertRule_snd, List.append_assoc,
        ← List.filter_append]
      rfl

theorem tagAt_foldl_insertRule (rules : List Rule) (idxs : List (Fin rules.length))
    (tables : DomainSuffixTrieBuilder × List (Fin rules.length)) (domain : Text) :
    (idxs.foldl (insertRule rules) tables).1.tagAt (LabelKey.reverseLabels '.' domain) =
      ((idxs.reverse.find? fun idx => (rules.get idx).lists domain).map
        fun idx : Fin rules.length => Text.ofNat idx.val).or
          (tables.1.tagAt (LabelKey.reverseLabels '.' domain)) := by
  induction idxs generalizing tables with
  | nil => simp
  | cons idx idxs inductionHypothesis =>
      rw [List.foldl_cons, inductionHypothesis, tagAt_insertRule, List.reverse_cons,
        List.find?_append]
      cases later : idxs.reverse.find? fun idx => (rules.get idx).lists domain with
      | some last => simp
      | none =>
          by_cases own : (rules.get idx).lists domain
          · simp [-List.get_eq_getElem, own]
          · simp [-List.get_eq_getElem, own]

namespace Rules

/-- No rule after this one lists the longest listed domain that covers the name. -/
def Owns (self : Rules) (name : Text) (owner : Fin self.rules.length) : Prop :=
  ∃ domain, domain ≠ [] ∧ LabelKey.Covers '.' domain (DomainSuffixTrie.searched name) ∧
    (self.rules.get owner).lists domain = true ∧
    (∀ later, owner < later → (self.rules.get later).lists domain = false) ∧
    ∀ longer, LabelKey.Covers '.' longer (DomainSuffixTrie.searched name) →
      domain.length < longer.length → ∀ other, (self.rules.get other).lists longer = false

theorem tagAt_eq_some_iff (rules : List Rule) (domain tag : Text) :
    ((List.finRange rules.length).foldl (insertRule rules)
        (DomainSuffixTrieBuilder.new, [])).1.tagAt (LabelKey.reverseLabels '.' domain) =
          some tag ↔
      ∃ owner : Fin rules.length, (rules.get owner).lists domain = true ∧
        (∀ later, owner < later → (rules.get later).lists domain = false) ∧
        tag = Text.ofNat owner := by
  have fresh : DomainSuffixTrieBuilder.new.tagAt (LabelKey.reverseLabels '.' domain) = none := rfl
  rw [tagAt_foldl_insertRule, fresh, Option.or_none, Option.map_eq_some_iff]
  constructor
  · rintro ⟨owner, last, rfl⟩
    obtain ⟨lists, none⟩ := IndexScan.find?_reverse_finRange_eq_some_iff.mp last
    exact ⟨owner, lists, none, rfl⟩
  · rintro ⟨owner, lists, none, rfl⟩
    exact ⟨owner, IndexScan.find?_reverse_finRange_eq_some_iff.mpr ⟨lists, none⟩, rfl⟩

theorem tagAt_eq_none_iff (rules : List Rule) (domain : Text) :
    ((List.finRange rules.length).foldl (insertRule rules)
        (DomainSuffixTrieBuilder.new, [])).1.tagAt (LabelKey.reverseLabels '.' domain) =
          none ↔
      ∀ other, (rules.get other).lists domain = false := by
  have fresh : DomainSuffixTrieBuilder.new.tagAt (LabelKey.reverseLabels '.' domain) = none := rfl
  rw [tagAt_foldl_insertRule, fresh, Option.or_none, Option.map_eq_none_iff, List.find?_eq_none]
  simp

theorem lookup_inline_eq_some_iff (self : Rules) (name tag : Text) :
    DomainSuffixTrie.lookup
        ((List.finRange self.rules.length).foldl (insertRule self.rules)
          (DomainSuffixTrieBuilder.new, [])).1.build name = some tag ↔
      ∃ owner, self.Owns name owner ∧ tag = Text.ofNat owner.val := by
  simp only [DomainSuffixTrie.lookup_eq_some_iff, DomainSuffixTrie.tagAt_build,
    tagAt_eq_some_iff, tagAt_eq_none_iff]
  constructor
  · rintro ⟨domain, nonempty, covers, ⟨owner, lists, last, same⟩, longest⟩
    exact ⟨owner, ⟨domain, nonempty, covers, lists, last, longest⟩, same⟩
  · rintro ⟨owner, ⟨domain, nonempty, covers, lists, last, longest⟩, same⟩
    exact ⟨domain, nonempty, covers, ⟨owner, lists, last, same⟩, longest⟩

/-- The fast path takes the owner's number for a position among the inline rules. -/
theorem inlineHit_eq_some_iff (self : Rules) (name : Text) (hit : Fin self.rules.length) :
    self.inlineHit name = some hit ↔
      ∃ owner, self.Owns name owner ∧ (inlineRules self.rules)[owner.val]? = some hit := by
  have positions := foldl_insertRule_snd self.rules (List.finRange self.rules.length)
    (DomainSuffixTrieBuilder.new, [])
  rw [List.nil_append] at positions
  unfold inlineHit
  rw [self.built, buildInlineTrie]
  dsimp only
  split
  · next noInline =>
      have none : inlineRules self.rules = [] := positions.symm.trans noInline
      simp [none]
  · simp only [Option.bind_eq_bind, Option.bind_some, Option.bind_eq_some_iff,
      lookup_inline_eq_some_iff]
    constructor
    · rintro ⟨_, ⟨owner, owns, rfl⟩, position, parsed, listed⟩
      have bounded : owner.val < usizeBound := owner.isLt.trans self.bounded
      rw [Text.parseUnsigned_ofNat bounded, Option.some.injEq] at parsed
      subst parsed
      rw [positions] at listed
      exact ⟨owner, owns, listed⟩
    · rintro ⟨owner, owns, listed⟩
      have bounded : owner.val < usizeBound := owner.isLt.trans self.bounded
      refine ⟨_, ⟨owner, owns, rfl⟩, owner.val, Text.parseUnsigned_ofNat bounded, ?_⟩
      rw [positions]
      exact listed

/-! ### The scan -/

variable {Name : Type}

/-- The rule accepts the query, and no rule before it does. -/
structure FirstAccepts (rules : Rules) (ctx : QueryContext Name)
    (idx : Fin rules.rules.length) (matched : QueryContext Name) : Prop where
  accepts : (rules.rules.get idx).matchesQuery ctx = some matched
  first : ∀ earlier < idx, (rules.rules.get earlier).matchesQuery ctx = none

theorem scan_eq_some_iff (self : Rules) (ctx : QueryContext Name)
    (idx : Fin self.rules.length) (matched : QueryContext Name) :
    self.scan ctx = some (idx, matched) ↔ self.FirstAccepts ctx idx matched := by
  constructor
  · intro scanned
    obtain ⟨accepts, first⟩ := IndexScan.findSome?_finRange_eq_some_iff.mp scanned
    exact ⟨accepts, first⟩
  · intro firstAccepts
    apply IndexScan.findSome?_finRange_eq_some_iff.mpr
    exact ⟨firstAccepts.accepts, firstAccepts.first⟩

theorem scan_eq_none_iff (self : Rules) (ctx : QueryContext Name) :
    self.scan ctx = none ↔ ∀ idx, (self.rules.get idx).matchesQuery ctx = none :=
  IndexScan.findSome?_finRange_eq_none_iff

variable [NameApi Name]

/-- The query is answered by the first rule that accepts it, with the captures of
that rule, and with NXDOMAIN if none does. -/
structure FirstMatchDecides (rules : Rules) (ctx : QueryContext Name) : Prop where
  applied : ∀ idx matched, rules.FirstAccepts ctx idx matched →
    rules.route ctx = some (idx, matched) ∧
      ∀ world, rules.handle world ctx = applyRule world matched (rules.rules.get idx)
  refused : (∀ idx, (rules.rules.get idx).matchesQuery ctx = none) →
    rules.route ctx = none ∧
      ∀ world, rules.handle world ctx =
        respondWith ctx (.ok (buildNxdomain ctx.msg)) "nxdomain".toList "servfail".toList

theorem handle_of_route {self : Rules} {ctx matched : QueryContext Name}
    {idx : Fin self.rules.length} (routed : self.route ctx = some (idx, matched))
    (world : World Name) :
    self.handle world ctx = applyRule world matched (self.rules.get idx) := by
  unfold handle
  rw [routed]

/-- First match decides if the fast path changes nothing. -/
theorem firstMatchDecides_iff_route_eq_scan (self : Rules) (ctx : QueryContext Name) :
    self.FirstMatchDecides ctx ↔ self.route ctx = self.scan ctx := by
  constructor
  · intro decides
    cases scanned : self.scan ctx with
    | none => exact (decides.refused ((self.scan_eq_none_iff ctx).mp scanned)).1
    | some routed =>
        have first := (self.scan_eq_some_iff ctx routed.1 routed.2).mp scanned
        exact (decides.applied _ _ first).1
  · intro same
    constructor
    · intro idx matched first
      have routed := same.trans ((self.scan_eq_some_iff ctx idx matched).mpr first)
      exact ⟨routed, handle_of_route routed⟩
    · intro none
      have unrouted := same.trans ((self.scan_eq_none_iff ctx).mpr none)
      refine ⟨unrouted, fun world => ?_⟩
      unfold handle
      rw [unrouted]

/-- First match decides a query exactly if the inline rule at the position of the
owner's number, should there be one and its filter take the query, is itself the
first rule that accepts. -/
theorem first_match_decides_iff (self : Rules) (ctx : QueryContext Name) :
    self.FirstMatchDecides ctx ↔
      ∀ owner hit, self.Owns ctx.name owner →
        (inlineRules self.rules)[owner.val]? = some hit →
        (self.rules.get hit).qtypeMatches ctx.qtype = true →
        self.FirstAccepts ctx hit ctx := by
  rw [firstMatchDecides_iff_route_eq_scan]
  constructor
  · intro same owner hit owns listed takes
    have found := (self.inlineHit_eq_some_iff ctx.name hit).mpr ⟨owner, owns, listed⟩
    have routed : self.route ctx = some (hit, ctx) := by
      unfold route
      rw [found]
      exact if_pos takes
    exact (self.scan_eq_some_iff ctx hit ctx).mp (same.symm.trans routed)
  · intro harmless
    unfold route
    cases found : self.inlineHit ctx.name with
    | none => rfl
    | some hit =>
        obtain ⟨owner, owns, listed⟩ := (self.inlineHit_eq_some_iff ctx.name hit).mp found
        dsimp only
        split
        · next takes =>
            have first := harmless owner hit owns listed takes
            exact ((self.scan_eq_some_iff ctx hit ctx).mpr first).symm
        · rfl

/-- Everything is refused, but for a domain inline that is forwarded and another
that is poisoned. -/
def refuseAll : Rules :=
  init
    [{ target := .MatchAll, qtype := none, action := .Block .NXDomain },
      { target := .InlineDomains ["a.b".toList], qtype := none,
        action := .Forward "u".toList none [] false none none },
      { target := .InlineDomains ["c.d".toList], qtype := none, action := .Block .Poison }]
    (by decide)

/-- A query for the second rule's domain, which the first rule accepts, is given to
the third rule, which does not accept it. -/
theorem refused_query_is_poisoned :
    ¬ refuseAll.FirstMatchDecides
      (QueryContext.new (LabelName.ask ⟨["a".toList, "b".toList], true⟩ .A)
        (by simp [LabelName.ask])
        { name := "a.b".toList, qtype := .A }) := by
  intro decides
  have first := decides.applied ⟨0, by decide⟩ _
    ⟨rfl, fun earlier below => absurd below (Nat.not_lt_zero earlier.val)⟩
  have routed := congrArg (Option.map fun found => found.1.val) first.1
  revert routed
  decide

end Rules

end Rsdns.Plugins
