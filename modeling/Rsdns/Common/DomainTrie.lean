import Mathlib.Logic.Function.Basic
import Rsdns.Library.LabelKey
import Rsdns.Library.Text

/-!
# The domain suffix trie (`common/domain_trie.rs`)

The finite-state map is modelled by what it guarantees: built from sorted
unique keys, it returns exactly the values inserted.  Keys are kept by their
characters instead of their UTF-8 bytes; both cut at the same dots.
-/

namespace Rsdns.Common

/-- Ids count the distinct tags.  The cast to `u32` keeps them for fewer than 2^32 tags, and
the model is of such tries only. -/
abbrev TagId := Nat

/-- A builder's tables, with what the code relies on when it follows an id: an
interned tag is the one at its id, and every stored id has a tag. -/
structure DomainSuffixTrieBuilder where
  items : Text → Option TagId
  tagToId : Text → Option TagId
  idToTag : List Text
  interned : ∀ tag id, tagToId tag = some id → idToTag[id]? = some tag
  listed : ∀ key id, items key = some id → id < idToTag.length

namespace DomainSuffixTrieBuilder

def new : DomainSuffixTrieBuilder where
  items _ := none
  tagToId _ := none
  idToTag := []
  interned := by simp
  listed := by simp

def reverseDomainBytes (domain : Text) : Text :=
  LabelKey.reverseLabels '.' (Text.trimMatches '.' domain)

theorem reverseDomainBytes_eq_iff (listed domain : Text) :
    reverseDomainBytes listed = LabelKey.reverseLabels '.' domain ↔
      Text.trimMatches '.' listed = domain := by
  constructor
  · intro same
    have back := congrArg (LabelKey.reverseLabels '.') same
    simpa [reverseDomainBytes] using back
  · intro same
    subst same
    rfl

def internTag (self : DomainSuffixTrieBuilder) (tag : Text) :
    TagId × DomainSuffixTrieBuilder :=
  match self.tagToId tag with
  | some id => (id, self)
  | none =>
      (self.idToTag.length,
        { self with
          tagToId := Function.update self.tagToId tag (some self.idToTag.length)
          idToTag := self.idToTag ++ [tag]
          interned := by
            intro other id found
            by_cases same : other = tag
            · subst same
              rw [Function.update_self, Option.some.injEq] at found
              subst found
              exact List.getElem?_concat_length
            · rw [Function.update_of_ne same] at found
              have old := self.interned other id found
              have bound := (List.getElem?_eq_some_iff.mp old).1
              rw [List.getElem?_append_left bound, old]
          listed := by
            intro key id found
            have old := self.listed key id found
            rw [List.length_append]
            exact Nat.lt_add_right _ old })

theorem internTag_getElem? (self : DomainSuffixTrieBuilder) (tag : Text) :
    (self.internTag tag).2.idToTag[(self.internTag tag).1]? = some tag := by
  unfold internTag
  split
  · next id found => exact self.interned tag id found
  · exact List.getElem?_concat_length

theorem internTag_items (self : DomainSuffixTrieBuilder) (tag : Text) :
    (self.internTag tag).2.items = self.items := by
  unfold internTag
  split <;> rfl

theorem internTag_isPrefix (self : DomainSuffixTrieBuilder) (tag : Text) :
    self.idToTag <+: (self.internTag tag).2.idToTag := by
  unfold internTag
  split
  · exact List.prefix_rfl
  · exact List.prefix_append _ _

def insert (self : DomainSuffixTrieBuilder) (domain tag : Text) :
    DomainSuffixTrieBuilder :=
  { (self.internTag tag).2 with
    items := Function.update (self.internTag tag).2.items (reverseDomainBytes domain)
      (some (self.internTag tag).1)
    listed := by
      intro key id found
      by_cases same : key = reverseDomainBytes domain
      · subst same
        rw [Function.update_self, Option.some.injEq] at found
        subst found
        exact (List.getElem?_eq_some_iff.mp (self.internTag_getElem? tag)).1
      · rw [Function.update_of_ne same] at found
        exact (self.internTag tag).2.listed key id found }

def tagAt (self : DomainSuffixTrieBuilder) (key : Text) : Option Text :=
  (self.items key).bind fun id => self.idToTag[id]?

theorem tagAt_internTag (self : DomainSuffixTrieBuilder) (tag key : Text) :
    (self.internTag tag).2.tagAt key = self.tagAt key := by
  unfold tagAt
  rw [internTag_items]
  cases found : self.items key with
  | none => rfl
  | some id =>
      have bound := self.listed key id found
      rcases self.internTag_isPrefix tag with ⟨rest, whole⟩
      rw [Option.bind_some, Option.bind_some, ← whole,
        List.getElem?_append_left bound]

theorem tagAt_insert (self : DomainSuffixTrieBuilder) (domain tag key : Text) :
    (self.insert domain tag).tagAt key =
      if key = reverseDomainBytes domain then some tag else self.tagAt key := by
  split
  · next same =>
      subst same
      simp [tagAt, insert, internTag_getElem?]
  · next different =>
      rw [← tagAt_internTag self tag key]
      simp [tagAt, insert, Function.update_of_ne different]

theorem tagAt_foldl_insert (self : DomainSuffixTrieBuilder) (domains : List Text)
    (tag key : Text) :
    (domains.foldl (fun builder domain => builder.insert domain tag) self).tagAt key =
      if domains.any (fun domain => reverseDomainBytes domain == key) then some tag
      else self.tagAt key := by
  induction domains generalizing self with
  | nil => simp
  | cons domain domains inductionHypothesis =>
      rw [List.foldl_cons, inductionHypothesis, tagAt_insert, List.any_cons]
      by_cases same : key = reverseDomainBytes domain
      · simp [same]
      · have different : reverseDomainBytes domain ≠ key := fun equal => same equal.symm
        simp [same, different]

theorem tagAt_foldl_insert_domain (self : DomainSuffixTrieBuilder) (domains : List Text)
    (tag domain : Text) :
    (domains.foldl (fun builder listed => builder.insert listed tag) self).tagAt
        (LabelKey.reverseLabels '.' domain) =
      if domains.any (fun listed => Text.trimMatches '.' listed == domain) then some tag
      else self.tagAt (LabelKey.reverseLabels '.' domain) := by
  have keys : (fun listed => reverseDomainBytes listed == LabelKey.reverseLabels '.' domain) =
      fun listed => Text.trimMatches '.' listed == domain := by
    funext listed
    rw [Bool.eq_iff_iff, beq_iff_eq, beq_iff_eq]
    exact reverseDomainBytes_eq_iff listed domain
  rw [tagAt_foldl_insert, keys]

theorem tagAt_foldl_insert_isSome (self : DomainSuffixTrieBuilder) (domains : List Text)
    (tag domain : Text) :
    ((domains.foldl (fun builder listed => builder.insert listed tag) self).tagAt
        (LabelKey.reverseLabels '.' domain)).isSome ↔
      (∃ listed ∈ domains, Text.trimMatches '.' listed = domain) ∨
        (self.tagAt (LabelKey.reverseLabels '.' domain)).isSome := by
  rw [tagAt_foldl_insert_domain]
  split
  · next inserted =>
      exact iff_of_true rfl (.inl (by simpa using inserted))
  · next missing =>
      refine ⟨.inr, fun stored => stored.resolve_left ?_⟩
      simpa using missing

/-! ### The order of inserts -/

theorem eq_of_tables {left right : DomainSuffixTrieBuilder} (items : left.items = right.items)
    (tagToId : left.tagToId = right.tagToId) (idToTag : left.idToTag = right.idToTag) :
    left = right := by
  cases left
  cases right
  cases items
  cases tagToId
  cases idToTag
  rfl

theorem internTag_tagToId (self : DomainSuffixTrieBuilder) (tag : Text) :
    (self.internTag tag).2.tagToId tag = some (self.internTag tag).1 := by
  unfold internTag
  split
  · next id found => exact found
  · exact Function.update_self ..

theorem internTag_of_known {self : DomainSuffixTrieBuilder} {tag : Text} {id : TagId}
    (known : self.tagToId tag = some id) : self.internTag tag = (id, self) := by
  unfold internTag
  rw [known]

theorem items_insert (self : DomainSuffixTrieBuilder) (domain tag : Text) :
    (self.insert domain tag).items =
      Function.update self.items (reverseDomainBytes domain) (some (self.internTag tag).1) := by
  rw [← internTag_items self tag]
  rfl

theorem internTag_insert (self : DomainSuffixTrieBuilder) (domain tag : Text) :
    (self.insert domain tag).internTag tag = ((self.internTag tag).1, self.insert domain tag) :=
  internTag_of_known (self.internTag_tagToId tag)

theorem insert_comm (self : DomainSuffixTrieBuilder) (first second tag : Text) :
    (self.insert first tag).insert second tag = (self.insert second tag).insert first tag := by
  have tables : ∀ domain other,
      ((self.insert domain tag).insert other tag).tagToId = (self.internTag tag).2.tagToId ∧
        ((self.insert domain tag).insert other tag).idToTag = (self.internTag tag).2.idToTag := by
    intro domain other
    constructor
    · change ((self.insert domain tag).internTag tag).2.tagToId = _
      rw [internTag_insert]
      rfl
    · change ((self.insert domain tag).internTag tag).2.idToTag = _
      rw [internTag_insert]
      rfl
  apply eq_of_tables
  · simp only [items_insert, internTag_insert]
    by_cases same : reverseDomainBytes first = reverseDomainBytes second
    · rw [same]
    · exact Function.update_comm same _ _ _
  · rw [(tables first second).1, (tables second first).1]
  · rw [(tables first second).2, (tables second first).2]

theorem foldl_insert_perm (self : DomainSuffixTrieBuilder) {domains others : List Text}
    (permuted : domains.Perm others) (tag : Text) :
    domains.foldl (fun builder domain => builder.insert domain tag) self =
      others.foldl (fun builder domain => builder.insert domain tag) self :=
  permuted.foldl_eq' (fun first _ second _ builder => builder.insert_comm first second tag) self

end DomainSuffixTrieBuilder

/-- A built trie: the map from reversed domains to tag ids, and the tags. -/
structure DomainSuffixTrie where
  map : Text → Option TagId
  idToTag : List Text
  listed : ∀ key id, map key = some id → id < idToTag.length

def DomainSuffixTrieBuilder.build (self : DomainSuffixTrieBuilder) : DomainSuffixTrie where
  map := self.items
  idToTag := self.idToTag
  listed := self.listed

namespace DomainSuffixTrie

def new : DomainSuffixTrie where
  map _ := none
  idToTag := []
  listed := by simp

/-- Both lookups end by scanning the reversed domain and following the last id. -/
def searchTag (self : DomainSuffixTrie) (target : Text) : Option Text :=
  (LabelKey.scan '.' self.map target).bind fun id => self.idToTag[id]?

def lookupBig (self : DomainSuffixTrie) (domain : Text) : Option Text :=
  let domain := Text.toAsciiLowercase (Text.trimMatches '.' domain)
  if domain = [] then none
  else self.searchTag (['.'].intercalate (domain.splitOn '.').reverse)

/-- Fill the buffer with the labels, last label first. -/
def fillBuffer (labels : List Text) : Text :=
  labels.foldl (fun buffer part =>
    if 0 < buffer.length then buffer ++ '.' :: part else buffer ++ part) []

def lookup (self : DomainSuffixTrie) (domain : Text) : Option Text :=
  let domain := Text.trimMatches '.' domain
  if domain = [] then none
  else if 256 < domain.byteLen then self.lookupBig domain
  else self.searchTag (fillBuffer (domain.splitOn '.').reverse)

/-! ### What a lookup finds -/

def tagAt (self : DomainSuffixTrie) (key : Text) : Option Text :=
  (self.map key).bind fun id => self.idToTag[id]?

@[simp]
theorem tagAt_build (builder : DomainSuffixTrieBuilder) (key : Text) :
    builder.build.tagAt key = builder.tagAt key := rfl

/-- The text a lookup searches for: only the path for long names lowers it. -/
def searched (domain : Text) : Text :=
  let domain := Text.trimMatches '.' domain
  if 256 < domain.byteLen then Text.toAsciiLowercase domain else domain

theorem searched_of_isLower {domain : Text} (lower : Text.IsLower domain) :
    searched domain = Text.trimMatches '.' domain := by
  unfold searched
  dsimp only
  split
  · exact lower.of_subset (Text.trimMatches_subset '.' domain)
  · rfl

theorem searchTag_eq_scan (self : DomainSuffixTrie) (target : Text) :
    self.searchTag target = LabelKey.scan '.' self.tagAt target := by
  apply LabelKey.scan_bind
  intro key id found
  simp [self.listed key id found]

theorem fillBuffer_foldl {buffer : Text} (nonempty : buffer ≠ []) (labels : List Text) :
    labels.foldl (fun buffer part =>
        if 0 < buffer.length then buffer ++ '.' :: part else buffer ++ part) buffer =
      ['.'].intercalate (buffer :: labels) := by
  induction labels generalizing buffer with
  | nil => simp
  | cons label labels inductionHypothesis =>
      have positive : 0 < buffer.length := List.length_pos_iff.mpr nonempty
      rw [List.foldl_cons, if_pos positive, inductionHypothesis (by simp)]
      cases labels <;> simp

/-- The buffer holds the reversed domain: its first part is never empty, since
the dots at the ends are trimmed. -/
theorem fillBuffer_reverse_splitOn {domain : Text}
    (notLast : domain.getLast? ≠ some '.') :
    fillBuffer (domain.splitOn '.').reverse = LabelKey.reverseLabels '.' domain := by
  rcases List.eq_nil_or_concat (domain.splitOn '.') with empty | ⟨front, last, cut⟩
  · exact absurd empty (List.splitOn_ne_nil _ _)
  · rw [LabelKey.reverseLabels, cut, List.concat_eq_append, List.reverse_append]
    by_cases lastEmpty : last = []
    · have whole : ['.'].intercalate (domain.splitOn '.') = domain :=
        List.intercalate_splitOn '.'
      rw [cut, lastEmpty, List.concat_eq_append] at whole
      by_cases frontEmpty : front = []
      · subst lastEmpty frontEmpty
        rfl
      · rw [LabelKey.intercalate_append frontEmpty (by simp)] at whole
        exact absurd (by rw [← whole]; simp) notLast
    · change List.foldl _ _ (last :: front.reverse) = _
      rw [List.foldl_cons]
      exact fillBuffer_foldl (by simpa using lastEmpty) front.reverse

/-- The path for long names scans the reversal of the name in lower case. -/
theorem lookupBig_eq_scan (self : DomainSuffixTrie) (domain : Text) :
    self.lookupBig domain =
      LabelKey.scan '.' self.tagAt
        (LabelKey.reverseLabels '.' (Text.toAsciiLowercase (Text.trimMatches '.' domain))) := by
  rw [← searchTag_eq_scan]
  unfold lookupBig
  dsimp only
  split
  · next empty =>
      rw [empty]
      rfl
  · rfl

theorem lookup_eq_scan (self : DomainSuffixTrie) (domain : Text) :
    self.lookup domain =
      LabelKey.scan '.' self.tagAt (LabelKey.reverseLabels '.' (searched domain)) := by
  unfold lookup searched
  by_cases empty : Text.trimMatches '.' domain = []
  · simp only [empty, if_true]
    rfl
  · simp only [empty, if_false]
    by_cases long : 256 < (Text.trimMatches '.' domain).byteLen
    · simp only [long, if_true]
      rw [lookupBig_eq_scan, Text.trimMatches_trimMatches]
    · simp only [long, if_false]
      rw [searchTag_eq_scan, fillBuffer_reverse_splitOn (Text.trimMatches_getLast?_ne '.' domain)]

/-- A lookup returns the tag of the longest stored domain that is a label suffix
of the text searched for. -/
theorem lookup_eq_some_iff {self : DomainSuffixTrie} {query tag : Text} :
    self.lookup query = some tag ↔
      ∃ domain, domain ≠ [] ∧ LabelKey.Covers '.' domain (searched query) ∧
        self.tagAt (LabelKey.reverseLabels '.' domain) = some tag ∧
        ∀ longer, LabelKey.Covers '.' longer (searched query) →
          domain.length < longer.length →
          self.tagAt (LabelKey.reverseLabels '.' longer) = none := by
  rw [lookup_eq_scan]
  exact LabelKey.scan_reverseLabels_eq_some_iff

theorem lookup_isSome_iff (self : DomainSuffixTrie) (query : Text) :
    (self.lookup query).isSome ↔
      ∃ domain, domain ≠ [] ∧ LabelKey.Covers '.' domain (searched query) ∧
        (self.tagAt (LabelKey.reverseLabels '.' domain)).isSome := by
  rw [lookup_eq_scan, ← Option.ne_none_iff_isSome, ne_eq,
    LabelKey.scan_reverseLabels_eq_none_iff]
  simp only [not_forall, ← Option.ne_none_iff_isSome, exists_prop]

/-! ### Lookups of names in lower case -/

theorem isLower_of_isPrefix {query key : Text} (lower : Text.IsLower query)
    (front : key <+: LabelKey.reverseLabels '.' (searched query)) :
    Text.IsLower (LabelKey.reverseLabels '.' key) := by
  rw [searched_of_isLower lower] at front
  have inside : LabelKey.reverseLabels '.' key ⊆ query := by
    intro char member
    have inKey := (LabelKey.reverseLabels_perm key).mem_iff.mp member
    have inTrimmed := (LabelKey.reverseLabels_perm _).mem_iff.mp (front.subset inKey)
    exact Text.trimMatches_subset '.' query inTrimmed
  exact lower.of_subset inside

theorem lookup_congr {left right : DomainSuffixTrie} {query : Text}
    (lower : Text.IsLower query)
    (agree : ∀ domain, Text.IsLower domain →
      left.tagAt (LabelKey.reverseLabels '.' domain) =
        right.tagAt (LabelKey.reverseLabels '.' domain)) :
    left.lookup query = right.lookup query := by
  rw [lookup_eq_scan, lookup_eq_scan]
  apply LabelKey.scan_congr
  intro key front
  simpa using agree _ (isLower_of_isPrefix lower front)

end DomainSuffixTrie

end Rsdns.Common
