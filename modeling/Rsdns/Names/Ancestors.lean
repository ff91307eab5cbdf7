import Rsdns.Dns.ByteName
import Rsdns.Server.Pipeline

/-!
# Ancestors by text

The server looks a name up by its text, cut at dots, and a label may hold a dot of
its own.  The text then ends with labels that the name does not end with, and a
placeholder captures half a label.  Without such labels the text does what the
labels do.
-/

namespace Rsdns.Server

open Common Dns Plugins

/-- A configured domain in lower case: plain labels joined by dots. -/
structure IsDomain (domain : Text) : Prop where
  lower : Text.IsLower domain
  chars : ∀ char ∈ domain, char = '.' ∨ isPlainChar char = true
  labels : [] ∉ domain.splitOn '.'

instance (domain : Text) : Decidable (IsDomain domain) :=
  decidable_of_iff
    (Text.IsLower domain ∧
      domain.all (fun char => decide (char = '.' ∨ isPlainChar char = true)) = true ∧
      [] ∉ domain.splitOn '.')
    ⟨fun ⟨lower, chars, labels⟩ => ⟨lower, List.all_iff_forall_prop.mp chars, labels⟩,
      fun isDomain =>
        ⟨isDomain.lower, List.all_iff_forall_prop.mpr isDomain.chars, isDomain.labels⟩⟩

namespace IsDomain

variable {domain : Text}

theorem plain (isDomain : IsDomain domain) :
    ∀ label ∈ domain.splitOn '.', ∀ char ∈ label, isPlainChar char = true := by
  intro label member char inside
  rw [List.splitOn_eq_splitOnP] at member
  obtain ⟨inDomain, uncut⟩ := LabelKey.of_mem_splitOnP member char inside
  rcases isDomain.chars char inDomain with isDot | isPlain
  · simp [isDot] at uncut
  · exact isPlain

theorem ne_nil (isDomain : IsDomain domain) : domain ≠ [] := by
  rintro rfl
  exact isDomain.labels (List.mem_singleton_self _)

theorem getLast?_ne (isDomain : IsDomain domain) : domain.getLast? ≠ some '.' := by
  intro last
  obtain ⟨front, rfl⟩ := List.getLast?_eq_some_iff.mp last
  apply isDomain.labels
  rw [List.splitOn_append_cons_self]
  simp

theorem head?_ne (isDomain : IsDomain domain) : domain.head? ≠ some '.' := by
  intro head
  obtain ⟨rest, rfl⟩ := List.head?_eq_some_iff.mp head
  apply isDomain.labels
  have cut : ('.' :: rest).splitOn '.' = [].splitOn '.' ++ rest.splitOn '.' :=
    List.splitOn_append_cons_self [] rest
  rw [cut]
  simp

theorem trimEnd (isDomain : IsDomain domain) : Text.trimEndMatches '.' domain = domain :=
  Text.trimEndMatches_eq_self isDomain.getLast?_ne

theorem trimBoth (isDomain : IsDomain domain) : Text.trimMatches '.' domain = domain :=
  Text.trimMatches_eq_self isDomain.head?_ne isDomain.getLast?_ne

end IsDomain

/-! ### The text of a name -/

section NameKeys

variable {Name : Type} [NameApi Name] (text : NameText Name)

/-- The labels the server writes down, lowered. -/
def loweredLabels (name : Name) : List (List UInt8) := text.labels (NameApi.toLowercase name)

/-- The labels of a name up to letter case. -/
def spelledLabels (name : Name) : List Text :=
  (text.labels name).map fun label => Text.toAsciiLowercase (label.map byteChar)

theorem map_loweredLabels (name : Name) :
    (loweredLabels text name).map (List.map byteChar) = spelledLabels text name :=
  text.toLowercase name

/-- The labels joined, before any dot is trimmed. -/
def joinedLabels (labels : List (List UInt8)) : Text :=
  ['.'].intercalate (labels.map (text.part true))

theorem keyName_eq (name : Name) :
    keyName name = Text.trimEndMatches '.' (joinedLabels text (loweredLabels text name)) := by
  have written := text.toAscii (NameApi.toLowercase name)
  unfold keyName
  rw [written]
  change Text.trimEndMatches '.' (joinedLabels text (loweredLabels text name) ++ _) = _
  split
  · exact List.rdropWhile_concat_pos _ _ _ rfl
  · rw [List.append_nil]

theorem exists_last_byte {labels : List (List UInt8)} (nonempty : labels ≠ [])
    (bytes : ∀ label ∈ labels, label ≠ []) :
    ∃ front first byte, joinedLabels text labels = front ++ text.write first byte := by
  rcases List.eq_nil_or_concat labels with empty | ⟨before, label, rfl⟩
  · exact absurd empty nonempty
  · rcases List.eq_nil_or_concat label with empty | ⟨bytesBefore, byte, rfl⟩
    · exact absurd empty (bytes label (by simp))
    · have written := text.part_append true bytesBefore byte []
      rw [text.part_nil, List.append_nil] at written
      unfold joinedLabels
      by_cases single : before = []
      · exact ⟨_, _, byte, by simpa [single] using written⟩
      · have several : before.map (text.part true) ≠ [] := by simpa using single
        rw [List.concat_eq_append, List.map_append, List.map_singleton,
          LabelKey.intercalate_append several (List.cons_ne_nil _ _), List.intercalate_singleton,
          List.concat_eq_append, written, ← List.cons_append, ← List.append_assoc]
        exact ⟨_, _, byte, rfl⟩

/-- The text has the pieces of the labels, unless the name is the root or its last
label ends with a dot, which is trimmed off its backslash. -/
theorem keyName_cases (name : Name) :
    (keyName name = [] ∧ loweredLabels text name = []) ∨
      (∃ front, keyName name = front ++ ['\\'] ∧
        (loweredLabels text name).flatMap text.pieces = (keyName name).splitOn '.' ++ [[]]) ∨
      (keyName name).splitOn '.' = (loweredLabels text name).flatMap text.pieces := by
  rw [keyName_eq text]
  by_cases root : loweredLabels text name = []
  · rw [root]
    exact .inl ⟨rfl, rfl⟩
  · have cut : (joinedLabels text (loweredLabels text name)).splitOn '.' =
        (loweredLabels text name).flatMap text.pieces := by
      unfold joinedLabels
      rw [LabelKey.splitOn_intercalate_flatMap (by simpa using root), List.flatMap_map]
      rfl
    obtain ⟨front, first, byte, ends⟩ := exists_last_byte text root (text.nonempty _)
    by_cases isDot : byteChar byte = '.'
    · rw [text.dot first byte isDot] at ends
      have trimmed : Text.trimEndMatches '.' (joinedLabels text (loweredLabels text name)) =
          front ++ ['\\'] := by
        have shape : front ++ ['\\', '.'] = (front ++ ['\\']) ++ ['.'] := by simp
        rw [ends, shape]
        refine (List.rdropWhile_concat_pos _ _ _ rfl).trans ?_
        exact Text.trimEndMatches_eq_self (by simp)
      have shape : front ++ ['\\', '.'] = (front ++ ['\\']) ++ '.' :: [] := by simp
      refine .inr (.inl ⟨front, trimmed, ?_⟩)
      rw [trimmed, ← cut, ends, shape, List.splitOn_append_cons_self, List.splitOn_nil]
    · have last : (joinedLabels text (loweredLabels text name)).getLast? ≠ some '.' := by
        rw [ends, List.getLast?_append_of_ne_nil _ (text.write_ne_nil first byte)]
        intro last
        exact text.dot_not_mem_write isDot (List.mem_of_getLast? last)
      rw [Text.trimEndMatches_eq_self last]
      exact .inr (.inr cut)

theorem splitOn_keyName_of_covers {domain : Text} (isDomain : IsDomain domain) {name : Name}
    (covers : LabelKey.Covers '.' domain (keyName name)) :
    (keyName name).splitOn '.' = (loweredLabels text name).flatMap text.pieces := by
  rcases keyName_cases text name with ⟨empty, _⟩ | ⟨front, ends, _⟩ | cut
  · have nothing := covers.isSuffix
    rw [empty, List.suffix_nil] at nothing
    exact absurd nothing isDomain.ne_nil
  · have backslash := covers.isSuffix
    rw [ends, List.suffix_concat_iff] at backslash
    rcases backslash with nothing | ⟨rest, same, _⟩
    · exact absurd nothing isDomain.ne_nil
    · exact absurd (isDomain.chars '\\' (by simp [same])) (by decide)
  · exact cut

/-- A domain ends the text of a name exactly if its labels end the pieces. -/
theorem covers_keyName_iff {domain : Text} (isDomain : IsDomain domain) (name : Name) :
    LabelKey.Covers '.' domain (keyName name) ↔
      domain.splitOn '.' <:+ (loweredLabels text name).flatMap text.pieces := by
  constructor
  · intro covers
    rw [← splitOn_keyName_of_covers text isDomain covers]
    exact LabelKey.covers_iff_splitOn.mp covers
  · intro ends
    rcases keyName_cases text name with ⟨_, root⟩ | ⟨front, _, trimmed⟩ | cut
    · rw [root, List.flatMap_nil, List.suffix_nil] at ends
      exact absurd ends (List.splitOn_ne_nil _ _)
    · rw [trimmed, List.suffix_concat_iff] at ends
      rcases ends with nothing | ⟨rest, same, _⟩
      · exact absurd nothing (List.splitOn_ne_nil _ _)
      · exact absurd (by simp [same]) isDomain.labels
    · rw [LabelKey.covers_iff_splitOn, cut]
      exact ends

theorem isLower_intercalate {labels : List Text} (lower : ∀ label ∈ labels, Text.IsLower label) :
    Text.IsLower (['.'].intercalate labels) := by
  rw [Text.isLower_iff]
  intro char member
  rcases LabelKey.of_mem_intercalate member with rfl | ⟨label, inLabels, inside⟩
  · decide
  · exact Text.isLower_iff.mp (lower label inLabels) char inside

include text in
theorem isLower_keyName (name : Name) : Text.IsLower (keyName name) := by
  have labels : ∀ label ∈ (loweredLabels text name).map (text.part true), Text.IsLower label := by
    intro written member
    obtain ⟨label, inside, rfl⟩ := List.mem_map.mp member
    apply text.isLower_part
    have spelled : label.map byteChar ∈ spelledLabels text name := by
      rw [← map_loweredLabels]
      exact List.mem_map_of_mem inside
    obtain ⟨original, _, same⟩ := List.mem_map.mp spelled
    rw [← same]
    exact Text.isLower_toAsciiLowercase _
  rw [keyName_eq text, Text.isLower_trimEndMatches_iff (by decide)]
  exact isLower_intercalate labels

theorem keyName_getLast?_ne (name : Name) : (keyName name).getLast? ≠ some '.' :=
  Text.trimEndMatches_getLast?_ne '.' _

theorem joinedLabels_head?_ne {labels : List (List UInt8)}
    (bytes : ∀ label ∈ labels, label ≠ []) : (joinedLabels text labels).head? ≠ some '.' := by
  unfold joinedLabels
  cases labels with
  | nil => simp
  | cons label labels =>
      obtain ⟨byte, rest, rfl⟩ := List.exists_cons_of_ne_nil (bytes label List.mem_cons_self)
      have first : ∃ back, ['.'].intercalate ((byte :: rest) :: labels |>.map (text.part true)) =
          text.write true byte ++ back := by
        by_cases single : labels = []
        · exact ⟨text.part false rest, by simp [single]⟩
        · have several : labels.map (text.part true) ≠ [] := by simpa using single
          rw [List.map_cons, List.intercalate_cons_of_ne_nil several, NameText.part_cons,
            List.append_assoc, List.append_assoc]
          exact ⟨_, rfl⟩
      obtain ⟨back, same⟩ := first
      rw [same, List.head?_append_of_ne_nil _ (text.write_ne_nil true byte)]
      exact text.write_head?_ne true byte

include text in
theorem keyName_head?_ne (name : Name) : (keyName name).head? ≠ some '.' := by
  rw [keyName_eq text]
  intro head
  apply joinedLabels_head?_ne text (text.nonempty (NameApi.toLowercase name))
  obtain ⟨rest, whole⟩ := List.rdropWhile_prefix (· == '.')
    (joinedLabels text (loweredLabels text name))
  obtain ⟨tail, same⟩ := List.head?_eq_some_iff.mp head
  have shape : joinedLabels text (loweredLabels text name) = '.' :: tail ++ rest := by
    rw [← whole, ← same]
    rfl
  exact congrArg List.head? shape

/-! ### What the labels say -/

/-- The labels of the domain are a suffix of the labels of the name. -/
def Descends (name : Name) (domain : Text) : Prop :=
  domain.splitOn '.' <:+ spelledLabels text name

/-- The text matches as the labels say.  A template takes a proper suffix, and captures
labels of the name. -/
structure MatchesByLabels (name : Name) (domain : Text) : Prop where
  trie : ∀ tag, ((DomainSuffixTrieBuilder.new.insert domain tag).build.lookup
    (keyName name)).isSome = true ↔ Descends text name domain
  suffix : suffixMatch domain (keyName name) = true ↔ Descends text name domain
  template : (templateMatch { suffix := domain, placeholders := [] } (keyName name)).isSome =
    true ↔ ∃ front, front ≠ [] ∧ spelledLabels text name = front ++ domain.splitOn '.'
  captured : ∀ placeholders captures,
    templateMatch { suffix := domain, placeholders := placeholders } (keyName name) =
      some captures →
    ∀ capture ∈ captures, ∃ label ∈ loweredLabels text name, capture = text.part true label

/-- A label ends with a dot and the first label of the domain, and the others follow. -/
def EndsInside (name : Name) (domain : Text) : Prop :=
  ∃ before inner first rest, domain.splitOn '.' = first :: rest ∧
    spelledLabels text name = before ++ (inner ++ '.' :: first) :: rest ∧
    ∀ label ∈ rest, label.head? ≠ some '-'

/-- The dots of the text are where the labels end, as far as the domain can tell. -/
structure KeepsLabels (name : Name) (domain : Text) : Prop where
  outside : ¬ EndsInside text name domain
  hyphens : Descends text name domain → ∀ label ∈ domain.splitOn '.', label.head? ≠ some '-'
  whole : ∀ front, spelledLabels text name = front ++ domain.splitOn '.' →
    ∀ label ∈ front, '.' ∉ label

theorem covers_iff {domain : Text} (isDomain : IsDomain domain) (name : Name) :
    LabelKey.Covers '.' domain (keyName name) ↔
      (Descends text name domain ∧ ∀ label ∈ domain.splitOn '.', label.head? ≠ some '-') ∨
        EndsInside text name domain := by
  rw [covers_keyName_iff text isDomain]
  cases cut : domain.splitOn '.' with
  | nil => exact absurd cut (List.splitOn_ne_nil _ _)
  | cons first rest =>
      have plain := isDomain.plain
      rw [cut] at plain
      rw [text.suffix_pieces_iff plain, map_loweredLabels]
      unfold Descends EndsInside
      rw [cut]
      apply or_congr_right
      constructor
      · rintro ⟨before, inner, whole, hyphens⟩
        exact ⟨before, inner, first, rest, rfl, whole, hyphens⟩
      · rintro ⟨before, inner, _, _, same, whole, hyphens⟩
        obtain ⟨rfl, rfl⟩ := List.cons.inj same
        exact ⟨before, inner, whole, hyphens⟩

theorem not_descends_of_endsInside {name : Name} {domain : Text}
    (inside : EndsInside text name domain) : ¬ Descends text name domain := by
  obtain ⟨before, inner, first, rest, cut, whole, _⟩ := inside
  unfold Descends
  rw [cut, whole]
  intro ends
  have other : (inner ++ '.' :: first) :: rest <:+ before ++ (inner ++ '.' :: first) :: rest :=
    List.suffix_append _ _
  have same := (List.suffix_of_suffix_length_le ends other (by simp)).eq_of_length (by simp)
  have length := congrArg List.length (List.cons.inj same).1
  rw [List.length_append, List.length_cons] at length
  omega

theorem KeepsLabels.covers_iff {name : Name} {domain : Text}
    (keeps : KeepsLabels text name domain) (isDomain : IsDomain domain) :
    LabelKey.Covers '.' domain (keyName name) ↔ Descends text name domain := by
  rw [Server.covers_iff text isDomain]
  constructor
  · rintro (⟨descends, _⟩ | inside)
    · exact descends
    · exact absurd inside keeps.outside
  · intro descends
    exact .inl ⟨descends, keeps.hyphens descends⟩

/-! ### What the matchers look for -/

include text in
theorem lookup_insert_isSome_iff {domain : Text} (isDomain : IsDomain domain) (tag : Text)
    (name : Name) :
    ((DomainSuffixTrieBuilder.new.insert domain tag).build.lookup (keyName name)).isSome = true ↔
      LabelKey.Covers '.' domain (keyName name) := by
  have searched : DomainSuffixTrie.searched (keyName name) = keyName name := by
    rw [DomainSuffixTrie.searched_of_isLower (isLower_keyName text name)]
    exact Text.trimMatches_eq_self (keyName_head?_ne text name) (keyName_getLast?_ne name)
  have stored : ∀ other, ((DomainSuffixTrieBuilder.new.insert domain tag).build.tagAt
      (LabelKey.reverseLabels '.' other)).isSome = true ↔ domain = other := by
    intro other
    have key := DomainSuffixTrieBuilder.reverseDomainBytes_eq_iff domain other
    rw [isDomain.trimBoth] at key
    rw [DomainSuffixTrie.tagAt_build, DomainSuffixTrieBuilder.tagAt_insert, ← key]
    split
    · next same => exact iff_of_true rfl same.symm
    · next different => exact iff_of_false (by simp [DomainSuffixTrieBuilder.tagAt,
        DomainSuffixTrieBuilder.new]) (Ne.symm different)
  rw [DomainSuffixTrie.lookup_isSome_iff, searched]
  constructor
  · rintro ⟨other, _, covers, found⟩
    rwa [(stored other).mp found]
  · intro covers
    exact ⟨domain, isDomain.ne_nil, covers, (stored domain).mpr rfl⟩

theorem suffixMatch_keyName_iff {domain : Text} (isDomain : IsDomain domain) (name : Name) :
    suffixMatch domain (keyName name) = true ↔
      LabelKey.Covers '.' domain (keyName name) := by
  rw [suffixMatch_iff, isDomain.trimEnd,
    Text.trimEndMatches_eq_self (keyName_getLast?_ne name)]

theorem templateMatch_keyName_iff {domain : Text} (isDomain : IsDomain domain) (name : Name)
    (placeholders : List UInt32) (captures : List Text) :
    templateMatch { suffix := domain, placeholders := placeholders } (keyName name) =
        some captures ↔
      ∃ rest, rest ≠ [] ∧ keyName name = rest ++ '.' :: domain ∧
        placeholders.mapM (capture (rest.splitOn '.')) = some captures := by
  rw [templateMatch_eq_some_iff, isDomain.trimEnd,
    Text.trimEndMatches_eq_self (keyName_getLast?_ne name)]

/-! ### Matching by labels -/

theorem exists_front {name : Name} {domain : Text} (isDomain : IsDomain domain)
    {front : List Text} (ends : spelledLabels text name = front ++ domain.splitOn '.')
    (hyphens : ∀ label ∈ domain.splitOn '.', label.head? ≠ some '-') :
    ∃ labels ⊆ loweredLabels text name, labels.map (List.map byteChar) = front ∧
      (loweredLabels text name).flatMap text.pieces =
        labels.flatMap text.pieces ++ domain.splitOn '.' := by
  rw [← map_loweredLabels] at ends
  obtain ⟨labels, back, whole, frontIs, backIs⟩ := List.map_eq_append_iff.mp ends
  refine ⟨labels, by simp [whole], frontIs, ?_⟩
  obtain ⟨same, uncut⟩ := (text.map_lastPiece_eq_iff isDomain.plain).mpr ⟨backIs, hyphens⟩
  have pieces : back.flatMap text.pieces = domain.splitOn '.' := by
    rw [same, List.map_eq_flatMap]
    refine List.flatMap_congr fun label member => ?_
    rw [text.pieces_eq, uncut label member, List.nil_append]
  rw [whole, List.flatMap_append, pieces]

theorem splitOn_rest {name : Name} {domain rest : Text} (isDomain : IsDomain domain)
    (whole : keyName name = rest ++ '.' :: domain) {labels : List (List UInt8)}
    (pieces : (loweredLabels text name).flatMap text.pieces =
      labels.flatMap text.pieces ++ domain.splitOn '.') :
    rest.splitOn '.' = labels.flatMap text.pieces := by
  have cut := splitOn_keyName_of_covers text isDomain (.inr ⟨rest, whole⟩)
  rw [pieces, whole, List.splitOn_append_cons_self] at cut
  exact List.append_cancel_right cut

theorem KeepsLabels.template_iff {name : Name} {domain : Text}
    (keeps : KeepsLabels text name domain) (isDomain : IsDomain domain) :
    (templateMatch { suffix := domain, placeholders := [] } (keyName name)).isSome = true ↔
      ∃ front, front ≠ [] ∧ spelledLabels text name = front ++ domain.splitOn '.' := by
  have covers := keeps.covers_iff text isDomain
  simp only [Option.isSome_iff_exists, templateMatch_keyName_iff isDomain]
  constructor
  · rintro ⟨_, rest, _, whole, _⟩
    have descends := covers.mp (.inr ⟨rest, whole⟩)
    obtain ⟨front, ends⟩ := descends
    obtain ⟨labels, _, frontIs, pieces⟩ :=
      exists_front text isDomain ends.symm (keeps.hyphens ⟨front, ends⟩)
    refine ⟨front, ?_, ends.symm⟩
    rintro rfl
    have cut := splitOn_rest text isDomain whole pieces
    rw [List.map_eq_nil_iff.mp frontIs] at cut
    exact List.splitOn_ne_nil _ _ cut
  · rintro ⟨front, nonempty, ends⟩
    have descends : Descends text name domain := ⟨front, ends.symm⟩
    obtain ⟨labels, _, frontIs, pieces⟩ :=
      exists_front text isDomain ends (keeps.hyphens descends)
    rcases covers.mpr descends with same | ⟨rest, whole⟩
    · have cut := splitOn_keyName_of_covers text isDomain (.inl same)
      rw [pieces, same] at cut
      have nothing : labels.flatMap text.pieces = [] := by
        simpa using List.self_eq_append_left.mp cut
      cases labels with
      | nil => exact absurd frontIs.symm nonempty
      | cons label labels =>
          rw [List.flatMap_cons, List.append_eq_nil_iff] at nothing
          exact absurd nothing.1 (List.splitOn_ne_nil _ _)
    · refine ⟨[], rest, ?_, whole, rfl⟩
      rintro rfl
      apply keyName_head?_ne text name
      rw [whole]
      rfl

theorem mem_of_capture {labels : List Text} {placeholder : UInt32} {captured : Text}
    (found : capture labels placeholder = some captured) : captured ∈ labels := by
  obtain ⟨_, atPosition, _⟩ := capture_eq_some_iff.mp found
  exact List.mem_of_getElem? atPosition

theorem mem_of_mapM_capture {labels : List Text} {placeholders : List UInt32}
    {captures : List Text} (found : placeholders.mapM (capture labels) = some captures) :
    captures ⊆ labels := by
  intro captured member
  have inAnswers : some captured ∈ placeholders.map (capture labels) := by
    rw [mapM_eq_some_iff.mp found]
    exact List.mem_map_of_mem member
  obtain ⟨placeholder, _, here⟩ := List.mem_map.mp inAnswers
  exact mem_of_capture here

theorem KeepsLabels.captured {name : Name} {domain : Text}
    (keeps : KeepsLabels text name domain) (isDomain : IsDomain domain)
    {placeholders : List UInt32} {captures : List Text}
    (accepted : templateMatch { suffix := domain, placeholders := placeholders } (keyName name) =
      some captures) :
    ∀ captured ∈ captures, ∃ label ∈ loweredLabels text name, captured = text.part true label := by
  obtain ⟨rest, _, whole, found⟩ := (templateMatch_keyName_iff isDomain _ _ _).mp accepted
  have descends := (keeps.covers_iff text isDomain).mp (.inr ⟨rest, whole⟩)
  obtain ⟨front, ends⟩ := descends
  obtain ⟨labels, inside, frontIs, pieces⟩ :=
    exists_front text isDomain ends.symm (keeps.hyphens ⟨front, ends⟩)
  intro captured member
  have inRest := mem_of_mapM_capture found member
  rw [splitOn_rest text isDomain whole pieces] at inRest
  obtain ⟨label, inLabels, piece⟩ := List.mem_flatMap.mp inRest
  have noDot : '.' ∉ label.map byteChar := by
    apply keeps.whole front ends.symm
    rw [← frontIs]
    exact List.mem_map_of_mem inLabels
  rw [text.pieces_of_no_dot noDot, List.mem_singleton] at piece
  exact ⟨label, inside inLabels, piece⟩

theorem matchesByLabels_of_keepsLabels {name : Name} {domain : Text}
    (isDomain : IsDomain domain) (keeps : KeepsLabels text name domain) :
    MatchesByLabels text name domain where
  trie tag :=
    (lookup_insert_isSome_iff text isDomain tag name).trans (keeps.covers_iff text isDomain)
  suffix := (suffixMatch_keyName_iff isDomain name).trans (keeps.covers_iff text isDomain)
  template := keeps.template_iff text isDomain
  captured _ _ := keeps.captured text isDomain

theorem exists_capture {rest piece : Text} (member : piece ∈ rest.splitOn '.')
    (nonempty : piece ≠ []) (short : (rest.splitOn '.').length < 2 ^ 32) :
    ∃ placeholder, [placeholder].mapM (capture (rest.splitOn '.')) = some [piece] := by
  obtain ⟨index, bound, here⟩ := List.getElem_of_mem member
  have noDot := LabelKey.not_mem_of_mem_splitOn member
  have toNat : (UInt32.ofNat ((rest.splitOn '.').length - index)).toNat =
      (rest.splitOn '.').length - index := by
    rw [UInt32.toNat_ofNat', Nat.mod_eq_of_lt (by omega)]
  have counted : (rest.splitOn '.').length % 2 ^ 32 = (rest.splitOn '.').length :=
    Nat.mod_eq_of_lt short
  have position : (rest.splitOn '.').length - ((rest.splitOn '.').length - index) = index := by
    omega
  have captured : capture (rest.splitOn '.')
      (UInt32.ofNat ((rest.splitOn '.').length - index)) = some piece := by
    apply capture_eq_some_iff.mpr
    rw [counted, toNat, position, List.getElem?_eq_getElem bound, here]
    exact ⟨Nat.sub_le _ _, rfl, nonempty, noDot⟩
  exact ⟨_, by rw [List.mapM_cons, captured]; rfl⟩

theorem keepsLabels_of_matchesByLabels {name : Name} {domain : Text}
    (isDomain : IsDomain domain) (short : (keyName name).length < 2 ^ 32)
    (agree : MatchesByLabels text name domain) : KeepsLabels text name domain := by
  have covers : LabelKey.Covers '.' domain (keyName name) ↔ Descends text name domain :=
    (suffixMatch_keyName_iff isDomain name).symm.trans agree.suffix
  have outside : ¬ EndsInside text name domain := by
    intro inside
    apply not_descends_of_endsInside text inside
    exact covers.mp ((covers_iff text isDomain name).mpr (.inr inside))
  have hyphens : Descends text name domain →
      ∀ label ∈ domain.splitOn '.', label.head? ≠ some '-' := by
    intro descends
    rcases (covers_iff text isDomain name).mp (covers.mpr descends) with both | inside
    · exact both.2
    · exact absurd inside outside
  refine ⟨outside, hyphens, fun front ends label member dotted => ?_⟩
  have nonempty : front ≠ [] := List.ne_nil_of_mem member
  obtain ⟨_, accepted⟩ := Option.isSome_iff_exists.mp
    (agree.template.mpr ⟨front, nonempty, ends⟩)
  obtain ⟨rest, notRoot, whole, _⟩ := (templateMatch_keyName_iff isDomain _ _ _).mp accepted
  obtain ⟨labels, _, rfl, pieces⟩ :=
    exists_front text isDomain ends (hyphens ⟨front, ends.symm⟩)
  obtain ⟨bytes, inside, rfl⟩ := List.mem_map.mp member
  obtain ⟨half, broken⟩ := text.exists_broken_piece dotted
  -- the half label in front of the dot is a piece of its own, so some placeholder captures it
  have inRest : text.part true half ++ ['\\'] ∈ rest.splitOn '.' := by
    rw [splitOn_rest text isDomain whole pieces]
    exact List.mem_flatMap.mpr ⟨bytes, inside, broken⟩
  have few : (rest.splitOn '.').length < 2 ^ 32 := by
    have counted := @LabelKey.length_splitOn_le _ '.' _ rest
    have length := congrArg List.length whole
    rw [List.length_append, List.length_cons] at length
    omega
  obtain ⟨placeholder, captured⟩ := exists_capture inRest (by simp) few
  have taken := (templateMatch_keyName_iff isDomain _ _ _).mpr ⟨rest, notRoot, whole, captured⟩
  obtain ⟨label, _, same⟩ := agree.captured _ _ taken _ (List.mem_singleton_self _)
  exact text.part_ne_broken label half same

/-- The text of a name does what its labels do if the dots of the text are where labels
end, and only if, for every name short enough for its pieces to be counted. -/
theorem matches_by_labels_iff {domain : Text} (isDomain : IsDomain domain) (name : Name) :
    (KeepsLabels text name domain → MatchesByLabels text name domain) ∧
      ((keyName name).length < 2 ^ 32 →
        (MatchesByLabels text name domain ↔ KeepsLabels text name domain)) := by
  have enough : KeepsLabels text name domain → MatchesByLabels text name domain :=
    matchesByLabels_of_keepsLabels text isDomain
  exact ⟨enough, fun short => ⟨keepsLabels_of_matchesByLabels text isDomain short, enough⟩⟩

/-- Names whose labels hold no dot match by labels every domain a rule can name. -/
theorem keepsLabels_of_no_dot {name : Name} {domain : Text}
    (noDot : ∀ label ∈ spelledLabels text name, '.' ∉ label)
    (hyphens : ∀ label ∈ domain.splitOn '.', label.head? ≠ some '-') :
    KeepsLabels text name domain where
  outside := by
    rintro ⟨before, inner, first, rest, _, whole, _⟩
    apply noDot (inner ++ '.' :: first) (by simp [whole])
    simp
  hyphens _ := hyphens
  whole front ends label member := by
    apply noDot
    rw [ends]
    exact List.mem_append_left _ member

end NameKeys

theorem isDomain_lan : IsDomain "lan".toList := by decide

def plainName : ByteName where
  labels := [⟨[119, 119, 119], by decide⟩, ⟨[108, 97, 110], by decide⟩]
  fqdn := true

theorem plain_name_matches_by_labels :
    MatchesByLabels ByteName.text plainName "lan".toList := by
  have agree := matches_by_labels_iff ByteName.text isDomain_lan plainName
  apply (agree.2 (by decide)).mpr
  exact keepsLabels_of_no_dot ByteName.text (by decide) (by decide)

def dottedName : ByteName where
  labels := [⟨[97, 46, 108, 97, 110], by decide⟩]
  fqdn := true

/-- The text `a\.lan` ends with a dot and `lan`, and the name has no label `lan`. -/
theorem dotted_label_passes_for_subdomain :
    ¬ MatchesByLabels ByteName.text dottedName "lan".toList := by
  intro agree
  have accepted : suffixMatch "lan".toList (keyName dottedName) = true := by decide
  have descends := agree.suffix.mp accepted
  unfold Descends at descends
  revert descends
  decide

end Rsdns.Server
