import Rsdns.Rules.Placeholders

/-!
# Exactly the names a template matches

A template should match a name whose front has, for each placeholder, a nonempty piece
of that number counted from the back, and capture these pieces.  The pieces are counted
in 32 bits.  Below 2^32 of them nothing else is matched or captured; above, only where
the piece that is found stands for the one that is meant.
-/

namespace Rsdns.Plugins

/-! ### Pieces by number -/

/-- The piece of this number, counted from the back, unless it is empty. -/
def pieceFromEnd (rest : Text) (number : Nat) : Option Text :=
  if number ≥ 1 then ((rest.splitOn '.').reverse[number - 1]?).filter fun piece => piece ≠ []
  else none

/-- The number of the piece that the code takes for this one. -/
def foundNumber (rest : Text) (placeholder : UInt32) : Nat :=
  placeholder.toNat + 2 ^ 32 * ((rest.splitOn '.').length / 2 ^ 32)

theorem foundNumber_of_lt {rest : Text} (few : (rest.splitOn '.').length < 2 ^ 32)
    (placeholder : UInt32) : foundNumber rest placeholder = placeholder.toNat := by
  rw [foundNumber, Nat.div_eq_of_lt few, Nat.mul_zero, Nat.add_zero]

theorem pieceFromEnd_eq_none {rest : Text} {number : Nat}
    (far : (rest.splitOn '.').length < number) : pieceFromEnd rest number = none := by
  have outside : (rest.splitOn '.').reverse.length ≤ number - 1 := by
    rw [List.length_reverse]
    omega
  rw [pieceFromEnd, if_pos (by omega), List.getElem?_eq_none outside, Option.filter_none]

/-- A piece of a split has no dot in it, so only the empty ones are refused. -/
theorem filter_splitOn (rest : Text) (position : Nat) :
    ((rest.splitOn '.')[position]?).filter (fun label => label ≠ [] && !label.contains '.') =
      ((rest.splitOn '.')[position]?).filter fun piece => piece ≠ [] := by
  cases found : (rest.splitOn '.')[position]? with
  | none => rfl
  | some piece =>
      have dotless : '.' ∉ piece := LabelKey.not_mem_of_mem_splitOn (List.mem_of_getElem? found)
      simp [Option.filter_some, dotless]

theorem capture_splitOn (rest : Text) (placeholder : UInt32) :
    capture (rest.splitOn '.') placeholder = pieceFromEnd rest (foundNumber rest placeholder) := by
  have nonempty : 0 < (rest.splitOn '.').length :=
    List.length_pos_iff.mpr (List.splitOn_ne_nil '.' rest)
  have divided := Nat.div_add_mod (rest.splitOn '.').length (2 ^ 32)
  unfold capture
  dsimp only
  rw [filter_splitOn]
  by_cases within : placeholder.toNat ≤ (rest.splitOn '.').length % 2 ^ 32
  · rw [if_pos within, pieceFromEnd]
    by_cases zero : foundNumber rest placeholder = 0
    · have outside : (rest.splitOn '.').length ≤
          (rest.splitOn '.').length % 2 ^ 32 - placeholder.toNat := by
        unfold foundNumber at zero
        omega
      rw [if_neg (by omega), List.getElem?_eq_none outside, Option.filter_none]
    · have inRange : foundNumber rest placeholder - 1 < (rest.splitOn '.').length := by
        unfold foundNumber at zero ⊢
        omega
      have position : (rest.splitOn '.').length - 1 - (foundNumber rest placeholder - 1) =
          (rest.splitOn '.').length % 2 ^ 32 - placeholder.toNat := by
        unfold foundNumber at zero inRange ⊢
        omega
      rw [if_pos (by omega), List.getElem?_reverse inRange, position]
  · have far : (rest.splitOn '.').length < foundNumber rest placeholder := by
      unfold foundNumber
      omega
    rw [if_neg within, pieceFromEnd_eq_none far]

/-- The subtraction is only made where it does not go below zero, and what is captured
is read inside the list. -/
theorem capture_in_range {labels : List Text} {placeholder : UInt32} {label : Text}
    (found : capture labels placeholder = some label) :
    placeholder.toNat ≤ labels.length % 2 ^ 32 ∧
      ∃ inside : labels.length % 2 ^ 32 - placeholder.toNat < labels.length,
        labels[labels.length % 2 ^ 32 - placeholder.toNat] = label := by
  obtain ⟨within, atPosition, _⟩ := capture_eq_some_iff.mp found
  exact ⟨within, List.getElem?_eq_some_iff.mp atPosition⟩

/-! ### All placeholders at once -/

theorem mapM_eq_none_iff {Item Result : Type} {read : Item → Option Result} {items : List Item} :
    items.mapM read = none ↔ ∃ item ∈ items, read item = none := by
  constructor
  · intro failed
    by_contra allRead
    simp only [not_exists, not_and, Option.ne_none_iff_exists'] at allRead
    obtain ⟨results, all⟩ := exists_mapM allRead
    cases failed.symm.trans all
  · rintro ⟨item, member, failed⟩
    apply Option.eq_none_iff_forall_ne_some.mpr
    intro results all
    obtain ⟨result, found⟩ := exists_of_mem_mapM all member
    cases failed.symm.trans found

/-- Two readings of a list give the same results exactly if they agree on every item or
each of them fails on one. -/
theorem mapM_eq_mapM_iff {Item Result : Type} {first second : Item → Option Result}
    {items : List Item} :
    items.mapM first = items.mapM second ↔
      (∀ item ∈ items, first item = second item) ∨
        (∃ item ∈ items, first item = none) ∧ ∃ item ∈ items, second item = none := by
  constructor
  · intro same
    cases read : items.mapM first with
    | none =>
        exact .inr ⟨mapM_eq_none_iff.mp read, mapM_eq_none_iff.mp (same.symm.trans read)⟩
    | some results =>
        have readSecond := mapM_eq_some_iff.mp (same.symm.trans read)
        exact .inl (List.map_inj_left.mp ((mapM_eq_some_iff.mp read).trans readSecond.symm))
  · rintro (agree | ⟨failed, failedToo⟩)
    · apply Option.ext
      intro results
      rw [mapM_eq_some_iff, mapM_eq_some_iff, List.map_congr_left agree]
    · rw [mapM_eq_none_iff.mpr failed, mapM_eq_none_iff.mpr failedToo]

/-! ### Exact matching -/

/-- The front of the name, where the suffix and a dot follow it. -/
def IsFront (template : TemplatePattern) (domain rest : Text) : Prop :=
  rest ≠ [] ∧
    Text.trimEndMatches '.' domain = rest ++ '.' :: Text.trimEndMatches '.' template.suffix

theorem IsFront.unique {template : TemplatePattern} {domain first second : Text}
    (isFirst : IsFront template domain first) (isSecond : IsFront template domain second) :
    first = second :=
  List.append_cancel_right (isFirst.2.symm.trans isSecond.2)

/-- A match is a front that has all the pieces, and the captures are these pieces, one
for each placeholder in its place. -/
def MatchesExactly (template : TemplatePattern) (domain : Text) : Prop :=
  ∀ captures, templateMatch template domain = some captures ↔
    ∃ rest, IsFront template domain rest ∧
      (template.placeholders.map fun placeholder => pieceFromEnd rest placeholder.toNat) =
        captures.map some

/-- Every placeholder finds the piece it means, or a piece is missing both ways. -/
def CountsRight (placeholders : List UInt32) (rest : Text) : Prop :=
  (∀ placeholder ∈ placeholders,
    pieceFromEnd rest (foundNumber rest placeholder) = pieceFromEnd rest placeholder.toNat) ∨
  (∃ placeholder ∈ placeholders, pieceFromEnd rest (foundNumber rest placeholder) = none) ∧
    ∃ placeholder ∈ placeholders, pieceFromEnd rest placeholder.toNat = none

theorem countsRight_of_lt (placeholders : List UInt32) {rest : Text}
    (few : (rest.splitOn '.').length < 2 ^ 32) : CountsRight placeholders rest :=
  .inl fun placeholder _ => by rw [foundNumber_of_lt few]

theorem templateMatch_eq_some_iff_isFront {template : TemplatePattern} {domain : Text}
    {captures : List Text} :
    templateMatch template domain = some captures ↔
      ∃ rest, IsFront template domain rest ∧
        template.placeholders.mapM (fun placeholder =>
          pieceFromEnd rest (foundNumber rest placeholder)) = some captures := by
  simp only [templateMatch_eq_some_iff, IsFront, ← capture_splitOn, and_assoc]

theorem matchesExactly_iff_countsRight {template : TemplatePattern} {domain rest : Text}
    (isFront : IsFront template domain rest) :
    MatchesExactly template domain ↔ CountsRight template.placeholders rest := by
  have onlyFront : ∀ holds : Text → Prop,
      (∃ other, IsFront template domain other ∧ holds other) ↔ holds rest := by
    intro holds
    constructor
    · rintro ⟨other, isOther, held⟩
      exact isFront.unique isOther ▸ held
    · exact fun held => ⟨rest, isFront, held⟩
  simp only [MatchesExactly, templateMatch_eq_some_iff_isFront, onlyFront, ← mapM_eq_some_iff]
  rw [CountsRight, ← mapM_eq_mapM_iff]
  exact Option.ext_iff.symm

/-- Matching is exact for a name exactly if its front, when it has one, is counted right.
It is for every front of less than 2^32 pieces. -/
theorem template_match_exact_iff (template : TemplatePattern) (domain : Text) :
    (MatchesExactly template domain ↔
      ∀ rest, IsFront template domain rest → CountsRight template.placeholders rest) ∧
    (∀ rest, IsFront template domain rest → (rest.splitOn '.').length < 2 ^ 32 →
      MatchesExactly template domain) ∧
    ∀ labels placeholder label, capture labels placeholder = some label →
      placeholder.toNat ≤ labels.length % 2 ^ 32 ∧
        ∃ inside : labels.length % 2 ^ 32 - placeholder.toNat < labels.length,
          labels[labels.length % 2 ^ 32 - placeholder.toNat] = label := by
  refine ⟨⟨?_, ?_⟩, ?_, fun _ _ _ => capture_in_range⟩
  · intro exact_ rest isFront
    exact (matchesExactly_iff_countsRight isFront).mp exact_
  · intro counted
    by_cases front : ∃ rest, IsFront template domain rest
    · obtain ⟨rest, isFront⟩ := front
      exact (matchesExactly_iff_countsRight isFront).mpr (counted rest isFront)
    · intro captures
      rw [templateMatch_eq_some_iff_isFront]
      constructor
      · rintro ⟨rest, isFront, _⟩
        exact absurd ⟨rest, isFront⟩ front
      · rintro ⟨rest, isFront, _⟩
        exact absurd ⟨rest, isFront⟩ front
  · intro rest isFront few
    exact (matchesExactly_iff_countsRight isFront).mpr (countsRight_of_lt _ few)

/-! ### As many labels as 32 bits can count, and one more -/

/-- A name of this many labels in front of the suffix. -/
def manyLabels (count : Nat) : Text :=
  (['.'] : Text).intercalate (List.replicate count ['a']) ++ ".x".toList

theorem splitOn_labels {count : Nat} (positive : 0 < count) :
    ((['.'] : Text).intercalate (List.replicate count ['a'])).splitOn '.' =
      List.replicate count ['a'] := by
  apply List.splitOn_intercalate
  · intro label member
    rw [List.eq_of_mem_replicate member]
    decide
  · intro empty
    have length := congrArg List.length empty
    rw [List.length_replicate] at length
    exact positive.ne' length

theorem not_matchesExactly_manyLabels {count : Nat} (positive : 0 < count)
    (wraps : count % 2 ^ 32 = 0) :
    ¬ MatchesExactly { suffix := ['x'], placeholders := [1] } (manyLabels count) := by
  have split := splitOn_labels positive
  have isFront : IsFront { suffix := ['x'], placeholders := [1] } (manyLabels count)
      ((['.'] : Text).intercalate (List.replicate count ['a'])) := by
    constructor
    · apply ne_nil_of_splitOn split
      intro member
      cases List.eq_of_mem_replicate member
    · apply Text.trimEndMatches_eq_self
      rw [manyLabels, List.getLast?_append_of_ne_nil _ (by decide)]
      decide
  rw [matchesExactly_iff_countsRight isFront]
  have meant : pieceFromEnd ((['.'] : Text).intercalate (List.replicate count ['a'])) 1 =
      some ['a'] := by
    simp [pieceFromEnd, split, positive]
  have missed : pieceFromEnd ((['.'] : Text).intercalate (List.replicate count ['a']))
      (foundNumber ((['.'] : Text).intercalate (List.replicate count ['a'])) 1) = none := by
    apply pieceFromEnd_eq_none
    rw [foundNumber, split, List.length_replicate, UInt32.toNat_one]
    omega
  rintro (agree | ⟨_, placeholder, member, absent⟩)
  · have same := agree 1 (List.mem_singleton.mpr rfl)
    rw [missed, UInt32.toNat_one, meant] at same
    cases same
  · rw [List.mem_singleton.mp member, UInt32.toNat_one, meant] at absent
    cases absent

/-- With 2^32 labels in front of the suffix the first of them is not captured. -/
theorem first_of_many_labels_is_missed :
    ¬ MatchesExactly { suffix := ['x'], placeholders := [1] } (manyLabels (2 ^ 32)) :=
  not_matchesExactly_manyLabels (by decide) (by decide)

end Rsdns.Plugins
