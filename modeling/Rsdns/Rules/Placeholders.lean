import Mathlib.Data.List.Nodup
import Rsdns.Plugins.MatchTarget

/-!
# What a placeholder stands for

A template captures one label for each of its placeholders, in the order in which
they are written.  A target then asks for captures by number.  The number is taken
for a position among the placeholders, so it names the label it should exactly where
the placeholder at that position has that number, or captured the same label.
-/

namespace Rsdns.Plugins

/-! ### The pieces of a target -/

/-- A target is literal text and tokens in braces. -/
inductive Piece where
  | literal (text : Text)
  | token (inner : Text)
  deriving DecidableEq

namespace Piece

def number : Piece → Option Nat
  | .literal _ => none
  | .token inner => Text.parseUnsigned (2 ^ 32) inner

def written : Piece → Text
  | .literal text => text
  | .token inner => '{' :: inner ++ ['}']

/-- Put the value of its number in the place of a token that has one. -/
def fill (value : Nat → Option Text) (piece : Piece) : Text :=
  (piece.number.bind value).getD piece.written

theorem fill_literal (value : Nat → Option Text) (text : Text) :
    fill value (.literal text) = text := rfl

theorem fill_token (value : Nat → Option Text) (inner : Text) :
    fill value (.token inner) =
      ((Text.parseUnsigned (2 ^ 32) inner).bind value).getD ('{' :: inner ++ ['}']) := rfl

end Piece

def piecesFrom : Nat → Text → List Piece
  | 0, rest => [.literal rest]
  | fuel + 1, rest =>
      match Text.splitOnce '{' rest with
      | none => [.literal rest]
      | some (literal, after) =>
          match Text.splitOnce '}' after with
          | none => [.literal rest]
          | some (inner, rest) => .literal literal :: .token inner :: piecesFrom fuel rest

def pieces (text : Text) : List Piece := piecesFrom text.length text

/-- The value the code finds for a number among the captures. -/
def captured (captures : List Text) (number : Nat) : Option Text :=
  if number ≥ 1 then captures[number - 1]? else none

theorem substituteFrom_eq_flatMap (captures : List Text) (fuel : Nat) (text : Text) :
    substituteFrom captures fuel text =
      (piecesFrom fuel text).flatMap (Piece.fill (captured captures)) := by
  induction fuel generalizing text with
  | zero => simp [substituteFrom, piecesFrom, Piece.fill_literal]
  | succ fuel inductionHypothesis =>
      unfold substituteFrom piecesFrom
      cases opened : Text.splitOnce '{' text with
      | none => simp [Piece.fill_literal]
      | some found =>
          obtain ⟨literal, after⟩ := found
          cases closed : Text.splitOnce '}' after with
          | none => simp [closed, Piece.fill_literal]
          | some found =>
              obtain ⟨inner, rest⟩ := found
              simp only [closed, List.flatMap_cons, ← inductionHypothesis, Piece.fill_literal,
                Piece.fill_token, List.append_assoc]
              cases Text.parseUnsigned (2 ^ 32) inner <;> rfl

/-- Substitution fills the tokens one by one. -/
theorem substitutePlaceholders_eq_flatMap (target : Text) (captures : List Text) :
    substitutePlaceholders target captures =
      (pieces target).flatMap (Piece.fill (captured captures)) :=
  substituteFrom_eq_flatMap captures target.length target

theorem pieces_token {inner : Text} (open_ : '}' ∉ inner) :
    pieces ('{' :: inner ++ ['}']) = [.literal [], .token inner, .literal []] := by
  have closed : Text.splitOnce '}' (inner ++ ['}']) = some (inner, []) := by
    induction inner with
    | nil => rfl
    | cons char inner inductionHypothesis =>
        have different : char ≠ '}' := fun same => open_ (by simp [same])
        have rest : '}' ∉ inner := fun member => open_ (List.mem_cons_of_mem _ member)
        simp [Text.splitOnce, different, inductionHypothesis rest]
  have opened : Text.splitOnce '{' ('{' :: inner ++ ['}']) = some ([], inner ++ ['}']) := rfl
  obtain ⟨fuel, length⟩ : ∃ fuel, ('{' :: inner ++ ['}']).length = fuel + 2 :=
    ⟨inner.length, by simp⟩
  unfold pieces
  rw [length, piecesFrom, opened]
  simp only [closed]
  rfl

/-! ### Labels and captures -/

def labelsBefore (template : TemplatePattern) (domain : Text) : List Text :=
  let suffix := Text.trimEndMatches '.' template.suffix
  match (Text.stripSuffix suffix (Text.trimEndMatches '.' domain)).bind
      (Text.stripSuffix ['.']) with
  | some rest => (rest.splitOn '.').reverse
  | none => []

/-- The label of this number, the one next to the suffix being the first. -/
def labelNumbered (template : TemplatePattern) (domain : Text) (number : Nat) : Option Text :=
  if number ≥ 1 then (labelsBefore template domain)[number - 1]? else none

theorem labelsBefore_of_whole {template : TemplatePattern} {domain rest : Text}
    (whole : Text.trimEndMatches '.' domain =
      rest ++ '.' :: Text.trimEndMatches '.' template.suffix) :
    labelsBefore template domain = (rest.splitOn '.').reverse := by
  have front : Text.stripSuffix (Text.trimEndMatches '.' template.suffix)
      (Text.trimEndMatches '.' domain) = some (rest ++ ['.']) := by
    rw [Text.stripSuffix_eq_some_iff, whole]
    simp
  have dotless : Text.stripSuffix ['.'] (rest ++ ['.']) = some rest :=
    Text.stripSuffix_eq_some_iff.mpr rfl
  unfold labelsBefore
  dsimp only
  rw [front, Option.bind_some, dotless]

/-- The number the code gives to the label a placeholder names: it counts the labels
in 32 bits. -/
def countedNumber (template : TemplatePattern) (domain : Text) (placeholder : UInt32) : Nat :=
  placeholder.toNat + 2 ^ 32 * ((labelsBefore template domain).length / 2 ^ 32)

theorem capture_eq_some {labels : List Text} {placeholder : UInt32} {label : Text}
    (positive : placeholder ≠ 0) (found : capture labels placeholder = some label) :
    placeholder.toNat ≤ labels.length ∧
      labels.reverse[placeholder.toNat + 2 ^ 32 * (labels.length / 2 ^ 32) - 1]? = some label := by
  obtain ⟨within, atPosition, _⟩ := capture_eq_some_iff.mp found
  have nonzero : placeholder.toNat ≠ 0 := fun zero => positive (UInt32.toNat_inj.mp zero)
  have divided := Nat.div_add_mod labels.length (2 ^ 32)
  refine ⟨by omega, ?_⟩
  rw [List.getElem?_reverse (by omega)]
  convert atPosition using 2
  omega

theorem getElem?_mapM {Item Result : Type} {read : Item → Option Result} {items : List Item}
    {results : List Result} (all : items.mapM read = some results) (position : Nat) :
    results[position]? = (items[position]?).bind read := by
  have here : (items.map read)[position]? = (results.map some)[position]? := by
    rw [mapM_eq_some_iff.mp all]
  rw [List.getElem?_map, List.getElem?_map] at here
  calc results[position]? = (results[position]?.map some).bind id := by
        rw [Option.bind_map]
        exact (Option.bind_fun_some _).symm
    _ = (items[position]?.map read).bind id := by rw [here]
    _ = (items[position]?).bind read := Option.bind_map ..

theorem exists_of_mem_mapM {Item Result : Type} {read : Item → Option Result} {items : List Item}
    {results : List Result} (all : items.mapM read = some results) {item : Item}
    (member : item ∈ items) : ∃ result, read item = some result := by
  have inResults : read item ∈ results.map some := by
    rw [← mapM_eq_some_iff.mp all]
    exact List.mem_map_of_mem member
  obtain ⟨result, _, same⟩ := List.mem_map.mp inResults
  exact ⟨result, same.symm⟩

theorem toNat_ne_zero_of_mem {template : TemplatePattern} (nonzero : 0 ∉ template.placeholders)
    {placeholder : UInt32} (member : placeholder ∈ template.placeholders) :
    placeholder.toNat ≠ 0 := by
  intro zero
  have isZero : placeholder = 0 := UInt32.toNat_inj.mp zero
  exact nonzero (isZero ▸ member)

theorem captured_eq {template : TemplatePattern} {domain : Text} {captures : List Text}
    (nonzero : 0 ∉ template.placeholders)
    (matched : templateMatch template domain = some captures) {number : Nat}
    (positive : 1 ≤ number) :
    captured captures number =
      (template.placeholders[number - 1]?).bind fun other =>
        labelNumbered template domain (countedNumber template domain other) := by
  obtain ⟨rest, _, whole, all⟩ := templateMatch_eq_some_iff.mp matched
  rw [captured, if_pos positive, getElem?_mapM all]
  cases found : template.placeholders[number - 1]? with
  | none => rfl
  | some other =>
      have member := List.mem_of_getElem? found
      have otherNonzero : other ≠ 0 := fun zero => nonzero (zero ▸ member)
      obtain ⟨label, isLabel⟩ := exists_of_mem_mapM all member
      have named := (capture_eq_some otherNonzero isLabel).2
      have otherPositive := toNat_ne_zero_of_mem nonzero member
      rw [Option.bind_some, Option.bind_some, isLabel, labelNumbered, countedNumber,
        labelsBefore_of_whole whole, List.length_reverse, if_pos (by omega), named]

theorem labelNumbered_isSome {template : TemplatePattern} {domain : Text} {captures : List Text}
    (nonzero : 0 ∉ template.placeholders)
    (matched : templateMatch template domain = some captures) {placeholder : UInt32}
    (member : placeholder ∈ template.placeholders) :
    ∃ label, labelNumbered template domain placeholder.toNat = some label := by
  obtain ⟨rest, _, whole, all⟩ := templateMatch_eq_some_iff.mp matched
  have positive : placeholder ≠ 0 := fun zero => nonzero (zero ▸ member)
  have notZero := toNat_ne_zero_of_mem nonzero member
  obtain ⟨label, isLabel⟩ := exists_of_mem_mapM all member
  have within := (capture_eq_some positive isLabel).1
  have inRange : placeholder.toNat - 1 < (rest.splitOn '.').reverse.length := by
    rw [List.length_reverse]
    omega
  rw [labelNumbered, if_pos (by omega), labelsBefore_of_whole whole]
  exact ⟨_, List.getElem?_eq_getElem inRange⟩

/-! ### Substitution by number -/

/-- Every number in the target is one of a placeholder. -/
def RefersTo (template : TemplatePattern) (target : Text) : Prop :=
  ∀ piece ∈ pieces target, ∀ number, piece.number = some number →
    UInt32.ofNat number ∈ template.placeholders

/-- Every target that refers to the placeholders gets for each number the label of
that number. -/
def SubstitutesLabels (template : TemplatePattern) (domain : Text) (captures : List Text) : Prop :=
  ∀ target, RefersTo template target →
    substitutePlaceholders target captures =
      (pieces target).flatMap (Piece.fill (labelNumbered template domain))

/-- The placeholder at the position of this number names the label of this number. -/
def PositionNames (template : TemplatePattern) (domain : Text) (number : UInt32) : Prop :=
  ∃ other, template.placeholders[number.toNat - 1]? = some other ∧
    labelNumbered template domain (countedNumber template domain other) =
      labelNumbered template domain number.toNat

theorem number_lt {piece : Piece} {number : Nat} (numbered : piece.number = some number) :
    number < 2 ^ 32 := by
  cases piece with
  | literal text => cases numbered
  | token inner => exact Text.parseUnsigned_lt numbered

/-- Where every number used names its own label, substitution is by number. -/
theorem substitute_of_positionNames {template : TemplatePattern} {domain target : Text}
    {captures : List Text} (nonzero : 0 ∉ template.placeholders)
    (matched : templateMatch template domain = some captures)
    (names : ∀ piece ∈ pieces target, ∀ number, piece.number = some number →
      number ≠ 0 ∧ PositionNames template domain (UInt32.ofNat number)) :
    substitutePlaceholders target captures =
      (pieces target).flatMap (Piece.fill (labelNumbered template domain)) := by
  rw [substitutePlaceholders_eq_flatMap]
  refine List.flatMap_congr fun piece member => ?_
  unfold Piece.fill
  cases numbered : piece.number with
  | none => rfl
  | some number =>
      obtain ⟨notZero, other, found, same⟩ := names piece member number numbered
      have small : (UInt32.ofNat number).toNat = number :=
        UInt32.toNat_ofNat_of_lt' (number_lt numbered)
      rw [small] at found same
      rw [Option.bind_some, Option.bind_some, captured_eq nonzero matched (by omega), found,
        Option.bind_some, same]

/-! ### Exactly when -/

theorem parseUnsigned_zero_cons {bound number : Nat} (small : number < bound) :
    Text.parseUnsigned bound ('0' :: Text.ofNat number) = some number := by
  have allDigits : ∀ char ∈ '0' :: Text.ofNat number, char.isDigit = true :=
    List.forall_mem_cons.mpr ⟨by decide, fun _ => Text.isDigit_of_mem_ofNat⟩
  have value : Nat.ofDigitChars 10 ('0' :: Text.ofNat number) 0 = number :=
    Nat.ofDigitChars_ten_toDigits
  exact Text.parseUnsigned_eq_some_iff.mpr
    ⟨_, .inl rfl, List.cons_ne_nil _ _, allDigits, value, small⟩

theorem closingBrace_not_mem_ofNat (number : Nat) : '}' ∉ Text.ofNat number := by
  intro member
  exact absurd (Text.isDigit_of_mem_ofNat member) (by decide)

theorem SubstitutesLabels.token {template : TemplatePattern} {domain : Text}
    {captures : List Text} (substitutes : SubstitutesLabels template domain captures)
    {placeholder : UInt32} (member : placeholder ∈ template.placeholders) (inner : Text)
    (open_ : '}' ∉ inner) (numbered : Text.parseUnsigned (2 ^ 32) inner = some placeholder.toNat) :
    (captured captures placeholder.toNat).getD ('{' :: inner ++ ['}']) =
      (labelNumbered template domain placeholder.toNat).getD ('{' :: inner ++ ['}']) := by
  have refers : RefersTo template ('{' :: inner ++ ['}']) := by
    intro piece inPieces number isNumber
    rw [pieces_token open_] at inPieces
    simp only [List.mem_cons, List.not_mem_nil, or_false] at inPieces
    rcases inPieces with rfl | rfl | rfl
    · cases isNumber
    · rw [Piece.number, numbered, Option.some.injEq] at isNumber
      rwa [← isNumber, UInt32.ofNat_toNat]
    · cases isNumber
  have filled := substitutes _ refers
  rw [substitutePlaceholders_eq_flatMap, pieces_token open_] at filled
  simpa only [List.flatMap_cons, List.flatMap_nil, Piece.fill_literal, Piece.fill_token, numbered,
    Option.bind_some, List.nil_append, List.append_nil] using filled

theorem positionNames_of_substitutesLabels {template : TemplatePattern} {domain : Text}
    {captures : List Text} (nonzero : 0 ∉ template.placeholders)
    (matched : templateMatch template domain = some captures)
    (substitutes : SubstitutesLabels template domain captures) {placeholder : UInt32}
    (member : placeholder ∈ template.placeholders) :
    PositionNames template domain placeholder := by
  have positive := toNat_ne_zero_of_mem nonzero member
  obtain ⟨label, isLabel⟩ := labelNumbered_isSome nonzero matched member
  have plain := substitutes.token member _ (closingBrace_not_mem_ofNat placeholder.toNat)
    (Text.parseUnsigned_ofNat placeholder.toNat_lt)
  have padded := substitutes.token member ('0' :: Text.ofNat placeholder.toNat)
    (by simp [closingBrace_not_mem_ofNat placeholder.toNat])
    (parseUnsigned_zero_cons placeholder.toNat_lt)
  rw [isLabel, Option.getD_some] at plain padded
  rw [captured_eq nonzero matched (by omega)] at plain padded
  cases value : (template.placeholders[placeholder.toNat - 1]?).bind fun other =>
      labelNumbered template domain (countedNumber template domain other) with
  | none =>
      -- Left as they stand, two spellings of one number cannot both be the label.
      rw [value] at plain padded
      have lengths := congrArg List.length (plain.trans padded.symm)
      simp at lengths
  | some named =>
      rw [value, Option.getD_some] at plain
      obtain ⟨other, found, isNamed⟩ := Option.bind_eq_some_iff.mp value
      exact ⟨other, found, by rw [isNamed, isLabel, plain]⟩

/-- For a template and a name it matches, substitution is by number exactly if the
position of every placeholder's number holds one that names the same label. -/
theorem substitutesLabels_iff {template : TemplatePattern} {domain : Text} {captures : List Text}
    (nonzero : 0 ∉ template.placeholders)
    (matched : templateMatch template domain = some captures) :
    SubstitutesLabels template domain captures ↔
      ∀ placeholder ∈ template.placeholders, PositionNames template domain placeholder := by
  constructor
  · intro substitutes placeholder member
    exact positionNames_of_substitutesLabels nonzero matched substitutes member
  · intro names target refers
    apply substitute_of_positionNames nonzero matched
    intro piece inPieces number numbered
    have member := refers piece inPieces number numbered
    refine ⟨?_, names _ member⟩
    rintro rfl
    exact nonzero member

/-! ### Names with many labels -/

theorem exists_mapM {Item Result : Type} {read : Item → Option Result} {items : List Item}
    (all : ∀ item ∈ items, ∃ result, read item = some result) :
    ∃ results, items.mapM read = some results := by
  induction items with
  | nil => exact ⟨[], rfl⟩
  | cons item items inductionHypothesis =>
      obtain ⟨⟨result, first⟩, others⟩ := List.forall_mem_cons.mp all
      obtain ⟨results, rest⟩ := inductionHypothesis others
      refine ⟨result :: results, ?_⟩
      rw [List.mapM_cons, first, rest]
      rfl

theorem ofNat_injective : Function.Injective Text.ofNat := by
  intro first second same
  have values := congrArg (fun digits => Nat.ofDigitChars 10 digits 0) same
  exact Nat.ofDigitChars_ten_toDigits.symm.trans (values.trans Nat.ofDigitChars_ten_toDigits)

theorem ne_nil_of_splitOn {rest : Text} {labels : List Text} (split : rest.splitOn '.' = labels)
    (nonempty : [] ∉ labels) : rest ≠ [] := by
  rintro rfl
  apply nonempty
  rw [← split]
  exact List.mem_singleton.mpr rfl

/-- Every accepted template matches a name whose labels are all different. -/
theorem exists_distinct_labels {template : TemplatePattern} (nonzero : 0 ∉ template.placeholders)
    (valid : validateDomain template.suffix = some template.suffix) :
    ∃ domain captures, templateMatch template domain = some captures ∧
      (labelsBefore template domain).length < 2 ^ 32 ∧ (labelsBefore template domain).Nodup := by
  obtain ⟨nonempty, _, last⟩ := validateDomain_ends valid
  obtain ⟨count, isCount⟩ : ∃ count, count = 2 ^ 32 - 1 := ⟨_, rfl⟩
  have labels : ∀ label ∈ (List.range count).map Text.ofNat, label ≠ [] ∧ '.' ∉ label := by
    intro label member
    obtain ⟨number, _, rfl⟩ := List.mem_map.mp member
    refine ⟨Text.ofNat_ne_nil number, fun inside => ?_⟩
    exact absurd (Text.isDigit_of_mem_ofNat inside) (by decide)
  have split : ((['.'] : Text).intercalate ((List.range count).map Text.ofNat)).splitOn '.' =
      (List.range count).map Text.ofNat := by
    apply List.splitOn_intercalate
    · exact fun label member => (labels label member).2
    · intro empty
      have length := congrArg List.length empty
      simp only [List.length_map, List.length_range, List.length_nil] at length
      omega
  have whole : Text.trimEndMatches '.'
      ((['.'] : Text).intercalate ((List.range count).map Text.ofNat) ++ '.' :: template.suffix) =
      (['.'] : Text).intercalate ((List.range count).map Text.ofNat) ++
        '.' :: Text.trimEndMatches '.' template.suffix := by
    rw [Text.trimEndMatches_eq_self last]
    apply Text.trimEndMatches_eq_self
    rw [List.append_cons, List.getLast?_append_of_ne_nil _ nonempty]
    exact last
  have all : ∀ placeholder ∈ template.placeholders, ∃ label,
      capture ((List.range count).map Text.ofNat) placeholder = some label := by
    intro placeholder member
    have positive := toNat_ne_zero_of_mem nonzero member
    have small := placeholder.toNat_lt
    have inRange : count - placeholder.toNat < count := by omega
    have good := labels _ (List.mem_map_of_mem (List.mem_range.mpr inRange))
    refine ⟨Text.ofNat (count - placeholder.toNat), capture_eq_some_iff.mpr ?_⟩
    rw [List.length_map, List.length_range, Nat.mod_eq_of_lt (by omega), List.getElem?_map,
      List.getElem?_range inRange]
    exact ⟨by omega, rfl, good⟩
  obtain ⟨captures, captured⟩ := exists_mapM all
  rw [← split] at captured
  have nonemptyRest : (['.'] : Text).intercalate ((List.range count).map Text.ofNat) ≠ [] :=
    ne_nil_of_splitOn split fun member => (labels [] member).1 rfl
  refine ⟨_, captures, templateMatch_eq_some_iff.mpr ⟨_, nonemptyRest, whole, captured⟩, ?_⟩
  rw [labelsBefore_of_whole whole, split, List.length_reverse, List.length_map, List.length_range,
    List.nodup_reverse]
  exact ⟨by omega, List.nodup_range.map ofNat_injective⟩

theorem countedNumber_of_lt {template : TemplatePattern} {domain : Text}
    (few : (labelsBefore template domain).length < 2 ^ 32) (placeholder : UInt32) :
    countedNumber template domain placeholder = placeholder.toNat := by
  rw [countedNumber, Nat.div_eq_of_lt few, Nat.mul_zero, Nat.add_zero]

theorem eq_of_positionNames {template : TemplatePattern} {domain : Text} {captures : List Text}
    (nonzero : 0 ∉ template.placeholders)
    (matched : templateMatch template domain = some captures)
    (few : (labelsBefore template domain).length < 2 ^ 32)
    (distinct : (labelsBefore template domain).Nodup) {placeholder : UInt32}
    (member : placeholder ∈ template.placeholders)
    (names : PositionNames template domain placeholder) :
    template.placeholders[placeholder.toNat - 1]? = some placeholder := by
  have positive : ∀ other ∈ template.placeholders, other.toNat ≠ 0 := by
    intro other inPlaceholders zero
    have isZero : other = 0 := UInt32.toNat_inj.mp zero
    exact nonzero (isZero ▸ inPlaceholders)
  obtain ⟨other, found, same⟩ := names
  have otherPositive := positive other (List.mem_of_getElem? found)
  have ownPositive := positive placeholder member
  obtain ⟨label, isLabel⟩ := labelNumbered_isSome nonzero matched member
  rw [countedNumber_of_lt few, isLabel] at same
  rw [labelNumbered, if_pos (by omega)] at same isLabel
  obtain ⟨inRange, _⟩ := List.getElem?_eq_some_iff.mp same
  have positions := (List.getElem?_inj inRange distinct).mp (same.trans isLabel.symm)
  have equal : other = placeholder := UInt32.toNat_inj.mp (by omega)
  rw [found, equal]

/-- Substitution is by number for a name exactly if the placeholder at the position of
each number names the label of that number, and for every name exactly if that
placeholder is the number itself. -/
theorem placeholder_numbering_iff {text : Text} {template : TemplatePattern}
    (parsed : parseTemplate text = .ok template) :
    (∀ domain captures, templateMatch template domain = some captures →
      (SubstitutesLabels template domain captures ↔
        ∀ placeholder ∈ template.placeholders, PositionNames template domain placeholder)) ∧
    ((∀ domain captures, templateMatch template domain = some captures →
        (labelsBefore template domain).length < 2 ^ 32 →
        SubstitutesLabels template domain captures) ↔
      ∀ placeholder ∈ template.placeholders,
        template.placeholders[placeholder.toNat - 1]? = some placeholder) := by
  obtain ⟨_, nonzero, valid⟩ := parseTemplate_valid parsed
  refine ⟨fun domain captures matched => substitutesLabels_iff nonzero matched, ?_, ?_⟩
  · intro always placeholder member
    obtain ⟨domain, captures, matched, few, distinct⟩ := exists_distinct_labels nonzero valid
    have names := (substitutesLabels_iff nonzero matched).mp (always domain captures matched few)
    exact eq_of_positionNames nonzero matched few distinct member (names placeholder member)
  · intro own domain captures matched few
    refine (substitutesLabels_iff nonzero matched).mpr fun placeholder member => ?_
    exact ⟨placeholder, own placeholder member, by rw [countedNumber_of_lt few]⟩

theorem placeholder_numbering_iff_of_two :
    let template : TemplatePattern := { suffix := "x.y".toList, placeholders := [1, 2] }
    parseTemplate "{1}.{2}.x.y".toList = .ok template ∧
    (∀ domain captures, templateMatch template domain = some captures →
      (SubstitutesLabels template domain captures ↔
        ∀ placeholder ∈ template.placeholders, PositionNames template domain placeholder)) ∧
    ((∀ domain captures, templateMatch template domain = some captures →
        (labelsBefore template domain).length < 2 ^ 32 →
        SubstitutesLabels template domain captures) ↔
      ∀ placeholder ∈ template.placeholders,
        template.placeholders[placeholder.toNat - 1]? = some placeholder) := by
  intro template
  have parsed : parseTemplate "{1}.{2}.x.y".toList = .ok template := by decide
  exact ⟨parsed, placeholder_numbering_iff parsed⟩

/-- A second label is captured and asked for, and left in braces. -/
theorem second_label_is_not_substituted :
    let template : TemplatePattern := { suffix := "example.com".toList, placeholders := [2] }
    parseTemplate "{2}.example.com".toList = .ok template ∧
      templateMatch template "a.b.example.com".toList = some ["a".toList] ∧
      ¬ SubstitutesLabels template "a.b.example.com".toList ["a".toList] := by
  refine ⟨by decide, by decide, fun substitutes => ?_⟩
  have refers : RefersTo { suffix := "example.com".toList, placeholders := [2] }
      "{2}".toList := by
    intro piece member number numbered
    rw [show pieces "{2}".toList = [.literal [], .token ['2'], .literal []] by decide] at member
    simp only [List.mem_cons, List.not_mem_nil, or_false] at member
    rcases member with rfl | rfl | rfl
    · cases numbered
    · have isTwo : Piece.number (.token ['2']) = some 2 := by decide
      rw [isTwo, Option.some.injEq] at numbered
      subst numbered
      decide
    · cases numbered
  have filled := substitutes "{2}".toList refers
  revert filled
  decide

end Rsdns.Plugins
