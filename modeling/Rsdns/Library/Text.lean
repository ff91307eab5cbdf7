import Mathlib.Algebra.Ring.Nat
import Mathlib.Data.List.DropRight
import Mathlib.Data.List.Basic

/-!
# Text

Text is its list of characters.  The operations are those of a Unicode string
library: trimming, splitting, prefixes and suffixes, ASCII letter case, the
length in UTF-8 bytes and the reading and writing of decimal numbers.
-/

def usizeBound : Nat := 2 ^ 64

abbrev Text := List Char

namespace Text

def byteLen (text : Text) : Nat := (text.map Char.utf8Size).sum

theorem byteLen_of_ascii {text : Text} (ascii : ∀ char ∈ text, char.toNat < 128) :
    byteLen text = text.length := by
  induction text with
  | nil => rfl
  | cons char text inductionHypothesis =>
      obtain ⟨first, rest⟩ := List.forall_mem_cons.mp ascii
      have narrow : char.val ≤ 0x7f := UInt32.le_iff_toNat_le.mpr (Nat.le_of_lt_succ first)
      have one : char.utf8Size = 1 := if_pos narrow
      have others := inductionHypothesis rest
      rw [byteLen] at others
      rw [byteLen, List.map_cons, List.sum_cons, one, others, List.length_cons, Nat.add_comm]

theorem byteLen_perm {first second : Text} (permuted : first.Perm second) :
    first.byteLen = second.byteLen :=
  (permuted.map Char.utf8Size).sum_nat

def toAsciiLowercase (text : Text) : Text := text.map Char.toLower

def trimEndMatches (mark : Char) (text : Text) : Text :=
  text.rdropWhile (· == mark)

def trimMatches (mark : Char) (text : Text) : Text :=
  trimEndMatches mark (text.dropWhile (· == mark))

def stripPrefix (front text : Text) : Option Text := front.isPrefixOf? text

def stripSuffix (back text : Text) : Option Text := back.isSuffixOf? text

/-- The white space of Unicode's `White_Space` property. -/
def isWhitespace (char : Char) : Bool :=
  let code := char.toNat
  (9 ≤ code && code ≤ 13) || code == 0x20 || code == 0x85 || code == 0xA0 ||
    code == 0x1680 || (0x2000 ≤ code && code ≤ 0x200A) || code == 0x2028 ||
    code == 0x2029 || code == 0x202F || code == 0x205F || code == 0x3000

def trim (text : Text) : Text := (text.dropWhile isWhitespace).rdropWhile isWhitespace

/-- The maximal pieces without white space. -/
def splitWhitespace (text : Text) : List Text :=
  (text.splitOnP isWhitespace).filter (· ≠ [])

def splitOnce (mark : Char) : Text → Option (Text × Text)
  | [] => none
  | char :: rest =>
      if char == mark then some ([], rest)
      else (splitOnce mark rest).map fun pieces => (char :: pieces.1, pieces.2)

def rsplitOnce (mark : Char) (text : Text) : Option (Text × Text) :=
  (splitOnce mark text.reverse).map fun (back, front) => (front.reverse, back.reverse)

/-- The lines of a text.  A carriage return before a line end belongs to it; what
follows the last line end is a line unless it is empty. -/
def lines (text : Text) : List Text :=
  let pieces := text.splitOn '\n'
  let ended := pieces.dropLast.map fun line =>
    if line.getLast? = some '\r' then line.dropLast else line
  match pieces.getLast? with
  | some (char :: rest) => ended ++ [char :: rest]
  | _ => ended

/-- Read an unsigned decimal number below `bound`, with an optional `+`. -/
def parseUnsigned (bound : Nat) (text : Text) : Option Nat :=
  let digits := match text with
    | '+' :: rest => rest
    | _ => text
  if digits ≠ [] ∧ digits.all Char.isDigit = true ∧ Nat.ofDigitChars 10 digits 0 < bound then
    some (Nat.ofDigitChars 10 digits 0)
  else
    none

def ofNat (number : Nat) : Text := Nat.toDigits 10 number

theorem ofNat_ne_nil (number : Nat) : ofNat number ≠ [] :=
  Nat.toDigits_ne_nil

theorem isDigit_of_mem_ofNat {number : Nat} {char : Char} (member : char ∈ ofNat number) :
    char.isDigit = true :=
  Nat.isDigit_of_mem_toDigits (by decide) (by decide) member

theorem parseUnsigned_eq_some_iff {bound number : Nat} {text : Text} :
    parseUnsigned bound text = some number ↔
      ∃ digits, (text = digits ∨ text = '+' :: digits) ∧ digits ≠ [] ∧
        (∀ char ∈ digits, char.isDigit = true) ∧
        Nat.ofDigitChars 10 digits 0 = number ∧ number < bound := by
  have unsigned : ∀ digits : Text, (∀ char ∈ digits, char.isDigit = true) →
      (match digits with | '+' :: rest => rest | _ => digits) = digits := by
    intro digits allDigits
    split
    · next rest => exact absurd (allDigits '+' List.mem_cons_self) (by decide)
    · rfl
  unfold parseUnsigned
  dsimp only
  rw [Option.ite_none_right_eq_some, Option.some.injEq, List.all_eq_true]
  constructor
  · rintro ⟨⟨nonempty, allDigits, small⟩, rfl⟩
    refine ⟨_, ?_, nonempty, allDigits, rfl, small⟩
    split
    · exact .inr rfl
    · exact .inl rfl
  · rintro ⟨digits, rfl | rfl, nonempty, allDigits, rfl, small⟩
    · rw [unsigned text allDigits]
      exact ⟨⟨nonempty, allDigits, small⟩, rfl⟩
    · exact ⟨⟨nonempty, allDigits, small⟩, rfl⟩

@[simp]
theorem parseUnsigned_ofNat {bound number : Nat} (small : number < bound) :
    parseUnsigned bound (ofNat number) = some number :=
  parseUnsigned_eq_some_iff.mpr ⟨ofNat number, .inl rfl, ofNat_ne_nil number,
    fun _ => isDigit_of_mem_ofNat, Nat.ofDigitChars_ten_toDigits, small⟩

theorem parseUnsigned_lt {bound number : Nat} {text : Text}
    (parsed : parseUnsigned bound text = some number) : number < bound := by
  obtain ⟨_, _, _, _, _, small⟩ := parseUnsigned_eq_some_iff.mp parsed
  exact small

/-! ### Trimming -/

theorem trimEndMatches_getLast?_ne (mark : Char) (text : Text) :
    (trimEndMatches mark text).getLast? ≠ some mark := by
  intro last
  have nonempty : trimEndMatches mark text ≠ [] := by
    intro empty
    simp [empty] at last
  have notMark := List.rdropWhile_last_not (· == mark) text nonempty
  rw [List.getLast?_eq_some_getLast nonempty, Option.some.injEq] at last
  exact notMark (by simpa [trimEndMatches] using last)

theorem trimEndMatches_eq_self {mark : Char} {text : Text}
    (last : text.getLast? ≠ some mark) : trimEndMatches mark text = text := by
  rw [trimEndMatches, List.rdropWhile_eq_self_iff]
  intro nonempty isMark
  apply last
  rw [List.getLast?_eq_some_getLast nonempty]
  simpa using isMark

@[simp]
theorem trimEndMatches_trimEndMatches (mark : Char) (text : Text) :
    trimEndMatches mark (trimEndMatches mark text) = trimEndMatches mark text :=
  trimEndMatches_eq_self (trimEndMatches_getLast?_ne mark text)

theorem trimMatches_getLast?_ne (mark : Char) (text : Text) :
    (trimMatches mark text).getLast? ≠ some mark :=
  trimEndMatches_getLast?_ne mark _

theorem dropWhile_head?_ne (mark : Char) (text : Text) :
    (text.dropWhile (· == mark)).head? ≠ some mark := by
  intro head
  have condition := List.head?_dropWhile_not (· == mark) text
  rw [head] at condition
  simp at condition

theorem trimMatches_head?_ne (mark : Char) (text : Text) :
    (trimMatches mark text).head? ≠ some mark := by
  intro head
  have isFront : trimMatches mark text <+: text.dropWhile (· == mark) :=
    List.rdropWhile_prefix (· == mark) _
  rcases isFront with ⟨rest, whole⟩
  apply dropWhile_head?_ne mark text
  rw [← whole, List.head?_append, head]
  rfl

theorem trimMatches_eq_self {mark : Char} {text : Text}
    (first : text.head? ≠ some mark) (last : text.getLast? ≠ some mark) :
    trimMatches mark text = text := by
  have front : text.dropWhile (· == mark) = text := by
    cases text with
    | nil => rfl
    | cons char rest =>
        have different : char ≠ mark := by simpa using first
        simp [different]
  rw [trimMatches, front, trimEndMatches_eq_self last]

@[simp]
theorem trimMatches_trimMatches (mark : Char) (text : Text) :
    trimMatches mark (trimMatches mark text) = trimMatches mark text :=
  trimMatches_eq_self (trimMatches_head?_ne mark text) (trimMatches_getLast?_ne mark text)

theorem trimMatches_subset (mark : Char) (text : Text) : trimMatches mark text ⊆ text := by
  intro char member
  have inFront : char ∈ text.dropWhile (· == mark) :=
    (List.rdropWhile_prefix (· == mark) _).subset member
  exact (List.dropWhile_suffix (· == mark)).subset inFront

theorem trimMatches_eq_dropWhile (mark : Char) (text : Text) :
    trimMatches mark text = (trimEndMatches mark text).dropWhile (· == mark) := by
  induction text using List.reverseRecOn with
  | nil => rfl
  | append_singleton text char inductionHypothesis =>
      by_cases isMark : char = mark
      · subst isMark
        have shorter : trimEndMatches char (text ++ [char]) = trimEndMatches char text :=
          List.rdropWhile_concat_pos (· == char) text char (beq_self_eq_true char)
        have trimmed : trimMatches char (text ++ [char]) = trimMatches char text := by
          unfold trimMatches
          rw [List.dropWhile_append]
          split
          · next empty =>
              rw [List.isEmpty_iff.mp empty]
              simp [trimEndMatches]
          · exact List.rdropWhile_concat_pos (· == char) _ char (beq_self_eq_true char)
        rw [trimmed, shorter, inductionHypothesis]
      · have kept : trimEndMatches mark (text ++ [char]) = text ++ [char] :=
          trimEndMatches_eq_self (by simpa using isMark)
        have last : ((text ++ [char]).dropWhile (· == mark)).getLast? ≠ some mark := by
          rw [List.dropWhile_append]
          split <;> simp [isMark]
        rw [trimMatches, trimEndMatches_eq_self last, kept]

/-! ### Ends of a text -/

theorem stripPrefix_eq_some_iff {front text rest : Text} :
    stripPrefix front text = some rest ↔ text = front ++ rest := by
  unfold stripPrefix
  induction front generalizing text with
  | nil => simp [List.isPrefixOf?, eq_comm]
  | cons char front inductionHypothesis =>
      cases text with
      | nil => simp [List.isPrefixOf?]
      | cons first text =>
          by_cases same : char = first
          · simp [List.isPrefixOf?, same, inductionHypothesis]
          · simp [List.isPrefixOf?, same, Ne.symm same]

theorem stripSuffix_eq_some_iff {back text rest : Text} :
    stripSuffix back text = some rest ↔ text = rest ++ back := by
  have reversed := @stripPrefix_eq_some_iff back.reverse text.reverse rest.reverse
  rw [← List.reverse_append, List.reverse_inj] at reversed
  rw [← reversed]
  unfold stripSuffix stripPrefix List.isSuffixOf?
  rw [Option.map_eq_some_iff]
  constructor
  · rintro ⟨other, found, rfl⟩
    rw [found, List.reverse_reverse]
  · intro found
    exact ⟨rest.reverse, found, List.reverse_reverse rest⟩

/-! ### Cutting at a mark -/

theorem splitOnce_append {mark : Char} {front : Text} (absent : mark ∉ front) (back : Text) :
    splitOnce mark (front ++ mark :: back) = some (front, back) := by
  induction front with
  | nil => simp [splitOnce]
  | cons char front inductionHypothesis =>
      have different : char ≠ mark := fun same => absent (by simp [same])
      have notFront : mark ∉ front := fun member => absent (List.mem_cons_of_mem _ member)
      simp [splitOnce, different, inductionHypothesis notFront]

theorem splitOnce_eq_some_iff {mark : Char} {text front back : Text} :
    splitOnce mark text = some (front, back) ↔ mark ∉ front ∧ text = front ++ mark :: back := by
  constructor
  · intro cut
    induction text generalizing front with
    | nil => cases cut
    | cons char rest inductionHypothesis =>
        unfold splitOnce at cut
        split at cut
        · next same =>
            cases cut
            exact ⟨List.not_mem_nil, by rw [beq_iff_eq.mp same, List.nil_append]⟩
        · next different =>
            obtain ⟨⟨first, second⟩, later, same⟩ := Option.map_eq_some_iff.mp cut
            cases same
            obtain ⟨notRest, rfl⟩ := inductionHypothesis later
            simp only [beq_iff_eq] at different
            simp [notRest, Ne.symm different]
  · rintro ⟨absent, rfl⟩
    exact splitOnce_append absent back

theorem splitOnce_eq_none_iff {mark : Char} {text : Text} :
    splitOnce mark text = none ↔ mark ∉ text := by
  constructor
  · intro uncut member
    obtain ⟨front, back, rfl, absent⟩ := List.eq_append_cons_of_mem member
    rw [splitOnce_append absent] at uncut
    cases uncut
  · intro absent
    apply Option.eq_none_iff_forall_ne_some.mpr
    rintro ⟨front, back⟩ cut
    obtain ⟨_, rfl⟩ := splitOnce_eq_some_iff.mp cut
    exact absent (by simp)

theorem rsplitOnce_eq_some_iff {mark : Char} {text front back : Text} :
    rsplitOnce mark text = some (front, back) ↔ mark ∉ back ∧ text = front ++ mark :: back := by
  have whole : text.reverse = back.reverse ++ mark :: front.reverse ↔
      text = front ++ mark :: back := by
    rw [List.reverse_eq_iff]
    simp
  rw [rsplitOnce, Option.map_eq_some_iff, ← whole, ← List.mem_reverse, ← splitOnce_eq_some_iff]
  constructor
  · rintro ⟨⟨last, first⟩, cut, same⟩
    cases same
    rwa [List.reverse_reverse, List.reverse_reverse]
  · intro cut
    exact ⟨_, cut, by simp⟩

theorem rsplitOnce_eq_none_iff {mark : Char} {text : Text} :
    rsplitOnce mark text = none ↔ mark ∉ text := by
  rw [rsplitOnce, Option.map_eq_none_iff, splitOnce_eq_none_iff, List.mem_reverse]

theorem lines_of_not_mem {text : Text} (nonempty : text ≠ []) (uncut : '\n' ∉ text) :
    lines text = [text] := by
  unfold lines
  rw [List.splitOn_eq_singleton uncut]
  cases text with
  | nil => exact absurd rfl nonempty
  | cons char rest => rfl

theorem trim_subset (text : Text) : trim text ⊆ text := by
  intro char member
  exact (List.dropWhile_suffix _).subset ((List.rdropWhile_prefix _ _).subset member)

theorem trim_eq_self {text : Text} (first : ∀ char ∈ text.head?, isWhitespace char = false)
    (last : ∀ char ∈ text.getLast?, isWhitespace char = false) : trim text = text := by
  have front : text.dropWhile isWhitespace = text := by
    cases text with
    | nil => rfl
    | cons char rest =>
        apply List.dropWhile_cons_of_neg
        simp [first char rfl]
  unfold trim
  rw [front, List.rdropWhile_eq_self_iff]
  intro nonempty
  rw [last _ (List.getLast?_eq_some_getLast nonempty)]
  exact Bool.false_ne_true

theorem isWhitespace_getLast?_trim {text : Text} {char : Char}
    (last : char ∈ (trim text).getLast?) : isWhitespace char = false := by
  have nonempty : trim text ≠ [] := by
    intro empty
    simp [empty] at last
  have notWhite := List.rdropWhile_last_not isWhitespace (text.dropWhile isWhitespace) nonempty
  rw [List.getLast?_eq_some_getLast nonempty, Option.mem_some_iff] at last
  have isLast : ((text.dropWhile isWhitespace).rdropWhile isWhitespace).getLast nonempty = char :=
    last
  rw [isLast] at notWhite
  simpa using notWhite

/-! ### Letter case -/

def IsLower (text : Text) : Prop := toAsciiLowercase text = text

instance (text : Text) : Decidable (IsLower text) :=
  inferInstanceAs (Decidable (toAsciiLowercase text = text))

theorem isLower_iff {text : Text} : IsLower text ↔ ∀ char ∈ text, char.toLower = char := by
  unfold IsLower toAsciiLowercase
  constructor
  · intro lower
    exact List.map_inj_left.mp (lower.trans (List.map_id text).symm)
  · intro lower
    exact (List.map_congr_left lower).trans (List.map_id text)

theorem IsLower.of_subset {text part : Text} (lower : IsLower text) (inside : part ⊆ text) :
    IsLower part :=
  isLower_iff.mpr fun char member => isLower_iff.mp lower char (inside member)

theorem isUpper_iff_toNat (char : Char) :
    char.isUpper = true ↔ 65 ≤ char.toNat ∧ char.toNat ≤ 90 := by
  change decide (65 ≤ char.val ∧ char.val ≤ 90) = true ↔ _
  simp [UInt32.le_iff_toNat_le]

theorem isLower_iff_toNat (char : Char) :
    char.isLower = true ↔ 97 ≤ char.toNat ∧ char.toNat ≤ 122 := by
  change (decide (97 ≤ char.val) && decide (char.val ≤ 122)) = true ↔ _
  simp [UInt32.le_iff_toNat_le]

theorem isDigit_iff_toNat (char : Char) :
    char.isDigit = true ↔ 48 ≤ char.toNat ∧ char.toNat ≤ 57 := by
  change (decide (48 ≤ char.val) && decide (char.val ≤ 57)) = true ↔ _
  simp [UInt32.le_iff_toNat_le]

theorem isAlpha_eq (char : Char) : char.isAlpha = (char.isUpper || char.isLower) := rfl

theorem isAlphanum_iff_toNat (char : Char) :
    char.isAlphanum = true ↔
      ((65 ≤ char.toNat ∧ char.toNat ≤ 90) ∨ (97 ≤ char.toNat ∧ char.toNat ≤ 122)) ∨
        (48 ≤ char.toNat ∧ char.toNat ≤ 57) := by
  rw [Char.isAlphanum, Bool.or_eq_true, isAlpha_eq, Bool.or_eq_true, isUpper_iff_toNat,
    isLower_iff_toNat, isDigit_iff_toNat]

theorem isWhitespace_of_isAlphanum {char : Char} (plain : char.isAlphanum = true) :
    isWhitespace char = false := by
  have range : 48 ≤ char.toNat ∧ char.toNat ≤ 122 := by
    rw [isAlphanum_iff_toNat] at plain
    omega
  unfold isWhitespace
  simp only [Bool.or_eq_false_iff, Bool.and_eq_false_iff, decide_eq_false_iff_not, beq_eq_false_iff_ne]
  omega

theorem toLower_of_not_isUpper {char : Char} (other : ¬ char.isUpper) : char.toLower = char := by
  rw [isUpper_iff_toNat] at other
  apply dif_neg
  simpa [UInt32.le_iff_toNat_le] using other

theorem toNat_toLower_of_isUpper {char : Char} (capital : char.isUpper = true) :
    char.toLower.toNat = char.toNat + 32 := by
  rw [isUpper_iff_toNat] at capital
  have range : char.val ≥ 'A'.val ∧ char.val ≤ 'Z'.val := by
    simpa [UInt32.le_iff_toNat_le] using capital
  have lowered : char.toLower.val = char.val + ('a'.val - 'A'.val) := by
    unfold Char.toLower
    rw [dif_pos range]
  have bound := capital.2
  simp only [Char.toNat] at bound ⊢
  rw [lowered]
  simp
  omega

@[simp]
theorem toLower_toLower (char : Char) : char.toLower.toLower = char.toLower := by
  apply toLower_of_not_isUpper
  by_cases capital : char.isUpper = true
  · have lowered := toNat_toLower_of_isUpper capital
    rw [isUpper_iff_toNat] at capital ⊢
    omega
  · rwa [toLower_of_not_isUpper capital]

theorem isLower_toAsciiLowercase (text : Text) : IsLower (toAsciiLowercase text) := by
  simp [IsLower, toAsciiLowercase]

theorem eq_or_isAlpha_of_toLower_eq {first second : Char}
    (same : first.toLower = second.toLower) :
    first = second ∨ first.isAlpha = true ∧ second.isAlpha = true := by
  simp only [isAlpha_eq, Bool.or_eq_true]
  by_cases firstCapital : first.isUpper = true
  · have firstLowered := toNat_toLower_of_isUpper firstCapital
    by_cases secondCapital : second.isUpper = true
    · exact .inr ⟨.inl firstCapital, .inl secondCapital⟩
    · rw [toLower_of_not_isUpper secondCapital] at same
      refine .inr ⟨.inl firstCapital, .inr ?_⟩
      rw [isUpper_iff_toNat] at firstCapital
      rw [isLower_iff_toNat, ← same]
      omega
  · rw [toLower_of_not_isUpper firstCapital] at same
    by_cases secondCapital : second.isUpper = true
    · have secondLowered := toNat_toLower_of_isUpper secondCapital
      refine .inr ⟨.inr ?_, .inl secondCapital⟩
      rw [isUpper_iff_toNat] at secondCapital
      rw [isLower_iff_toNat, same]
      omega
    · rw [toLower_of_not_isUpper secondCapital] at same
      exact .inl same

theorem toLower_eq_iff {mark : Char} (noLetter : mark.isAlpha = false) (char : Char) :
    char.toLower = mark ↔ char = mark := by
  have unchanged : mark.toLower = mark :=
    toLower_of_not_isUpper fun capital => by simp [isAlpha_eq, capital] at noLetter
  constructor
  · intro lowered
    rcases eq_or_isAlpha_of_toLower_eq (lowered.trans unchanged.symm) with same | ⟨_, letter⟩
    · exact same
    · simp [noLetter] at letter
  · rintro rfl
    exact unchanged

theorem toLower_congr {property : Char → Bool}
    (letters : ∀ char, char.isAlpha = true → property char = true) (char : Char) :
    property char.toLower = property char := by
  by_cases capital : char.isUpper = true
  · have lowered := toNat_toLower_of_isUpper capital
    have small : char.toLower.isLower = true := by
      rw [isUpper_iff_toNat] at capital
      rw [isLower_iff_toNat]
      omega
    rw [letters char (by simp [isAlpha_eq, capital]),
      letters char.toLower (by simp [isAlpha_eq, small])]
  · rw [toLower_of_not_isUpper capital]

theorem splitOn_toAsciiLowercase {mark : Char} (noLetter : mark.isAlpha = false) (text : Text) :
    (toAsciiLowercase text).splitOn mark = (text.splitOn mark).map toAsciiLowercase := by
  induction text with
  | nil => rfl
  | cons char text inductionHypothesis =>
      have tail : List.map Char.toLower text = toAsciiLowercase text := rfl
      simp only [toAsciiLowercase, List.map_cons, List.splitOn_cons_eq_if_modifyHead]
      rw [tail, inductionHypothesis]
      by_cases isMark : char = mark
      · subst isMark
        simp [(toLower_eq_iff noLetter char).mpr rfl, toAsciiLowercase]
      · have notMark : char.toLower ≠ mark :=
          fun lowered => isMark ((toLower_eq_iff noLetter char).mp lowered)
        simp only [beq_iff_eq, notMark, if_false, isMark]
        cases text.splitOn mark with
        | nil => rfl
        | cons first rest => rfl

theorem head?_toAsciiLowercase {mark : Char} (noLetter : mark.isAlpha = false) (text : Text) :
    (toAsciiLowercase text).head? = some mark ↔ text.head? = some mark := by
  simp [toAsciiLowercase, toLower_eq_iff noLetter]

theorem getLast?_toAsciiLowercase {mark : Char} (noLetter : mark.isAlpha = false)
    (text : Text) :
    (toAsciiLowercase text).getLast? = some mark ↔ text.getLast? = some mark := by
  simp [toAsciiLowercase, toLower_eq_iff noLetter]

theorem exists_isAlpha_of_not_isLower {text : Text} (capital : ¬ IsLower text) :
    ∃ char ∈ text, char.isAlpha = true := by
  by_contra none
  apply capital
  refine isLower_iff.mpr fun char member => toLower_of_not_isUpper fun isCapital => ?_
  exact none ⟨char, member, by simp [isAlpha_eq, isCapital]⟩

theorem isLower_congr {text part : Text} (inside : part ⊆ text)
    (letters : ∀ char ∈ text, char.isAlpha = true → char ∈ part) :
    IsLower part ↔ IsLower text := by
  constructor
  · intro lower
    refine isLower_iff.mpr fun char member => ?_
    by_cases letter : char.isAlpha = true
    · exact isLower_iff.mp lower char (letters char member letter)
    · apply toLower_of_not_isUpper
      intro capital
      exact letter (by simp [isAlpha_eq, capital])
  · intro lower
    exact lower.of_subset inside

theorem mem_dropWhile_of_ne {mark char : Char} {text : Text} (member : char ∈ text)
    (different : char ≠ mark) : char ∈ text.dropWhile (· == mark) := by
  induction text with
  | nil => exact absurd member List.not_mem_nil
  | cons first rest inductionHypothesis =>
      by_cases isMark : first = mark
      · rw [List.dropWhile_cons_of_pos (by simpa using isMark)]
        apply inductionHypothesis
        rcases List.mem_cons.mp member with same | later
        · exact absurd (same.trans isMark) different
        · exact later
      · rw [List.dropWhile_cons_of_neg (by simpa using isMark)]
        exact member

theorem mem_trimEndMatches {mark char : Char} {text : Text} (member : char ∈ text)
    (different : char ≠ mark) : char ∈ trimEndMatches mark text := by
  apply List.mem_reverse.mpr
  exact mem_dropWhile_of_ne (List.mem_reverse.mpr member) different

theorem mem_trimMatches {mark char : Char} {text : Text} (member : char ∈ text)
    (different : char ≠ mark) : char ∈ trimMatches mark text := by
  apply mem_trimEndMatches _ different
  exact mem_dropWhile_of_ne member different

theorem isLower_trimMatches_iff {mark : Char} (noLetter : mark.isAlpha = false) (text : Text) :
    IsLower (trimMatches mark text) ↔ IsLower text := by
  apply isLower_congr (trimMatches_subset mark text)
  rintro char member letter
  apply mem_trimMatches member
  rintro rfl
  simp [noLetter] at letter

theorem isLower_trimEndMatches_iff {mark : Char} (noLetter : mark.isAlpha = false)
    (text : Text) : IsLower (trimEndMatches mark text) ↔ IsLower text := by
  apply isLower_congr (List.rdropWhile_prefix (· == mark) text).subset
  rintro char member letter
  apply mem_trimEndMatches member
  rintro rfl
  simp [noLetter] at letter

/-- The texts differ in the case of ASCII letters at most. -/
def SameLetters (first second : Text) : Prop := toAsciiLowercase first = toAsciiLowercase second

instance (first second : Text) : Decidable (SameLetters first second) :=
  inferInstanceAs (Decidable (_ = _))

theorem SameLetters.symm {first second : Text} (same : SameLetters first second) :
    SameLetters second first := Eq.symm same

theorem SameLetters.eq_of_isLower {first second : Text} (same : SameLetters first second)
    (firstLower : IsLower first) (secondLower : IsLower second) : first = second :=
  firstLower.symm.trans (same.trans secondLower)

theorem SameLetters.counterpart {first second : Text} (same : SameLetters first second)
    {char : Char} (member : char ∈ second) :
    char ∈ first ∨ char.isAlpha = true ∧ ∃ other ∈ first, other.isAlpha = true := by
  have lowered : char.toLower ∈ toAsciiLowercase first := by
    rw [same]
    exact List.mem_map_of_mem member
  obtain ⟨other, otherMember, otherLowered⟩ := List.mem_map.mp lowered
  rcases eq_or_isAlpha_of_toLower_eq otherLowered with rfl | ⟨otherLetter, letter⟩
  · exact .inl otherMember
  · exact .inr ⟨letter, other, otherMember, otherLetter⟩

/-- What all letters have, and all characters of one text, those of the other have. -/
theorem SameLetters.forall {first second : Text} (same : SameLetters first second)
    {property : Char → Prop} (letters : ∀ char, char.isAlpha = true → property char)
    (holds : ∀ char ∈ first, property char) : ∀ char ∈ second, property char := by
  intro char member
  rcases same.counterpart member with inFirst | ⟨letter, _⟩
  · exact holds char inFirst
  · exact letters char letter

theorem SameLetters.exists_isAlpha {first second : Text} (same : SameLetters first second)
    (capital : ¬ IsLower second) : ∃ char ∈ first, char.isAlpha = true := by
  obtain ⟨char, member, letter⟩ := exists_isAlpha_of_not_isLower capital
  rcases same.counterpart member with inFirst | ⟨_, counterpart⟩
  · exact ⟨char, inFirst, letter⟩
  · exact counterpart

end Text
