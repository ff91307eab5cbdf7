import Mathlib.Data.Bool.AllAny
import Rsdns.Dns.Message
import Rsdns.Library.LabelKey

/-!
# Names with any bytes in their labels

A name is a list of nonempty byte strings, and its text is what the wire library
writes for it: the labels joined by dots, with a backslash in front of a byte
that does not stand for itself.
-/

namespace Rsdns.Dns

def byteChar (byte : UInt8) : Char := Char.ofNat byte.toNat

/-- ASCII letters, digits, hyphens and underscores. -/
def isPlainChar (char : Char) : Bool := char.isAlphanum || char == '-' || char == '_'

/-- The byte stands for itself; a hyphen does not at the start of a label. -/
def StandsForItself (first : Bool) (byte : UInt8) : Prop :=
  isPlainChar (byteChar byte) = true ∧ (first = true → byteChar byte ≠ '-')

instance (first : Bool) (byte : UInt8) : Decidable (StandsForItself first byte) :=
  inferInstanceAs (Decidable (_ ∧ _))

/-- Write a label byte by byte; `first` says whether the label starts here. -/
def writeBytes (write : Bool → UInt8 → Text) : Bool → List UInt8 → Text
  | _, [] => []
  | first, byte :: bytes => write first byte ++ writeBytes write false bytes

/-- Whether a backslash at the end of the text still waits for what it escapes. -/
def openAfter : Bool → Text → Bool
  | open', [] => open'
  | true, _ :: rest => openAfter false rest
  | false, char :: rest => openAfter (char == '\\') rest

/-- How the texts of names come about. -/
structure NameText (Name : Type) [NameApi Name] where
  labels : Name → List (List UInt8)
  absolute : Name → Bool
  write : Bool → UInt8 → Text
  nonempty : ∀ name, ∀ label ∈ labels name, label ≠ []
  /-- Labels are joined by dots, and an absolute name ends with one. -/
  toAscii : ∀ name, NameApi.toAscii name =
    ['.'].intercalate ((labels name).map (writeBytes write true)) ++
      if absolute name then ['.'] else []
  toLowercase : ∀ name, (labels (NameApi.toLowercase name)).map (List.map byteChar) =
    (labels name).map fun label => Text.toAsciiLowercase (label.map byteChar)
  plain : ∀ first byte, StandsForItself first byte → write first byte = [byteChar byte]
  dot : ∀ first byte, byteChar byte = '.' → write first byte = ['\\', '.']
  /-- Any other byte is written without dots and letters, and not by plain characters. -/
  escaped : ∀ first byte, ¬ StandsForItself first byte → byteChar byte ≠ '.' →
    (∀ char ∈ write first byte, char ≠ '.' ∧ char.isAlpha = false) ∧
      ∃ char ∈ write first byte, isPlainChar char = false
  /-- A backslash stands in front of what it escapes, within the text of one byte. -/
  closed : ∀ first byte, openAfter false (write first byte) = false

namespace NameText

variable {Name : Type} [NameApi Name] (text : NameText Name)

def part (first : Bool) (bytes : List UInt8) : Text := writeBytes text.write first bytes

@[simp]
theorem part_nil (first : Bool) : text.part first [] = [] := rfl

@[simp]
theorem part_cons (first : Bool) (byte : UInt8) (bytes : List UInt8) :
    text.part first (byte :: bytes) = text.write first byte ++ text.part false bytes := rfl

theorem part_append (first : Bool) (front : List UInt8) (byte : UInt8) (back : List UInt8) :
    text.part first (front ++ byte :: back) =
      text.part first front ++ text.write (first && front.isEmpty) byte ++
        text.part false back := by
  induction front generalizing first with
  | nil => simp
  | cons other front inductionHypothesis => simp [inductionHypothesis]

theorem write_ne_nil (first : Bool) (byte : UInt8) : text.write first byte ≠ [] := by
  by_cases stands : StandsForItself first byte
  · simp [text.plain first byte stands]
  · by_cases isDot : byteChar byte = '.'
    · simp [text.dot first byte isDot]
    · obtain ⟨_, char, member, _⟩ := text.escaped first byte stands isDot
      exact List.ne_nil_of_mem member

theorem dot_not_mem_write {first : Bool} {byte : UInt8} (noDot : byteChar byte ≠ '.') :
    '.' ∉ text.write first byte := by
  by_cases stands : StandsForItself first byte
  · simpa [text.plain first byte stands] using noDot.symm
  · intro member
    exact ((text.escaped first byte stands noDot).1 '.' member).1 rfl

theorem dot_not_mem_part {first : Bool} {bytes : List UInt8} (noDot : '.' ∉ bytes.map byteChar) :
    '.' ∉ text.part first bytes := by
  induction bytes generalizing first with
  | nil => exact List.not_mem_nil
  | cons byte bytes inductionHypothesis =>
      simp only [List.map_cons, List.mem_cons, not_or] at noDot
      intro member
      rcases List.mem_append.mp member with here | later
      · exact text.dot_not_mem_write (Ne.symm noDot.1) here
      · exact inductionHypothesis noDot.2 later

/-- A part without dots is written as a plain piece exactly if it spells the piece, and
does not start the label with a hyphen. -/
theorem part_eq_iff {bytes : List UInt8} {piece : Text} {first : Bool}
    (noDot : '.' ∉ bytes.map byteChar) (plain : ∀ char ∈ piece, isPlainChar char = true) :
    text.part first bytes = piece ↔
      bytes.map byteChar = piece ∧ (first = true → piece.head? ≠ some '-') := by
  induction bytes generalizing piece first with
  | nil =>
      constructor
      · rintro rfl
        simp
      · exact fun spelled => spelled.1
  | cons byte bytes inductionHypothesis =>
      simp only [List.map_cons, List.mem_cons, not_or] at noDot
      by_cases stands : StandsForItself first byte
      · rw [part_cons, text.plain first byte stands, List.singleton_append, List.map_cons]
        cases piece with
        | nil => simp
        | cons char rest =>
            have restPlain : ∀ char ∈ rest, isPlainChar char = true :=
              fun char member => plain char (List.mem_cons_of_mem _ member)
            have later : text.part false bytes = rest ↔
                bytes.map byteChar = rest ∧ (false = true → rest.head? ≠ some '-') :=
              inductionHypothesis noDot.2 restPlain
            simp only [List.cons.injEq, later, List.head?_cons, ne_eq, Option.some.injEq,
              Bool.false_eq_true, false_implies, and_true]
            constructor
            · rintro ⟨rfl, spelled⟩
              exact ⟨⟨rfl, spelled⟩, stands.2⟩
            · exact fun both => both.1
      · obtain ⟨_, char, member, broken⟩ := text.escaped first byte stands (Ne.symm noDot.1)
        constructor
        · rintro rfl
          have isPlain := plain char (List.mem_append_left _ member)
          simp [broken] at isPlain
        · rintro ⟨rfl, hyphen⟩
          exact absurd ⟨plain _ List.mem_cons_self, by simpa using hyphen⟩ stands

theorem isLower_part {first : Bool} {bytes : List UInt8}
    (lower : Text.IsLower (bytes.map byteChar)) : Text.IsLower (text.part first bytes) := by
  rw [Text.isLower_iff] at lower ⊢
  induction bytes generalizing first with
  | nil => simp
  | cons byte bytes inductionHypothesis =>
      obtain ⟨byteLower, restLower⟩ := List.forall_mem_cons.mp lower
      intro char member
      rcases List.mem_append.mp member with here | later
      · by_cases stands : StandsForItself first byte
        · rw [text.plain first byte stands, List.mem_singleton] at here
          rw [here, byteLower]
        · by_cases isDot : byteChar byte = '.'
          · rw [text.dot first byte isDot] at here
            have marks : ∀ char ∈ ['\\', '.'], char.toLower = char :=
              List.all_iff_forall_prop.mp (by decide)
            exact marks char here
          · have noLetter := ((text.escaped first byte stands isDot).1 char here).2
            apply Text.toLower_of_not_isUpper
            intro capital
            simp [Text.isAlpha_eq, capital] at noLetter
      · exact inductionHypothesis restLower char later

theorem write_head?_ne (first : Bool) (byte : UInt8) :
    (text.write first byte).head? ≠ some '.' := by
  by_cases isDot : byteChar byte = '.'
  · simp [text.dot first byte isDot]
  · intro head
    exact text.dot_not_mem_write isDot (List.mem_of_mem_head? head)

/-! ### The pieces of a label -/

theorem backslash_mem_of_mem_splitOn {first : Bool} {bytes : List UInt8} {piece : Text}
    (member : piece ∈ (text.part first bytes ++ ['\\']).splitOn '.') : '\\' ∈ piece := by
  induction bytes generalizing first piece with
  | nil =>
      simp only [part_nil, List.nil_append] at member
      rw [List.splitOn_eq_singleton (by decide), List.mem_singleton] at member
      simp [member]
  | cons byte bytes inductionHypothesis =>
      rw [part_cons, List.append_assoc] at member
      by_cases isDot : byteChar byte = '.'
      · rw [text.dot first byte isDot] at member
        have cut : ('\\' :: '.' :: (text.part false bytes ++ ['\\'])).splitOn '.' =
            ['\\'].splitOn '.' ++ (text.part false bytes ++ ['\\']).splitOn '.' :=
          List.splitOn_append_cons_self ['\\'] _
        rw [List.cons_append, List.singleton_append, cut,
          List.splitOn_eq_singleton (by decide)] at member
        rcases List.mem_append.mp member with here | later
        · rw [List.mem_singleton.mp here]
          decide
        · exact inductionHypothesis later
      · rw [LabelKey.splitOn_append_of_not_mem (text.dot_not_mem_write isDot)] at member
        cases pieces : (text.part false bytes ++ ['\\']).splitOn '.' with
        | nil => exact absurd pieces (List.splitOn_ne_nil _ _)
        | cons next rest =>
            rw [pieces, List.modifyHead_cons] at member
            rcases List.mem_cons.mp member with here | later
            · rw [here]
              exact List.mem_append_right _ (inductionHypothesis (by rw [pieces]; simp))
            · exact inductionHypothesis (by rw [pieces]; exact List.mem_cons_of_mem _ later)

theorem exists_last_dot {bytes : List UInt8} (dotted : '.' ∈ bytes.map byteChar) :
    ∃ front byte back, bytes = front ++ byte :: back ∧ byteChar byte = '.' ∧
      '.' ∉ back.map byteChar := by
  induction bytes with
  | nil => exact absurd dotted List.not_mem_nil
  | cons byte bytes inductionHypothesis =>
      by_cases later : '.' ∈ bytes.map byteChar
      · obtain ⟨front, other, back, rfl, isDot, noDot⟩ := inductionHypothesis later
        exact ⟨byte :: front, other, back, rfl, isDot, noDot⟩
      · rcases List.mem_cons.mp dotted with same | inRest
        · exact ⟨[], byte, bytes, rfl, same.symm, later⟩
        · exact absurd inRest later

/-- The pieces a label is cut into at dots. -/
def pieces (label : List UInt8) : List Text := (text.part true label).splitOn '.'

theorem pieces_of_no_dot {label : List UInt8} (noDot : '.' ∉ label.map byteChar) :
    text.pieces label = [text.part true label] :=
  List.splitOn_eq_singleton (text.dot_not_mem_part noDot)

theorem pieces_of_dot {front back : List UInt8} {byte : UInt8} (isDot : byteChar byte = '.')
    (noDot : '.' ∉ back.map byteChar) :
    text.pieces (front ++ byte :: back) =
      (text.part true front ++ ['\\']).splitOn '.' ++ [text.part false back] := by
  unfold pieces
  rw [part_append, text.dot _ byte isDot]
  have shape : text.part true front ++ ['\\', '.'] ++ text.part false back =
      (text.part true front ++ ['\\']) ++ '.' :: text.part false back := by simp
  rw [shape, List.splitOn_append_cons_self,
    List.splitOn_eq_singleton (text.dot_not_mem_part noDot)]

/-- The pieces in front of the last one, and the last one. -/
def brokenPieces (label : List UInt8) : List Text := (text.pieces label).dropLast

def lastPiece (label : List UInt8) : Text := (text.pieces label).getLastD []

theorem pieces_eq (label : List UInt8) :
    text.pieces label = text.brokenPieces label ++ [text.lastPiece label] := by
  have nonempty : text.pieces label ≠ [] := List.splitOn_ne_nil _ _
  unfold brokenPieces lastPiece
  rw [List.getLastD_eq_getLast?, List.getLast?_eq_some_getLast nonempty, Option.getD_some,
    List.dropLast_append_getLast]

theorem backslash_mem_brokenPieces {label : List UInt8} {piece : Text}
    (member : piece ∈ text.brokenPieces label) : '\\' ∈ piece := by
  by_cases dotted : '.' ∈ label.map byteChar
  · obtain ⟨front, byte, back, rfl, isDot, noDot⟩ := exists_last_dot dotted
    rw [brokenPieces, text.pieces_of_dot isDot noDot, List.dropLast_concat] at member
    exact text.backslash_mem_of_mem_splitOn member
  · rw [brokenPieces, text.pieces_of_no_dot dotted] at member
    exact absurd member List.not_mem_nil

theorem brokenPieces_eq_nil_iff (label : List UInt8) :
    text.brokenPieces label = [] ↔ '.' ∉ label.map byteChar := by
  constructor
  · intro whole dotted
    obtain ⟨front, byte, back, rfl, isDot, noDot⟩ := exists_last_dot dotted
    rw [brokenPieces, text.pieces_of_dot isDot noDot, List.dropLast_concat] at whole
    exact List.splitOn_ne_nil _ _ whole
  · intro noDot
    rw [brokenPieces, text.pieces_of_no_dot noDot]
    rfl

/-- The last piece of a label spells a plain piece if the label does, or ends with it
behind a dot. -/
theorem lastPiece_eq_iff {label : List UInt8} {piece : Text}
    (plain : ∀ char ∈ piece, isPlainChar char = true) :
    text.lastPiece label = piece ↔
      (label.map byteChar = piece ∧ piece.head? ≠ some '-') ∨
        ∃ inner, label.map byteChar = inner ++ '.' :: piece := by
  have noDotPiece : '.' ∉ piece := fun member => absurd (plain '.' member) (by decide)
  by_cases dotted : '.' ∈ label.map byteChar
  · obtain ⟨front, byte, back, rfl, isDot, noDot⟩ := exists_last_dot dotted
    rw [lastPiece, text.pieces_of_dot isDot noDot, List.getLastD_concat,
      text.part_eq_iff noDot plain]
    constructor
    · rintro ⟨rfl, _⟩
      exact .inr ⟨front.map byteChar, by simp [isDot]⟩
    · rintro (⟨spelled, _⟩ | ⟨inner, spelled⟩)
      · rw [spelled] at dotted
        exact absurd dotted noDotPiece
      · refine ⟨?_, by simp⟩
        have cut := congrArg (List.splitOn '.') spelled
        rw [List.map_append, List.map_cons, isDot, List.splitOn_append_cons_self,
          List.splitOn_append_cons_self, List.splitOn_eq_singleton noDot,
          List.splitOn_eq_singleton noDotPiece] at cut
        exact (List.append_singleton_inj.mp cut).2
  · rw [lastPiece, text.pieces_of_no_dot dotted]
    change text.part true label = piece ↔ _
    rw [text.part_eq_iff dotted plain]
    constructor
    · rintro ⟨spelled, hyphen⟩
      exact .inl ⟨spelled, hyphen rfl⟩
    · rintro (⟨spelled, hyphen⟩ | ⟨inner, spelled⟩)
      · exact ⟨spelled, fun _ => hyphen⟩
      · exact absurd (by simp [spelled]) dotted

theorem map_lastPiece_eq_iff {labels : List (List UInt8)} {domain : List Text}
    (plain : ∀ label ∈ domain, ∀ char ∈ label, isPlainChar char = true) :
    (domain = labels.map text.lastPiece ∧ ∀ label ∈ labels, text.brokenPieces label = []) ↔
      labels.map (List.map byteChar) = domain ∧ ∀ label ∈ domain, label.head? ≠ some '-' := by
  induction labels generalizing domain with
  | nil =>
      constructor
      · rintro ⟨rfl, _⟩
        simp
      · rintro ⟨rfl, _⟩
        simp
  | cons label labels inductionHypothesis =>
      cases domain with
      | nil => simp
      | cons first rest =>
          obtain ⟨firstPlain, restPlain⟩ := List.forall_mem_cons.mp plain
          have noDotFirst : '.' ∉ first := fun member => absurd (firstPlain '.' member) (by decide)
          have later := inductionHypothesis restPlain
          have here := @lastPiece_eq_iff Name _ text label first firstPlain
          simp only [List.map_cons, List.cons.injEq, List.forall_mem_cons,
            text.brokenPieces_eq_nil_iff] at later ⊢
          constructor
          · rintro ⟨⟨rfl, same⟩, noDot, wholes⟩
            rcases here.mp rfl with ⟨spelled, hyphen⟩ | ⟨inner, spelled⟩
            · obtain ⟨spelledRest, hyphens⟩ := later.mp ⟨same, wholes⟩
              exact ⟨⟨spelled, spelledRest⟩, hyphen, hyphens⟩
            · exact absurd (by simp [spelled]) noDot
          · rintro ⟨⟨spelled, spelledRest⟩, hyphen, hyphens⟩
            obtain ⟨same, wholes⟩ := later.mpr ⟨spelledRest, hyphens⟩
            refine ⟨⟨(here.mpr (.inl ⟨spelled, hyphen⟩)).symm, same⟩, ?_, wholes⟩
            rw [spelled]
            exact noDotFirst

/-- Plain labels end the pieces of a name if they end its labels, or if they do but for
the first, which the label in front of them ends with behind a dot. -/
theorem suffix_pieces_iff {labels : List (List UInt8)} {first : Text} {rest : List Text}
    (plain : ∀ label ∈ first :: rest, ∀ char ∈ label, isPlainChar char = true) :
    first :: rest <:+ labels.flatMap text.pieces ↔
      (first :: rest <:+ labels.map (List.map byteChar) ∧
        ∀ label ∈ first :: rest, label.head? ≠ some '-') ∨
      ∃ before inner, labels.map (List.map byteChar) = before ++ (inner ++ '.' :: first) :: rest ∧
        ∀ label ∈ rest, label.head? ≠ some '-' := by
  obtain ⟨firstPlain, restPlain⟩ := List.forall_mem_cons.mp plain
  have broken : ∀ label, ∀ piece ∈ text.brokenPieces label,
      ¬ ∀ char ∈ piece, isPlainChar char = true :=
    fun label piece member allPlain =>
      absurd (allPlain '\\' (text.backslash_mem_brokenPieces member)) (by decide)
  have cut : text.pieces = fun label => text.brokenPieces label ++ [text.lastPiece label] :=
    funext text.pieces_eq
  rw [cut, LabelKey.suffix_flatMap_iff broken plain (List.cons_ne_nil _ _)]
  constructor
  · rintro ⟨before, label, after, rfl, same, wholes⟩
    obtain ⟨rfl, rfl⟩ := List.cons.inj same
    obtain ⟨spelled, hyphens⟩ := (text.map_lastPiece_eq_iff restPlain).mp ⟨rfl, wholes⟩
    rcases (text.lastPiece_eq_iff firstPlain).mp rfl with ⟨here, hyphen⟩ | ⟨inner, here⟩
    · left
      refine ⟨⟨before.map (List.map byteChar), ?_⟩, List.forall_mem_cons.mpr ⟨hyphen, hyphens⟩⟩
      rw [List.map_append, List.map_cons, here, spelled]
    · right
      refine ⟨before.map (List.map byteChar), inner, ?_, hyphens⟩
      rw [List.map_append, List.map_cons, here, spelled]
  · intro ends
    have shape : ∃ before label after, labels = before ++ label :: after ∧
        text.lastPiece label = first ∧ after.map (List.map byteChar) = rest ∧
        ∀ label ∈ rest, label.head? ≠ some '-' := by
      rcases ends with ⟨⟨before, whole⟩, hyphens⟩ | ⟨before, inner, whole, hyphens⟩
      · obtain ⟨front, back, rfl, _, backIs⟩ := List.map_eq_append_iff.mp whole.symm
        obtain ⟨label, after, rfl, here, spelled⟩ := List.map_eq_cons_iff.mp backIs
        obtain ⟨hyphen, hyphens⟩ := List.forall_mem_cons.mp hyphens
        exact ⟨front, label, after, rfl,
          (text.lastPiece_eq_iff firstPlain).mpr (.inl ⟨here, hyphen⟩), spelled, hyphens⟩
      · obtain ⟨front, back, rfl, _, backIs⟩ := List.map_eq_append_iff.mp whole
        obtain ⟨label, after, rfl, here, spelled⟩ := List.map_eq_cons_iff.mp backIs
        exact ⟨front, label, after, rfl,
          (text.lastPiece_eq_iff firstPlain).mpr (.inr ⟨inner, here⟩), spelled, hyphens⟩
    obtain ⟨before, label, after, rfl, here, spelled, hyphens⟩ := shape
    obtain ⟨same, wholes⟩ := (text.map_lastPiece_eq_iff restPlain).mpr ⟨spelled, hyphens⟩
    exact ⟨before, label, after, rfl, by rw [here, same], wholes⟩

/-! ### Half a label -/

theorem openAfter_append (waiting : Bool) (front back : Text) :
    openAfter waiting (front ++ back) = openAfter (openAfter waiting front) back := by
  induction front generalizing waiting with
  | nil => cases waiting <;> rfl
  | cons char front inductionHypothesis =>
      cases waiting with
      | true => exact inductionHypothesis false
      | false => exact inductionHypothesis (char == '\\')

theorem openAfter_part (first : Bool) (bytes : List UInt8) :
    openAfter false (text.part first bytes) = false := by
  induction bytes generalizing first with
  | nil => rfl
  | cons byte bytes inductionHypothesis =>
      rw [part_cons, openAfter_append, text.closed]
      exact inductionHypothesis false

theorem part_ne_broken (label front : List UInt8) :
    text.part true front ++ ['\\'] ≠ text.part true label := by
  intro same
  have opened := congrArg (openAfter false) same
  rw [openAfter_append, openAfter_part, openAfter_part] at opened
  cases opened

theorem exists_broken_piece {label : List UInt8} (dotted : '.' ∈ label.map byteChar) :
    ∃ front, text.part true front ++ ['\\'] ∈ text.pieces label := by
  obtain ⟨before, after, whole, noDot⟩ := List.eq_append_cons_of_mem dotted
  obtain ⟨front, rest, rfl, rfl, restIs⟩ := List.map_eq_append_iff.mp whole
  obtain ⟨byte, back, rfl, isDot, _⟩ := List.map_eq_cons_iff.mp restIs
  refine ⟨front, ?_⟩
  unfold pieces
  have uncut : '.' ∉ text.part true front ++ ['\\'] := by
    intro member
    rcases List.mem_append.mp member with inFront | mark
    · exact text.dot_not_mem_part noDot inFront
    · exact absurd mark (by decide)
  have shape : text.part true front ++ ['\\', '.'] ++ text.part false back =
      (text.part true front ++ ['\\']) ++ '.' :: text.part false back := by simp
  rw [part_append, text.dot _ byte isDot, shape, List.splitOn_append_cons_self,
    List.splitOn_eq_singleton uncut]
  exact List.mem_append_left _ (List.mem_singleton_self _)

end NameText
end Rsdns.Dns
