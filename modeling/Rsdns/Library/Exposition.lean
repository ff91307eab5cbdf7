import Rsdns.Library.Text

/-!
# The text format of metrics

One line for each item: what a metric is about, of which kind it is, and samples.  A sample
has a name, maybe labels with quoted values, and a value.  Items whose names are plain, and
whose texts keep to one line, read back as they were written.
-/

namespace Exposition

structure Sample where
  name : Text
  labels : List (Text × Text)
  value : Text
  deriving DecidableEq

inductive Item where
  | help (name about : Text)
  | kind (name word : Text)
  | sample (row : Sample)
  deriving DecidableEq

/-! ### Writing -/

def escapeChar (char : Char) : Text :=
  if char = '\\' then ['\\', '\\']
  else if char = '"' then ['\\', '"']
  else if char = '\n' then ['\\', 'n']
  else [char]

def escape (value : Text) : Text := value.flatMap escapeChar

def writeLabel (label : Text × Text) : Text := label.1 ++ '=' :: '"' :: escape label.2 ++ ['"']

def writeLabels (labels : List (Text × Text)) : Text :=
  [','].intercalate (labels.map writeLabel)

def Sample.write (self : Sample) : Text :=
  self.name ++ (if self.labels = [] then [] else '{' :: writeLabels self.labels ++ ['}']) ++
    ' ' :: self.value

def helpMark : Text := ['#', ' ', 'H', 'E', 'L', 'P', ' ']

def kindMark : Text := ['#', ' ', 'T', 'Y', 'P', 'E', ' ']

def Item.write : Item → Text
  | .help name about => helpMark ++ name ++ ' ' :: about
  | .kind name word => kindMark ++ name ++ ' ' :: word
  | .sample row => row.write

def writeItems (items : List Item) : Text := items.flatMap fun item => item.write ++ ['\n']

/-! ### Reading -/

def readEscape (mark : Char) : Option Char :=
  if mark = '\\' then some '\\'
  else if mark = '"' then some '"'
  else if mark = 'n' then some '\n'
  else none

/-- A value up to its closing quote, and what follows. -/
def readQuoted : Text → Option (Text × Text)
  | [] => none
  | char :: rest =>
      if char = '"' then some ([], rest)
      else if char = '\\' then
        match rest with
        | [] => none
        | mark :: rest =>
            (readEscape mark).bind fun char =>
              (readQuoted rest).map fun read => (char :: read.1, read.2)
      else (readQuoted rest).map fun read => (char :: read.1, read.2)

/-- Labels up to the closing brace, and what follows. -/
def readLabels : Nat → Text → Option (List (Text × Text) × Text)
  | 0, _ => none
  | fuel + 1, text =>
      match Text.splitOnce '=' text with
      | some (name, '"' :: rest) =>
          match readQuoted rest with
          | some (value, ',' :: rest) =>
              (readLabels fuel rest).map fun read => ((name, value) :: read.1, read.2)
          | some (value, '}' :: rest) => some ([(name, value)], rest)
          | _ => none
      | _ => none

def isNameChar (char : Char) : Bool := char.isAlphanum || char == '_'

def readSample (line : Text) : Option Sample :=
  let name := line.takeWhile isNameChar
  match line.dropWhile isNameChar with
  | ' ' :: value => some { name := name, labels := [], value := value }
  | '{' :: rest =>
      match readLabels rest.length rest with
      | some (labels, ' ' :: value) => some { name := name, labels := labels, value := value }
      | _ => none
  | _ => none

/-- The text of a HELP line is read as it stands, where the format has escapes for a backslash
and a line end, and a name may begin with a digit. -/
def readItem (line : Text) : Option Item :=
  match Text.stripPrefix helpMark line with
  | some rest => (Text.splitOnce ' ' rest).map fun (name, about) => .help name about
  | none =>
      match Text.stripPrefix kindMark line with
      | some rest => (Text.splitOnce ' ' rest).map fun (name, word) => .kind name word
      | none => (readSample line).map .sample

/-- One line after the other, each with its end. -/
def readItemsFrom : Nat → Text → Option (List Item)
  | _, [] => some []
  | 0, _ => none
  | fuel + 1, text => do
      let (line, rest) ← Text.splitOnce '\n' text
      let item ← readItem line
      let items ← readItemsFrom fuel rest
      return item :: items

def readItems (text : Text) : Option (List Item) := readItemsFrom text.length text

/-! ### What can be read back -/

def IsName (name : Text) : Prop := name ≠ [] ∧ name.all isNameChar = true

instance (name : Text) : Decidable (IsName name) := inferInstanceAs (Decidable (_ ∧ _))

def IsLine (text : Text) : Prop := '\n' ∉ text

instance (text : Text) : Decidable (IsLine text) := inferInstanceAs (Decidable ('\n' ∉ text))

structure Sample.WellFormed (sample : Sample) : Prop where
  name : IsName sample.name
  labels : ∀ label ∈ sample.labels, IsName label.1
  value : IsLine sample.value

def Item.WellFormed : Item → Prop
  | .help name about => IsName name ∧ IsLine about
  | .kind name word => IsName name ∧ IsLine word
  | .sample row => row.WellFormed

/-! ### Names -/

theorem IsName.plain {name : Text} (named : IsName name) {char : Char}
    (member : char ∈ name) : isNameChar char = true :=
  List.all_eq_true.mp named.2 char member

theorem IsName.not_mem {name : Text} (named : IsName name) {mark : Char}
    (other : isNameChar mark = false) : mark ∉ name := by
  intro member
  rw [named.plain member] at other
  cases other

theorem IsName.isLine {name : Text} (named : IsName name) : IsLine name :=
  named.not_mem (by decide)

theorem IsName.append {front back : Text} (named : IsName front)
    (plain : back.all isNameChar = true) : IsName (front ++ back) := by
  refine ⟨List.append_ne_nil_of_left_ne_nil named.1 back, ?_⟩
  rw [List.all_append, named.2, plain]
  rfl

theorem IsName.takeWhile_append {name : Text} (named : IsName name) (mark : Char)
    (other : isNameChar mark = false) (rest : Text) :
    (name ++ mark :: rest).takeWhile isNameChar = name ∧
      (name ++ mark :: rest).dropWhile isNameChar = mark :: rest := by
  constructor
  · rw [List.takeWhile_append_of_pos fun _ member => named.plain member,
      List.takeWhile_cons_of_neg (by simp [other]), List.append_nil]
  · rw [List.dropWhile_append_of_pos fun _ member => named.plain member,
      List.dropWhile_cons_of_neg (by simp [other])]

/-! ### Quoted values -/

theorem readQuoted_escape (value rest : Text) :
    readQuoted (escape value ++ '"' :: rest) = some (value, rest) := by
  induction value with
  | nil =>
      rw [escape, List.flatMap_nil, List.nil_append, readQuoted.eq_def]
      simp only [if_true]
  | cons char value inductionHypothesis =>
      have goesOn : escape (char :: value) ++ '"' :: rest =
          escapeChar char ++ (escape value ++ '"' :: rest) := by
        simp [escape]
      rw [goesOn]
      by_cases backslash : char = '\\'
      · subst backslash
        simp [escapeChar, readQuoted, readEscape, inductionHypothesis]
      · by_cases quote : char = '"'
        · subst quote
          simp [escapeChar, readQuoted, readEscape, inductionHypothesis]
        · by_cases lineEnd : char = '\n'
          · subst lineEnd
            simp [escapeChar, readQuoted, readEscape, inductionHypothesis]
          · have plain : escapeChar char = [char] := by
              simp only [escapeChar, if_neg backslash, if_neg quote, if_neg lineEnd]
            rw [plain, List.singleton_append, readQuoted.eq_def]
            simp only [if_neg quote, if_neg backslash, inductionHypothesis, Option.map_some]

theorem isLine_escape (value : Text) : IsLine (escape value) := by
  intro member
  obtain ⟨char, _, inside⟩ := List.mem_flatMap.mp member
  unfold escapeChar at inside
  split at inside
  · simp at inside
  · split at inside
    · simp at inside
    · split at inside
      · simp at inside
      · next other => exact other (List.mem_singleton.mp inside).symm

/-! ### Labels -/

theorem readLabels_writeLabels {labels : List (Text × Text)} (nonempty : labels ≠ [])
    (named : ∀ label ∈ labels, IsName label.1) {fuel : Nat} (enough : labels.length ≤ fuel)
    (rest : Text) : readLabels fuel (writeLabels labels ++ '}' :: rest) = some (labels, rest) := by
  induction labels generalizing fuel with
  | nil => exact absurd rfl nonempty
  | cons label labels inductionHypothesis =>
      obtain ⟨left, rfl⟩ := Nat.exists_eq_add_of_le' (Nat.one_le_of_lt enough)
      obtain ⟨name, value⟩ := label
      have isName : IsName name := named (name, value) List.mem_cons_self
      have absent : '=' ∉ name := isName.not_mem (by decide)
      cases labels with
      | nil =>
          have written : writeLabels [(name, value)] ++ '}' :: rest =
              name ++ '=' :: '"' :: (escape value ++ '"' :: '}' :: rest) := by
            simp [writeLabels, writeLabel]
          rw [written, readLabels, Text.splitOnce_append absent]
          simp only [readQuoted_escape]
      | cons next labels =>
          have written : writeLabels ((name, value) :: next :: labels) ++ '}' :: rest =
              name ++ '=' :: '"' ::
                (escape value ++ '"' :: ',' :: (writeLabels (next :: labels) ++ '}' :: rest)) := by
            simp [writeLabels, writeLabel, List.intercalate]
          have later := inductionHypothesis (List.cons_ne_nil _ _)
            (fun label member => named label (List.mem_cons_of_mem _ member))
            (Nat.le_of_succ_le_succ enough)
          rw [written, readLabels, Text.splitOnce_append absent]
          simp only [readQuoted_escape, later, Option.map_some]

theorem length_le_length_writeLabels (labels : List (Text × Text)) (mark : Char) (rest : Text) :
    labels.length ≤ (writeLabels labels ++ mark :: rest).length := by
  induction labels with
  | nil => exact Nat.zero_le _
  | cons label labels inductionHypothesis =>
      have longer : (writeLabels labels).length + 1 ≤ (writeLabels (label :: labels)).length := by
        cases labels with
        | nil =>
            simp only [writeLabels, writeLabel, List.map_nil, List.map_cons,
              List.intercalate_nil, List.intercalate_singleton, List.length_append,
              List.length_cons, List.length_nil]
            omega
        | cons next labels => simp [writeLabels, List.intercalate]
      simp only [List.length_cons, List.length_append] at inductionHypothesis ⊢
      omega

theorem isLine_writeLabels {labels : List (Text × Text)}
    (named : ∀ label ∈ labels, IsName label.1) : IsLine (writeLabels labels) := by
  induction labels with
  | nil => exact List.not_mem_nil
  | cons label labels inductionHypothesis =>
      have first : '\n' ∉ writeLabel label := by
        have name := (named label List.mem_cons_self).isLine
        have value := isLine_escape label.2
        simp only [IsLine] at name value
        simp [writeLabel, name, value]
      have later := inductionHypothesis fun label member =>
        named label (List.mem_cons_of_mem _ member)
      cases labels with
      | nil => simpa [writeLabels, IsLine] using first
      | cons next labels =>
          simp only [IsLine, writeLabels, List.map_cons, List.intercalate] at later ⊢
          simp only [List.intersperse_cons_cons, List.flatten_cons, List.mem_append] at later ⊢
          simp [first, later]

/-! ### Items -/

theorem Sample.WellFormed.readSample_write {sample : Sample} (formed : sample.WellFormed) :
    readSample sample.write = some sample := by
  obtain ⟨name, labels, value⟩ := sample
  by_cases empty : labels = []
  · subst empty
    have written : Sample.write ⟨name, [], value⟩ = name ++ ' ' :: value := by
      simp [Sample.write]
    obtain ⟨taken, dropped⟩ := formed.name.takeWhile_append ' ' (by decide) value
    rw [written, readSample, taken, dropped]
    rfl
  · have written : Sample.write ⟨name, labels, value⟩ =
        name ++ '{' :: (writeLabels labels ++ '}' :: ' ' :: value) := by
      simp [Sample.write, empty]
    obtain ⟨taken, dropped⟩ := formed.name.takeWhile_append '{' (by decide)
      (writeLabels labels ++ '}' :: ' ' :: value)
    have labelled := readLabels_writeLabels empty formed.labels
      (length_le_length_writeLabels labels '}' (' ' :: value)) (' ' :: value)
    rw [written, readSample, taken, dropped]
    simp only [labelled]

theorem Sample.WellFormed.isLine_write {sample : Sample} (formed : sample.WellFormed) :
    IsLine sample.write := by
  have name := formed.name.isLine
  have labels := isLine_writeLabels formed.labels
  have value := formed.value
  simp only [IsLine, Sample.write] at name labels value ⊢
  split <;> simp [name, labels, value]

theorem stripPrefix_eq_none_of_head {front text : Text} {mark : Char}
    (first : front.head? = some mark) (other : text.head? ≠ some mark) :
    Text.stripPrefix front text = none := by
  cases stripped : Text.stripPrefix front text with
  | none => rfl
  | some rest =>
      rw [Text.stripPrefix_eq_some_iff.mp stripped, List.head?_append, first] at other
      exact absurd rfl other

theorem stripPrefix_append (front rest : Text) :
    Text.stripPrefix front (front ++ rest) = some rest :=
  Text.stripPrefix_eq_some_iff.mpr rfl

theorem Sample.WellFormed.head?_write {sample : Sample} (formed : sample.WellFormed) :
    sample.write.head? ≠ some '#' := by
  obtain ⟨char, name, named⟩ := List.exists_cons_of_ne_nil formed.name.1
  have plain : isNameChar char = true := formed.name.plain (by simp [named])
  simp only [Sample.write, named, List.cons_append, List.head?_cons, ne_eq, Option.some.injEq]
  rintro rfl
  exact absurd plain (by decide)

theorem Item.WellFormed.readItem_write {item : Item} (formed : item.WellFormed) :
    readItem item.write = some item := by
  cases item with
  | help name about =>
      obtain ⟨named, _⟩ : IsName name ∧ IsLine about := formed
      have absent : ' ' ∉ name := named.not_mem (by decide)
      rw [readItem, Item.write, List.append_assoc, stripPrefix_append]
      simp only [Text.splitOnce_append absent, Option.map_some]
  | kind name word =>
      obtain ⟨named, _⟩ : IsName name ∧ IsLine word := formed
      have absent : ' ' ∉ name := named.not_mem (by decide)
      have other : Text.stripPrefix helpMark (kindMark ++ (name ++ ' ' :: word)) =
          none := rfl
      rw [readItem, Item.write, List.append_assoc, other]
      simp only [stripPrefix_append, Text.splitOnce_append absent, Option.map_some]
  | sample row =>
      have noHelp : Text.stripPrefix helpMark row.write = none :=
        stripPrefix_eq_none_of_head rfl (Sample.WellFormed.head?_write formed)
      have noKind : Text.stripPrefix kindMark row.write = none :=
        stripPrefix_eq_none_of_head rfl (Sample.WellFormed.head?_write formed)
      rw [readItem, Item.write, noHelp]
      simp only [noKind, Sample.WellFormed.readSample_write formed, Option.map_some]

theorem Item.WellFormed.isLine_write {item : Item} (formed : item.WellFormed) :
    IsLine item.write := by
  cases item with
  | help name about =>
      obtain ⟨named, oneLine⟩ : IsName name ∧ IsLine about := formed
      have plain := named.isLine
      have mark : '\n' ∉ helpMark := by decide
      simp only [IsLine] at plain oneLine
      simp [Item.write, IsLine, mark, plain, oneLine]
  | kind name word =>
      obtain ⟨named, oneLine⟩ : IsName name ∧ IsLine word := formed
      have plain := named.isLine
      have mark : '\n' ∉ kindMark := by decide
      simp only [IsLine] at plain oneLine
      simp [Item.write, IsLine, mark, plain, oneLine]
  | sample row => exact Sample.WellFormed.isLine_write formed

/-- Well-formed items are read back from the text that was written of them. -/
theorem readItems_writeItems {items : List Item} (formed : ∀ item ∈ items, item.WellFormed) :
    readItems (writeItems items) = some items := by
  -- the fuel that reading starts with is the length of the text, of which each item takes some
  suffices general : ∀ fuel, (writeItems items).length ≤ fuel →
      readItemsFrom fuel (writeItems items) = some items from general _ le_rfl
  induction items with
  | nil =>
      intro fuel _
      cases fuel <;> rfl
  | cons item items inductionHypothesis =>
      intro fuel enough
      have written : writeItems (item :: items) = item.write ++ '\n' :: writeItems items := by
        simp [writeItems]
      rw [written] at enough ⊢
      have isFormed := formed item List.mem_cons_self
      simp only [List.length_append, List.length_cons] at enough
      obtain ⟨left, rfl⟩ : ∃ left, fuel = left + 1 := Nat.exists_eq_add_of_le' (by omega)
      have later := inductionHypothesis (fun item member =>
        formed item (List.mem_cons_of_mem _ member)) left (by omega)
      have line : Text.splitOnce '\n' (item.write ++ '\n' :: writeItems items) =
          some (item.write, writeItems items) := Text.splitOnce_append isFormed.isLine_write _
      obtain ⟨char, rest, isText⟩ :=
        List.exists_cons_of_ne_nil (List.append_ne_nil_of_right_ne_nil item.write
          (List.cons_ne_nil '\n' (writeItems items)))
      rw [isText] at line ⊢
      simp only [readItemsFrom, line, isFormed.readItem_write, later, Option.bind_eq_bind,
        Option.bind_some, Option.pure_def]

end Exposition
