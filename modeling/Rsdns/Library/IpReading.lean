import Rsdns.Library.IpText

/-!
# What the readers of addresses take

Each reader takes a front of the text off, made of digits and separators.  What a reader
of IPv4 addresses has taken it takes again when more follows, as long as that does not
begin with a digit.
-/

namespace IpText

/-! ### Fronts -/

/-- The text up to the rest is read, and all characters in it are allowed. -/
def Reads (allowed : Char → Prop) (text rest : Text) : Prop :=
  ∃ front, text = front ++ rest ∧ ∀ char ∈ front, allowed char

namespace Reads

variable {allowed : Char → Prop} {text middle rest : Text}

theorem refl (text : Text) : Reads allowed text text := ⟨[], rfl, by simp⟩

theorem trans (first : Reads allowed text middle) (second : Reads allowed middle rest) :
    Reads allowed text rest := by
  obtain ⟨front, rfl, inFront⟩ := first
  obtain ⟨back, rfl, inBack⟩ := second
  refine ⟨front ++ back, (List.append_assoc _ _ _).symm, fun char member => ?_⟩
  exact (List.mem_append.mp member).elim (inFront char) (inBack char)

theorem cons {char : Char} (isAllowed : allowed char) (later : Reads allowed text rest) :
    Reads allowed (char :: text) rest := by
  obtain ⟨front, rfl, inFront⟩ := later
  exact ⟨char :: front, rfl, List.forall_mem_cons.mpr ⟨isAllowed, inFront⟩⟩

theorem mono {more : Char → Prop} (implies : ∀ char, allowed char → more char)
    (reads : Reads allowed text rest) : Reads more text rest := by
  obtain ⟨front, whole, inFront⟩ := reads
  exact ⟨front, whole, fun char member => implies char (inFront char member)⟩

theorem forall_mem (reads : Reads allowed text []) : ∀ char ∈ text, allowed char := by
  obtain ⟨front, rfl, inFront⟩ := reads
  rwa [List.append_nil]

end Reads

/-- A reader takes nothing but allowed characters. -/
def Takes {α : Type} (allowed : Char → Prop) (reader : Text → Option (α × Text)) : Prop :=
  ∀ text value rest, reader text = some (value, rest) → Reads allowed text rest

def IsDigit (radix : Nat) (char : Char) : Prop := (toDigit radix char).isSome = true

def IsIpv4Char (char : Char) : Prop := IsDigit 10 char ∨ char = '.'

def IsIpChar (char : Char) : Prop := IsDigit 16 char ∨ char = '.' ∨ char = ':'

theorem IsDigit.hexadecimal {char : Char} (decimal : IsDigit 10 char) : IsDigit 16 char := by
  unfold IsDigit toDigit at *
  dsimp only at *
  obtain ⟨digit, isDigit⟩ := Option.isSome_iff_exists.mp decimal
  obtain ⟨value, below⟩ := Option.filter_eq_some_iff.mp isDigit
  rw [value, Option.filter_some_pos]
  · rfl
  · simp only [decide_eq_true_eq] at below ⊢
    omega

theorem IsIpv4Char.isIpChar {char : Char} (isIpv4 : IsIpv4Char char) : IsIpChar char := by
  rcases isIpv4 with digit | dot
  · exact .inl digit.hexadecimal
  · exact .inr (.inl dot)

theorem IsDigit.isAlphanum {radix : Nat} {char : Char} (digit : IsDigit radix char) :
    char.isAlphanum = true := by
  unfold IsDigit toDigit at digit
  dsimp only at digit
  obtain ⟨value, isValue⟩ := Option.isSome_iff_exists.mp digit
  obtain ⟨unfiltered, _⟩ := Option.filter_eq_some_iff.mp isValue
  rw [Text.isAlphanum_iff_toNat]
  split at unfiltered
  · next decimal => exact .inr decimal
  · split at unfiltered
    · next small => exact .inl (.inr small)
    · split at unfiltered
      · next large => exact .inl (.inl large)
      · cases unfiltered

theorem IsIpChar.plain {char : Char} (isIp : IsIpChar char) :
    Text.isWhitespace char = false ∧ char ≠ '/' ∧ char.toNat < 128 := by
  rcases isIp with digit | rfl | rfl
  · have isPlain := digit.isAlphanum
    refine ⟨Text.isWhitespace_of_isAlphanum isPlain, ?_, ?_⟩
    · rintro rfl
      cases isPlain
    · rw [Text.isAlphanum_iff_toNat] at isPlain
      omega
  · exact ⟨by decide, by decide, by decide⟩
  · exact ⟨by decide, by decide, by decide⟩

theorem reads_readDigits (radix : Nat) (text : Text) :
    Reads (IsDigit radix) text (readDigits radix text).2 := by
  induction text with
  | nil => exact .refl []
  | cons char text inductionHypothesis =>
      unfold readDigits
      cases found : toDigit radix char with
      | none => exact .refl _
      | some digit => exact .cons (Option.isSome_of_eq_some found) inductionHypothesis

theorem readNumber_eq_some_iff {radix maxDigits bound value : Nat} {allowZeroPrefix : Bool}
    {text rest : Text} :
    readNumber radix maxDigits allowZeroPrefix bound text = some (value, rest) ↔
      ∃ digits, readDigits radix text = (digits, rest) ∧
        digits.length ≤ maxDigits ∧ digits.length ≠ 0 ∧
        ¬ (!allowZeroPrefix ∧ text.head? = some '0' ∧ digits.length > 1) ∧
        digits.foldl (fun number digit => number * radix + digit) 0 = value ∧ value < bound := by
  unfold readNumber
  generalize readDigits radix text = read
  obtain ⟨digits, left⟩ := read
  simp only [Option.ite_none_left_eq_some, Option.ite_none_right_eq_some, Option.some.injEq,
    Prod.mk.injEq]
  constructor
  · rintro ⟨few, some_, plain, small, rfl, rfl⟩
    exact ⟨digits, ⟨rfl, rfl⟩, by omega, some_, plain, rfl, small⟩
  · rintro ⟨_, ⟨rfl, rfl⟩, few, some_, plain, rfl, small⟩
    exact ⟨by omega, some_, plain, small, rfl, rfl⟩

theorem takes_readNumber (radix maxDigits : Nat) (allowZeroPrefix : Bool) (bound : Nat) :
    Takes (IsDigit radix) (readNumber radix maxDigits allowZeroPrefix bound) := by
  intro text value rest read
  obtain ⟨digits, readAll, _⟩ := readNumber_eq_some_iff.mp read
  have front := reads_readDigits radix text
  rwa [readAll] at front

theorem reads_readGivenChar {allowed : Char → Prop} {target : Char} (isAllowed : allowed target)
    {text rest : Text} (read : readGivenChar target text = some rest) :
    Reads allowed text rest := by
  cases text with
  | nil => cases read
  | cons char text =>
      unfold readGivenChar at read
      obtain ⟨rfl, same⟩ := Option.ite_none_right_eq_some.mp read
      cases same
      exact .cons isAllowed (.refl _)

theorem Takes.readSeparator {α : Type} {allowed : Char → Prop} {separator : Char}
    (isAllowed : allowed separator) {inner : Text → Option (α × Text)}
    (takes : Takes allowed inner) (index : Nat) :
    Takes allowed (readSeparator separator index inner) := by
  intro text value rest read
  unfold IpText.readSeparator at read
  split at read
  · obtain ⟨middle, given, later⟩ := Option.bind_eq_some_iff.mp read
    exact (reads_readGivenChar isAllowed given).trans (takes _ _ _ later)
  · exact takes _ _ _ read

/-! ### Addresses -/

theorem takes_readOctets (missing index : Nat) :
    Takes IsIpv4Char (readOctets missing index) := by
  induction missing generalizing index with
  | zero =>
      intro text octets rest read
      cases read
      exact .refl _
  | succ missing inductionHypothesis =>
      intro text octets rest read
      unfold readOctets at read
      obtain ⟨⟨octet, middle⟩, first, later⟩ := Option.bind_eq_some_iff.mp read
      obtain ⟨⟨others, last⟩, second, same⟩ := Option.bind_eq_some_iff.mp later
      cases same
      have number : Takes IsIpv4Char (readNumber 10 3 false 256) := fun text value rest read =>
        (takes_readNumber 10 3 false 256 text value rest read).mono fun char digit => .inl digit
      have octetRead := number.readSeparator (.inr rfl) index _ _ _ first
      exact octetRead.trans (inductionHypothesis _ _ _ _ second)

theorem takes_readIpv4Addr : Takes IsIpv4Char readIpv4Addr := by
  intro text ip rest read
  obtain ⟨⟨octets, last⟩, found, same⟩ := Option.map_eq_some_iff.mp read
  cases same
  exact takes_readOctets 4 0 _ _ _ found

theorem reads_readGroups (missing index : Nat) (text : Text) :
    Reads IsIpChar text (readGroups missing index text).2.2 := by
  induction missing generalizing index text with
  | zero => exact .refl _
  | succ missing inductionHypothesis =>
      have embedded : Takes IsIpChar readIpv4Addr := fun text ip rest read =>
        (takes_readIpv4Addr text ip rest read).mono fun char => IsIpv4Char.isIpChar
      have number : Takes IsIpChar (readNumber 16 4 true (2 ^ 16)) := fun text value rest read =>
        (takes_readNumber 16 4 true (2 ^ 16) text value rest read).mono fun char digit => .inl digit
      unfold readGroups
      dsimp only
      split
      · next address rest found =>
          split at found
          · exact embedded.readSeparator (.inr (.inr rfl)) index _ _ _ found
          · cases found
      · split
        · next group rest found =>
            have groupRead := number.readSeparator (.inr (.inr rfl)) index _ _ _ found
            exact groupRead.trans (inductionHypothesis _ _)
        · exact .refl _

theorem takes_readIpv6Addr : Takes IsIpChar readIpv6Addr := by
  intro text ip rest read
  have headRead := reads_readGroups 8 0 text
  unfold readIpv6Addr at read
  dsimp only at read
  split at read
  · cases read
    exact headRead
  split at read
  · cases read
  obtain ⟨first, firstColon, later⟩ := Option.bind_eq_some_iff.mp read
  obtain ⟨second, secondColon, same⟩ := Option.bind_eq_some_iff.mp later
  cases same
  have colon : IsIpChar ':' := .inr (.inr rfl)
  have colons := (reads_readGivenChar colon firstColon).trans
    (reads_readGivenChar colon secondColon)
  exact headRead.trans (colons.trans (reads_readGroups _ 0 second))

/-! ### Reading on -/

/-- More text that does not begin with a digit. -/
def Stops (radix : Nat) (rest : Text) : Prop := ∀ char ∈ rest.head?, toDigit radix char = none

theorem readDigits_append {radix : Nat} {rest : Text} (stops : Stops radix rest) (text : Text) :
    readDigits radix (text ++ rest) =
      ((readDigits radix text).1, (readDigits radix text).2 ++ rest) := by
  induction text with
  | nil =>
      cases rest with
      | nil => rfl
      | cons char rest =>
          simp only [List.nil_append, readDigits, stops char rfl]
  | cons char text inductionHypothesis =>
      rw [List.cons_append, readDigits, readDigits]
      cases toDigit radix char with
      | none => rfl
      | some digit => simp only [inductionHypothesis]

theorem readNumber_append {radix maxDigits bound : Nat} {allowZeroPrefix : Bool} {rest : Text}
    (stops : Stops radix rest) {text tail : Text} {value : Nat}
    (read : readNumber radix maxDigits allowZeroPrefix bound text = some (value, tail)) :
    readNumber radix maxDigits allowZeroPrefix bound (text ++ rest) =
      some (value, tail ++ rest) := by
  obtain ⟨digits, readAll, few, some_, plain, isValue, small⟩ := readNumber_eq_some_iff.mp read
  have nonempty : text ≠ [] := by
    rintro rfl
    cases readAll
    exact some_ rfl
  refine readNumber_eq_some_iff.mpr ⟨digits, ?_, few, some_, ?_, isValue, small⟩
  · rw [readDigits_append stops, readAll]
  · rwa [List.head?_append_of_ne_nil _ nonempty]

theorem readGivenChar_append {target : Char} {text tail : Text}
    (read : readGivenChar target text = some tail) (rest : Text) :
    readGivenChar target (text ++ rest) = some (tail ++ rest) := by
  cases text with
  | nil => cases read
  | cons char text =>
      obtain ⟨same, isTail⟩ := Option.ite_none_right_eq_some.mp read
      cases isTail
      rw [List.cons_append, readGivenChar, if_pos same]

/-- What is read stays read where this text follows. -/
def Extends {α : Type} (reader : Text → Option (α × Text)) (rest : Text) : Prop :=
  ∀ text value tail, reader text = some (value, tail) →
    reader (text ++ rest) = some (value, tail ++ rest)

theorem Extends.readSeparator {α : Type} {inner : Text → Option (α × Text)} {rest : Text}
    (more : Extends inner rest) (separator : Char) (index : Nat) :
    Extends (readSeparator separator index inner) rest := by
  intro text value tail read
  unfold IpText.readSeparator at read ⊢
  split at read
  · next later =>
      obtain ⟨middle, given, found⟩ := Option.bind_eq_some_iff.mp read
      rw [if_pos later, readGivenChar_append given, Option.bind_some, more _ _ _ found]
  · next first => rw [if_neg first, more _ _ _ read]

theorem extends_readOctets {rest : Text} (stops : Stops 10 rest) (missing index : Nat) :
    Extends (readOctets missing index) rest := by
  induction missing generalizing index with
  | zero =>
      intro text octets tail read
      cases read
      rfl
  | succ missing inductionHypothesis =>
      intro text octets tail read
      unfold readOctets at read ⊢
      obtain ⟨⟨octet, middle⟩, first, later⟩ := Option.bind_eq_some_iff.mp read
      obtain ⟨⟨others, last⟩, second, same⟩ := Option.bind_eq_some_iff.mp later
      cases same
      have number : Extends (readNumber 10 3 false 256) rest := fun _ _ _ =>
        readNumber_append stops
      rw [number.readSeparator '.' index _ _ _ first]
      simp only [Option.bind_eq_bind, Option.bind_some, inductionHypothesis _ _ _ _ second]
      rfl

theorem extends_readIpv4Addr {rest : Text} (stops : Stops 10 rest) :
    Extends readIpv4Addr rest := by
  intro text ip tail read
  obtain ⟨⟨octets, last⟩, found, same⟩ := Option.map_eq_some_iff.mp read
  cases same
  rw [readIpv4Addr, extends_readOctets stops 4 0 _ _ _ found]
  rfl

end IpText
