import Rsdns.Library.Utf8

/-!
# Percent escapes

A character of a URL may be written as `%` and the two hexadecimal digits of its byte.
Reading such text back undoes every choice of escapes, as long as no character of the
plain text is a `%` itself.
-/

namespace Percent

def mark : UInt8 := UInt8.ofNat '%'.toNat

def hexVal (digit : UInt8) : Option UInt8 :=
  if 48 ≤ digit ∧ digit ≤ 57 then some (digit - 48)
  else if 97 ≤ digit ∧ digit ≤ 102 then some (digit - 97 + 10)
  else if 65 ≤ digit ∧ digit ≤ 70 then some (digit - 65 + 10)
  else none

def hexByte (high low : UInt8) : Option UInt8 := do
  let high ← hexVal high
  let low ← hexVal low
  return high <<< 4 ||| low

/-- Read escapes back; a mark without two digits behind it is left as it is. -/
def decode : List UInt8 → List UInt8
  | [] => []
  | [byte] => [byte]
  | [first, second] => [first, second]
  | first :: second :: third :: rest =>
      if first = mark then
        match hexByte second third with
        | some byte => byte :: decode rest
        | none => first :: decode (second :: third :: rest)
      else first :: decode (second :: third :: rest)

/-- The byte of the escape in front, if there is one. -/
def escaped : List UInt8 → Option UInt8
  | first :: second :: third :: _ => if first = mark then hexByte second third else none
  | _ => none

theorem decode_cons (byte : UInt8) (rest : List UInt8) :
    decode (byte :: rest) =
      match escaped (byte :: rest) with
      | some value => value :: decode (rest.drop 2)
      | none => byte :: decode rest := by
  match rest with
  | [] => rfl
  | [_] => rfl
  | second :: third :: rest =>
      rw [decode, escaped]
      split
      · rfl
      · rfl

theorem decode_cons_of_ne {byte : UInt8} (other : byte ≠ mark) (rest : List UInt8) :
    decode (byte :: rest) = byte :: decode rest := by
  match rest with
  | [] => rfl
  | [_] => rfl
  | second :: third :: rest => rw [decode, if_neg other]

theorem decode_escape {high low byte : UInt8} (digits : hexByte high low = some byte)
    (rest : List UInt8) : decode (mark :: high :: low :: rest) = byte :: decode rest := by
  rw [decode, if_pos rfl, digits]

/-! ### Escaping -/

/-- The character is the hexadecimal digit of this value in lower or upper case. -/
def IsDigit (digit : Char) (value : Nat) : Prop :=
  "0123456789abcdef".toList[value]? = some digit ∨ "0123456789ABCDEF".toList[value]? = some digit

/-- The second text is the first one with some characters escaped. -/
inductive Escapes : Text → Text → Prop
  | nil : Escapes [] []
  | keep (char : Char) {plain written : Text} (rest : Escapes plain written) :
      Escapes (char :: plain) (char :: written)
  | escape {char high low : Char} {highValue lowValue : Nat} {plain written : Text}
      (isHigh : IsDigit high highValue) (isLow : IsDigit low lowValue)
      (byte : highValue * 16 + lowValue = char.toNat) (rest : Escapes plain written) :
      Escapes (char :: plain) ('%' :: high :: low :: written)

theorem Escapes.keepAll (kept : Text) {plain written : Text} (rest : Escapes plain written) :
    Escapes (kept ++ plain) (kept ++ written) := by
  induction kept with
  | nil => exact rest
  | cons char kept inductionHypothesis => exact .keep char inductionHypothesis

theorem IsDigit.lt {digit : Char} {value : Nat} (isDigit : IsDigit digit value) : value < 16 := by
  rcases isDigit with found | found
  · exact (List.getElem?_eq_some_iff.mp found).1
  · exact (List.getElem?_eq_some_iff.mp found).1

theorem IsDigit.mem {digit : Char} {value : Nat} (isDigit : IsDigit digit value) :
    digit ∈ "0123456789abcdefABCDEF".toList := by
  have lower : "0123456789abcdef".toList ⊆ "0123456789abcdefABCDEF".toList := by decide
  have upper : "0123456789ABCDEF".toList ⊆ "0123456789abcdefABCDEF".toList := by decide
  rcases isDigit with found | found
  · exact lower (List.mem_of_getElem? found)
  · exact upper (List.mem_of_getElem? found)

theorem IsDigit.ascii {digit : Char} {value : Nat} (isDigit : IsDigit digit value) :
    digit.toNat < 128 := by
  have all : ("0123456789abcdefABCDEF".toList.all fun digit => digit.toNat < 128) = true := by
    decide
  simpa using List.all_eq_true.mp all digit isDigit.mem

theorem hexVal_getElem? {digits : Text}
    (values : (digits.map fun digit => hexVal (UInt8.ofNat digit.toNat)) =
      (List.range 16).map fun value => some (UInt8.ofNat value))
    {digit : Char} {value : Nat} (found : digits[value]? = some digit) :
    hexVal (UInt8.ofNat digit.toNat) = some (UInt8.ofNat value) := by
  have atValue := congrArg (fun results => results[value]?) values
  simp only [List.getElem?_map, found, Option.map_some] at atValue
  obtain ⟨_, inRange, same⟩ := Option.map_eq_some_iff.mp atValue.symm
  obtain ⟨bound, rfl⟩ := List.getElem?_eq_some_iff.mp inRange
  rw [← same, List.getElem_range]

theorem IsDigit.hexVal {digit : Char} {value : Nat} (isDigit : IsDigit digit value) :
    Percent.hexVal (UInt8.ofNat digit.toNat) = some (UInt8.ofNat value) := by
  rcases isDigit with lower | upper
  · exact hexVal_getElem? (by decide) lower
  · exact hexVal_getElem? (by decide) upper

theorem hexByte_of_isDigit {high low : Char} {highValue lowValue : Nat}
    (isHigh : IsDigit high highValue) (isLow : IsDigit low lowValue) :
    hexByte (UInt8.ofNat high.toNat) (UInt8.ofNat low.toNat) =
      some (UInt8.ofNat (highValue * 16 + lowValue)) := by
  have bytes : ∀ high low : Fin 16,
      UInt8.ofNat high <<< 4 ||| UInt8.ofNat low = UInt8.ofNat (high * 16 + low) := by
    decide +kernel
  have byte := bytes ⟨highValue, isHigh.lt⟩ ⟨lowValue, isLow.lt⟩
  simp only [hexByte, isHigh.hexVal, isLow.hexVal, Option.bind_eq_bind, Option.bind_some]
  exact congrArg some byte

/-- Whichever characters are escaped, reading the text back gives the plain text. -/
theorem decode_of_escapes {plain written : Text} (escapes : Escapes plain written)
    (ascii : ∀ char ∈ plain, char.toNat < 128) (unmarked : '%' ∉ plain) :
    decode (Utf8.encode written) = Utf8.encode plain := by
  induction escapes with
  | nil => rfl
  | keep char rest inductionHypothesis =>
      obtain ⟨charAscii, restAscii⟩ := List.forall_mem_cons.mp ascii
      rw [List.mem_cons, not_or] at unmarked
      have other : UInt8.ofNat char.toNat ≠ mark := by
        intro same
        have codes := congrArg UInt8.toNat same
        rw [mark, UInt8.toNat_ofNat_of_lt' (charAscii.trans (by decide)),
          UInt8.toNat_ofNat_of_lt' (by decide)] at codes
        exact unmarked.1 (Char.toNat_inj.mp codes.symm)
      rw [Utf8.encode_cons, Utf8.encode_cons, Utf8.utf8EncodeChar_of_ascii charAscii,
        List.singleton_append, decode_cons_of_ne other, inductionHypothesis restAscii unmarked.2]
      rfl
  | escape isHigh isLow byte rest inductionHypothesis =>
      obtain ⟨charAscii, restAscii⟩ := List.forall_mem_cons.mp ascii
      rw [List.mem_cons, not_or] at unmarked
      rw [Utf8.encode_cons, Utf8.encode_cons, Utf8.encode_cons, Utf8.encode_cons,
        Utf8.utf8EncodeChar_of_ascii (by decide), Utf8.utf8EncodeChar_of_ascii isHigh.ascii,
        Utf8.utf8EncodeChar_of_ascii isLow.ascii, Utf8.utf8EncodeChar_of_ascii charAscii]
      have digits := hexByte_of_isDigit isHigh isLow
      rw [byte] at digits
      exact (decode_escape digits _).trans
        (congrArg (_ :: ·) (inductionHypothesis restAscii unmarked.2))

end Percent
