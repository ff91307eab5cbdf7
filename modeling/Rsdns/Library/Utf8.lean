import Mathlib.Data.List.Basic
import Rsdns.Library.Text

/-!
# UTF-8

Text is written as bytes by `encode`.  `decodeLossy` reads any bytes back: each
longest piece that could start a character but does not become one is read as
a single replacement character.  Bytes survive the detour exactly if they are
the encoding of some text.
-/

namespace Utf8

def encode (text : Text) : List UInt8 := text.flatMap String.utf8EncodeChar

def Valid (bytes : List UInt8) : Prop := ∃ text, bytes = encode text

def replacement : Char := '\uFFFD'

/-- A character begun: how many bytes it still needs, its bits so far, and the
range of the next byte. -/
structure Pending where
  owed : Nat
  code : Nat
  low : Nat
  high : Nat

/-- Read a byte at the start of a character. -/
def first (byte : Nat) : List Char × Option Pending :=
  if byte ≤ 0x7F then ([Char.ofNat byte], none)
  else if 0xC2 ≤ byte ∧ byte ≤ 0xDF then ([], some ⟨1, byte % 32, 0x80, 0xBF⟩)
  else if byte = 0xE0 then ([], some ⟨2, 0, 0xA0, 0xBF⟩)
  else if byte = 0xED then ([], some ⟨2, 13, 0x80, 0x9F⟩)
  else if 0xE1 ≤ byte ∧ byte ≤ 0xEF then ([], some ⟨2, byte % 16, 0x80, 0xBF⟩)
  else if byte = 0xF0 then ([], some ⟨3, 0, 0x90, 0xBF⟩)
  else if 0xF1 ≤ byte ∧ byte ≤ 0xF3 then ([], some ⟨3, byte % 8, 0x80, 0xBF⟩)
  else if byte = 0xF4 then ([], some ⟨3, 4, 0x80, 0x8F⟩)
  else ([replacement], none)

/-- Read one byte: the characters it completes and the character left open. -/
def step (pending : Option Pending) (byte : Nat) : List Char × Option Pending :=
  match pending with
  | none => first byte
  | some open_ =>
      if open_.low ≤ byte ∧ byte ≤ open_.high then
        let code := open_.code * 64 + byte % 64
        if open_.owed = 1 then ([Char.ofNat code], none)
        else ([], some ⟨open_.owed - 1, code, 0x80, 0xBF⟩)
      else
        -- The bytes so far are replaced, and this one starts afresh.
        (replacement :: (first byte).1, (first byte).2)

def decodeFrom : Option Pending → List UInt8 → Text
  | none, [] => []
  | some _, [] => [replacement]
  | pending, byte :: rest =>
      (step pending byte.toNat).1 ++ decodeFrom (step pending byte.toNat).2 rest

def decodeLossy (bytes : List UInt8) : Text := decodeFrom none bytes

theorem decodeFrom_cons (pending : Option Pending) (byte : UInt8) (rest : List UInt8) :
    decodeFrom pending (byte :: rest) =
      (step pending byte.toNat).1 ++ decodeFrom (step pending byte.toNat).2 rest := by
  cases pending <;> rfl

theorem ofNat_eq_of_toNat_eq (char : Char) {code : Nat} (same : code = char.toNat) :
    Char.ofNat code = char := by
  subst same
  exact Char.ofNat_toNat char

theorem toNat_valid (char : Char) :
    char.toNat < 0xD800 ∨ (0xDFFF < char.toNat ∧ char.toNat < 0x110000) :=
  char.valid

theorem toNat_continuation (code : Nat) :
    (UInt8.ofNat (code % 64 + 0x80)).toNat = code % 64 + 0x80 :=
  Nat.mod_eq_of_lt (by omega)

theorem decodeFrom_last {bits code low high : Nat} (lower : low ≤ code % 64 + 0x80)
    (upper : code % 64 + 0x80 ≤ high) (rest : List UInt8) :
    decodeFrom (some ⟨1, bits, low, high⟩) (UInt8.ofNat (code % 64 + 0x80) :: rest) =
      Char.ofNat (bits * 64 + code % 64) :: decodeFrom none rest := by
  have bits_eq : (code % 64 + 0x80) % 64 = code % 64 := by omega
  rw [decodeFrom_cons, toNat_continuation]
  simp [step, lower, upper, bits_eq]

theorem decodeFrom_more {owed bits code low high : Nat} (lower : low ≤ code % 64 + 0x80)
    (upper : code % 64 + 0x80 ≤ high) (rest : List UInt8) :
    decodeFrom (some ⟨owed + 2, bits, low, high⟩) (UInt8.ofNat (code % 64 + 0x80) :: rest) =
      decodeFrom (some ⟨owed + 1, bits * 64 + code % 64, 0x80, 0xBF⟩) rest := by
  have bits_eq : (code % 64 + 0x80) % 64 = code % 64 := by omega
  rw [decodeFrom_cons, toNat_continuation]
  simp [step, lower, upper, bits_eq]

theorem decodeFrom_first {byte : Nat} (small : byte < 256) {next : Pending}
    (opened : first byte = ([], some next)) (rest : List UInt8) :
    decodeFrom none (UInt8.ofNat byte :: rest) = decodeFrom (some next) rest := by
  have byte_eq : (UInt8.ofNat byte).toNat = byte := Nat.mod_eq_of_lt small
  simp [decodeFrom_cons, step, byte_eq, opened]

theorem decode_two {char : Char} (above : ¬ char.toNat ≤ 0x7F)
    (two : char.toNat ≤ 0x7FF) (rest : List UInt8) :
    decodeFrom none (UInt8.ofNat (char.toNat / 64 % 0x20 + 0xC0) ::
        UInt8.ofNat (char.toNat % 0x40 + 0x80) :: rest) =
      char :: decodeFrom none rest := by
  have opened : first (char.toNat / 64 % 0x20 + 0xC0) =
      ([], some ⟨1, char.toNat / 64, 0x80, 0xBF⟩) := by
    have bits : (char.toNat / 64 % 0x20 + 0xC0) % 32 = char.toNat / 64 := by omega
    rw [first, if_neg (by omega), if_pos (by omega), bits]
  rw [decodeFrom_first (by omega) opened, decodeFrom_last (by omega) (by omega),
    ofNat_eq_of_toNat_eq char (by omega)]

theorem decode_three {char : Char} (above : ¬ char.toNat ≤ 0x7FF)
    (three : char.toNat ≤ 0xFFFF) (rest : List UInt8) :
    decodeFrom none (UInt8.ofNat (char.toNat / 4096 % 0x10 + 0xE0) ::
        UInt8.ofNat (char.toNat / 64 % 0x40 + 0x80) ::
        UInt8.ofNat (char.toNat % 0x40 + 0x80) :: rest) =
      char :: decodeFrom none rest := by
  have valid := toNat_valid char
  -- The second byte's range depends on the first: no overlong form, no surrogate.
  obtain ⟨low, high, opened, lower, upper⟩ : ∃ low high,
      first (char.toNat / 4096 % 0x10 + 0xE0) =
        ([], some ⟨2, char.toNat / 4096, low, high⟩) ∧
      low ≤ char.toNat / 64 % 64 + 0x80 ∧ char.toNat / 64 % 64 + 0x80 ≤ high := by
    by_cases zero : char.toNat / 4096 = 0
    · refine ⟨0xA0, 0xBF, ?_, by omega, by omega⟩
      simp [first, zero]
    · by_cases thirteen : char.toNat / 4096 = 13
      · refine ⟨0x80, 0x9F, ?_, by omega, by omega⟩
        simp [first, thirteen]
      · refine ⟨0x80, 0xBF, ?_, by omega, by omega⟩
        have bits : (char.toNat / 4096 % 0x10 + 0xE0) % 16 = char.toNat / 4096 := by omega
        rw [first, if_neg (by omega), if_neg (by omega), if_neg (by omega),
          if_neg (by omega), if_pos (by omega), bits]
  rw [decodeFrom_first (by omega) opened, decodeFrom_more lower upper,
    decodeFrom_last (by omega) (by omega), ofNat_eq_of_toNat_eq char (by omega)]

theorem decode_four {char : Char} (above : ¬ char.toNat ≤ 0xFFFF) (rest : List UInt8) :
    decodeFrom none (UInt8.ofNat (char.toNat / 262144 % 0x08 + 0xF0) ::
        UInt8.ofNat (char.toNat / 4096 % 0x40 + 0x80) ::
        UInt8.ofNat (char.toNat / 64 % 0x40 + 0x80) ::
        UInt8.ofNat (char.toNat % 0x40 + 0x80) :: rest) =
      char :: decodeFrom none rest := by
  have valid := toNat_valid char
  obtain ⟨low, high, opened, lower, upper⟩ : ∃ low high,
      first (char.toNat / 262144 % 0x08 + 0xF0) =
        ([], some ⟨3, char.toNat / 262144, low, high⟩) ∧
      low ≤ char.toNat / 4096 % 64 + 0x80 ∧ char.toNat / 4096 % 64 + 0x80 ≤ high := by
    by_cases zero : char.toNat / 262144 = 0
    · refine ⟨0x90, 0xBF, ?_, by omega, by omega⟩
      simp [first, zero]
    · by_cases four : char.toNat / 262144 = 4
      · refine ⟨0x80, 0x8F, ?_, by omega, by omega⟩
        simp [first, four]
      · refine ⟨0x80, 0xBF, ?_, by omega, by omega⟩
        have bits : (char.toNat / 262144 % 0x08 + 0xF0) % 8 = char.toNat / 262144 := by omega
        rw [first, if_neg (by omega), if_neg (by omega), if_neg (by omega),
          if_neg (by omega), if_neg (by omega), if_neg (by omega), if_pos (by omega), bits]
  rw [decodeFrom_first (by omega) opened, decodeFrom_more lower upper,
    decodeFrom_more (by omega) (by omega), decodeFrom_last (by omega) (by omega),
    ofNat_eq_of_toNat_eq char (by omega)]

theorem decodeFrom_encodeChar (char : Char) (rest : List UInt8) :
    decodeFrom none (String.utf8EncodeChar char ++ rest) = char :: decodeFrom none rest := by
  have code : char.val.toNat = char.toNat := rfl
  unfold String.utf8EncodeChar
  simp only [code]
  split
  · next one =>
      have byte : (UInt8.ofNat char.toNat).toNat = char.toNat :=
        Nat.mod_eq_of_lt (by omega)
      simp [decodeFrom_cons, step, first, byte, one, Char.ofNat_toNat]
  · next above =>
      split
      · next two => exact decode_two above two rest
      · next above =>
          split
          · next three => exact decode_three above three rest
          · next above => exact decode_four above rest

/-- Encoded text reads back as itself. -/
@[simp]
theorem decodeLossy_encode (text : Text) : decodeLossy (encode text) = text := by
  induction text with
  | nil => rfl
  | cons char text inductionHypothesis =>
      change decodeFrom none (String.utf8EncodeChar char ++ encode text) = _
      rw [decodeFrom_encodeChar]
      exact congrArg (char :: ·) inductionHypothesis

/-! ### Bytes of one character -/

@[simp]
theorem encode_append (front back : Text) : encode (front ++ back) = encode front ++ encode back :=
  List.flatMap_append

theorem encode_cons (char : Char) (text : Text) :
    encode (char :: text) = String.utf8EncodeChar char ++ encode text := rfl

theorem length_encode (text : Text) : (encode text).length = text.byteLen := by
  induction text with
  | nil => rfl
  | cons char text inductionHypothesis =>
      rw [encode_cons, List.length_append, String.length_utf8EncodeChar, inductionHypothesis]
      rfl

theorem encode_injective {first second : Text} (same : encode first = encode second) :
    first = second := by
  have back := congrArg decodeLossy same
  simpa using back

theorem encode_eq_nil_iff {text : Text} : encode text = [] ↔ text = [] := by
  constructor
  · intro empty
    exact encode_injective empty
  · rintro rfl
    rfl

theorem length_encode_lt_iff {first second text : Text} (firstFront : first <+: text)
    (secondFront : second <+: text) :
    (encode first).length < (encode second).length ↔ first.length < second.length := by
  have longer : ∀ {short long : Text}, short <+: long →
      (short.length < long.length ↔ (encode short).length < (encode long).length) := by
    rintro short _ ⟨rest, rfl⟩
    have empty := @encode_eq_nil_iff rest
    simp only [encode_append, List.length_append, Nat.lt_add_right_iff_pos, List.length_pos_iff,
      ne_eq, empty]
  rcases List.prefix_or_prefix_of_prefix firstFront secondFront with inSecond | inFirst
  · exact (longer inSecond).symm
  · have notLonger := inFirst.length_le
    have bytesNotLonger : (encode second).length ≤ (encode first).length := by
      obtain ⟨rest, rfl⟩ := inFirst
      simp
    omega

theorem utf8EncodeChar_of_ascii {char : Char} (ascii : char.toNat < 128) :
    String.utf8EncodeChar char = [UInt8.ofNat char.toNat] := by
  have code : char.val.toNat = char.toNat := rfl
  unfold String.utf8EncodeChar
  simp only [code]
  rw [if_pos (by omega)]

theorem le_of_mem_utf8EncodeChar {char : Char} (wide : 128 ≤ char.toNat) {byte : UInt8}
    (member : byte ∈ String.utf8EncodeChar char) : 128 ≤ byte.toNat := by
  have code : char.val.toNat = char.toNat := rfl
  unfold String.utf8EncodeChar at member
  simp only [code] at member
  rw [if_neg (by omega)] at member
  split at member
  · rcases List.mem_pair.mp member with rfl | rfl <;> simp <;> omega
  · split at member
    · simp only [List.mem_cons, List.not_mem_nil, or_false] at member
      rcases member with rfl | rfl | rfl <;> simp <;> omega
    · simp only [List.mem_cons, List.not_mem_nil, or_false] at member
      rcases member with rfl | rfl | rfl | rfl <;> simp <;> omega

theorem encode_eq_append_cons_iff {mark : Char} (ascii : mark.toNat < 128) {text : Text}
    {front back : List UInt8} :
    encode text = front ++ UInt8.ofNat mark.toNat :: back ↔
      ∃ before after, text = before ++ mark :: after ∧ encode before = front ∧
        encode after = back := by
  have markByte : (UInt8.ofNat mark.toNat).toNat = mark.toNat := Nat.mod_eq_of_lt (by omega)
  constructor
  · intro cut
    induction text generalizing front with
    | nil => exact absurd cut (by simp [encode])
    | cons char text inductionHypothesis =>
        rw [encode_cons] at cut
        rcases List.append_eq_append_iff.mp cut with ⟨middle, rfl, rest⟩ | ⟨middle, whole, rest⟩
        · obtain ⟨before, after, rfl, rfl, rfl⟩ := inductionHypothesis rest
          exact ⟨char :: before, after, rfl, rfl, rfl⟩
        · cases middle with
          | nil =>
              have start : encode text = [] ++ UInt8.ofNat mark.toNat :: back := rest.symm
              obtain ⟨before, after, rfl, empty, rfl⟩ := inductionHypothesis start
              rw [List.append_nil] at whole
              refine ⟨char :: before, after, rfl, ?_, rfl⟩
              rw [encode_cons, empty, List.append_nil, whole]
          | cons byte middle =>
              obtain ⟨rfl, rfl⟩ := List.cons.inj rest
              have member : UInt8.ofNat mark.toNat ∈ String.utf8EncodeChar char := by
                rw [whole]
                simp
              have narrow : char.toNat < 128 := by
                by_contra wide
                have high := le_of_mem_utf8EncodeChar (Nat.le_of_not_lt wide) member
                omega
              rw [utf8EncodeChar_of_ascii narrow] at whole member
              obtain ⟨rfl, same⟩ : front = [] ∧ middle = [] := by
                have length := congrArg List.length whole
                simp only [List.length_append, List.length_cons, List.length_nil] at length
                exact ⟨List.eq_nil_of_length_eq_zero (by omega),
                  List.eq_nil_of_length_eq_zero (by omega)⟩
              subst same
              have code := congrArg UInt8.toNat (List.mem_singleton.mp member)
              have charByte : (UInt8.ofNat char.toNat).toNat = char.toNat :=
                Nat.mod_eq_of_lt (by omega)
              rw [markByte, charByte] at code
              have equal : char = mark := by
                rw [← Char.ofNat_toNat char, ← Char.ofNat_toNat mark, code]
              subst equal
              exact ⟨[], text, rfl, rfl, rfl⟩
  · rintro ⟨before, after, rfl, rfl, rfl⟩
    rw [encode_append, encode_cons, utf8EncodeChar_of_ascii ascii]
    rfl

/-- Reading bytes as text loses nothing exactly if they are valid. -/
theorem encode_decodeLossy_eq_iff (bytes : List UInt8) :
    encode (decodeLossy bytes) = bytes ↔ Valid bytes := by
  constructor
  · intro kept
    exact ⟨decodeLossy bytes, kept.symm⟩
  · intro valid
    obtain ⟨text, rfl⟩ := valid
    rw [decodeLossy_encode]

theorem map_encode_decodeLossy_eq_iff (strings : List (List UInt8)) :
    (strings.map decodeLossy).map encode = strings ↔ ∀ string ∈ strings, Valid string := by
  induction strings with
  | nil => simp
  | cons string strings inductionHypothesis =>
      rw [List.map_cons, List.map_cons, List.cons.injEq, encode_decodeLossy_eq_iff,
        inductionHypothesis, List.forall_mem_cons]

end Utf8
