import Mathlib.Data.Nat.Bitwise
import Rsdns.Library.Utf8

/-!
# Base64 for URLs

Three bytes are written as four symbols of six bits each, and what is left at the
end as two or three symbols; there is no padding.  The decoder takes in one symbol
after the other and gives out a byte as soon as it has eight bits.
-/

namespace Base64Url

def alphabet : Text :=
  "ABCDEFGHIJKLMNOPQRSTUVWXYZabcdefghijklmnopqrstuvwxyz0123456789-_".toList

def symbol (value : Nat) : Char := alphabet.getD value 'A'

def encode : List UInt8 → Text
  | [] => []
  | [first] => [symbol (first.toNat / 4), symbol (first.toNat % 4 * 16)]
  | [first, second] =>
      [symbol (first.toNat / 4), symbol (first.toNat % 4 * 16 + second.toNat / 16),
        symbol (second.toNat % 16 * 4)]
  | first :: second :: third :: rest =>
      symbol (first.toNat / 4) :: symbol (first.toNat % 4 * 16 + second.toNat / 16) ::
        symbol (second.toNat % 16 * 4 + third.toNat / 64) :: symbol (third.toNat % 64) ::
          encode rest

/-- The bits taken in so far in a word of 32, how many of them are not given out yet,
and the bytes given out. -/
structure Accumulator where
  bits : Nat
  nbits : Nat
  out : List UInt8
  deriving DecidableEq

def table : List UInt8 := Utf8.encode alphabet

def push (acc : Accumulator) (byte : UInt8) : Option Accumulator := do
  let value ← table.idxOf? byte
  let bits := acc.bits <<< 6 % 2 ^ 32 ||| value
  let nbits := acc.nbits + 6
  if nbits ≥ 8 then
    return ⟨bits, nbits - 8, acc.out ++ [UInt8.ofNat (bits >>> (nbits - 8))]⟩
  else
    return ⟨bits, nbits, acc.out⟩

def decode (text : List UInt8) : Option (List UInt8) :=
  if text = [] ∨ text.length % 4 = 1 ∨ ¬ text.all table.contains then none
  else
    (text.foldlM push ⟨0, 0, []⟩).bind fun acc =>
      if acc.nbits > 0 ∧ acc.bits &&& (1 <<< acc.nbits - 1) ≠ 0 then none else some acc.out

/-! ### Symbols -/

def symbolByte (value : Nat) : UInt8 := UInt8.ofNat (symbol value).toNat

theorem symbol_mem {value : Nat} (small : value < 64) : symbol value ∈ alphabet := by
  have length : alphabet.length = 64 := by decide +kernel
  rw [symbol, List.getD_eq_getElem _ _ (by omega)]
  exact List.getElem_mem _

theorem ascii_of_mem {char : Char} (member : char ∈ alphabet) : char.toNat < 128 := by
  have all : (alphabet.all fun char => char.toNat < 128) = true := by decide +kernel
  simpa using List.all_eq_true.mp all char member

theorem idxOf_symbolByte {value : Nat} (small : value < 64) :
    table.idxOf? (symbolByte value) = some value := by
  have all : ∀ value : Fin 64, table.idxOf? (symbolByte value) = some value.val := by
    decide +kernel
  exact all ⟨value, small⟩

theorem encode_symbol_cons {value : Nat} (small : value < 64) (rest : Text) :
    Utf8.encode (symbol value :: rest) = symbolByte value :: Utf8.encode rest := by
  rw [Utf8.encode_cons, Utf8.utf8EncodeChar_of_ascii (ascii_of_mem (symbol_mem small))]
  rfl

theorem shift_or_eq (bits : Nat) {value : Nat} (small : value < 64) :
    (bits <<< 6 % 2 ^ 32 ||| value) = bits * 64 % 2 ^ 32 + value := by
  have room : bits <<< 6 % 2 ^ 32 = 2 ^ 6 * (bits % 2 ^ 26) := by
    rw [Nat.shiftLeft_eq]
    omega
  rw [room, ← Nat.two_pow_add_eq_or_of_lt small]
  omega

/-! ### Taking in and giving out -/

theorem push_first (bits : Nat) (out : List UInt8) {value : Nat} (small : value < 64) :
    push ⟨bits, 0, out⟩ (symbolByte value) = some ⟨bits * 64 % 2 ^ 32 + value, 6, out⟩ := by
  simp only [push, idxOf_symbolByte small, shift_or_eq bits small, Option.bind_eq_bind,
    Option.bind_some]
  rfl

theorem push_later {bits nbits value : Nat} (out : List UInt8) (byte : UInt8)
    (small : value < 64) (enough : 2 ≤ nbits)
    (completes : (bits * 64 % 2 ^ 32 + value) / 2 ^ (nbits - 2) % 256 = byte.toNat) :
    push ⟨bits, nbits, out⟩ (symbolByte value) =
      some ⟨bits * 64 % 2 ^ 32 + value, nbits - 2, out ++ [byte]⟩ := by
  have ready : nbits + 6 ≥ 8 := by omega
  have rest : nbits + 6 - 8 = nbits - 2 := by omega
  have given : UInt8.ofNat ((bits * 64 % 2 ^ 32 + value) / 2 ^ (nbits - 2)) = byte := by
    rw [← UInt8.toNat_inj, UInt8.toNat_ofNat']
    exact completes
  simp only [push, idxOf_symbolByte small, shift_or_eq bits small, Option.bind_eq_bind,
    Option.bind_some]
  rw [if_pos ready, rest, Nat.shiftRight_eq_div_pow, given]
  rfl

theorem foldlM_first (bits : Nat) (out : List UInt8) {value : Nat} (small : value < 64)
    (rest : Text) :
    (Utf8.encode (symbol value :: rest)).foldlM push ⟨bits, 0, out⟩ =
      (Utf8.encode rest).foldlM push ⟨bits * 64 % 2 ^ 32 + value, 6, out⟩ := by
  rw [encode_symbol_cons small, List.foldlM_cons, push_first bits out small, Option.bind_eq_bind,
    Option.bind_some]

theorem foldlM_later {bits nbits value : Nat} (out : List UInt8) (byte : UInt8)
    (small : value < 64) (enough : 2 ≤ nbits)
    (completes : (bits * 64 % 2 ^ 32 + value) / 2 ^ (nbits - 2) % 256 = byte.toNat)
    (rest : Text) :
    (Utf8.encode (symbol value :: rest)).foldlM push ⟨bits, nbits, out⟩ =
      (Utf8.encode rest).foldlM push
        ⟨bits * 64 % 2 ^ 32 + value, nbits - 2, out ++ [byte]⟩ := by
  rw [encode_symbol_cons small, List.foldlM_cons, push_later out byte small enough completes,
    Option.bind_eq_bind, Option.bind_some]

/-! ### What is written -/

theorem length_encode_mod (bytes : List UInt8) : (encode bytes).length % 4 ≠ 1 := by
  induction bytes using encode.induct with
  | case1 => simp [encode]
  | case2 first => simp [encode]
  | case3 first second => simp [encode]
  | case4 first second third rest inductionHypothesis =>
      simp only [encode, List.length_cons]
      omega

theorem encode_ne_nil {bytes : List UInt8} (nonempty : bytes ≠ []) : encode bytes ≠ [] := by
  cases bytes using encode.induct <;> simp_all [encode]

end Base64Url
