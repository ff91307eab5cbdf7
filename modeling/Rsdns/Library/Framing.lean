import Mathlib.Algebra.Ring.Nat
import Mathlib.Data.List.Basic

/-!
# Messages behind their length

A message on a byte stream stands behind two bytes with its length, the higher one first.
A reader that takes as many bytes as they say finds the message again, unless it was too
long for its length to be written.
-/

namespace Framing

abbrev Bytes := List UInt8

def lengthBound : Nat := 2 ^ 16

/-- The two bytes of a length, as far as it fits into them. -/
def lengthBytes (length : Nat) : Bytes := [UInt8.ofNat (length / 256), UInt8.ofNat length]

def readLength (bytes : Bytes) : Nat := bytes.foldl (fun length byte => length * 256 + byte.toNat) 0

def frame (message : Bytes) : Bytes := lengthBytes message.length ++ message

/-- The first message and what follows, if all of it is there. -/
def unframe (bytes : Bytes) : Option (Bytes × Bytes) :=
  let length := readLength (bytes.take 2)
  let rest := bytes.drop 2
  if 2 ≤ bytes.length ∧ length ≤ rest.length then some (rest.take length, rest.drop length)
  else none

theorem readLength_lengthBytes (length : Nat) :
    readLength (lengthBytes length) = length % lengthBound := by
  simp only [readLength, lengthBytes, lengthBound, List.foldl_cons, List.foldl_nil,
    UInt8.toNat_ofNat']
  omega

theorem readLength_lt {bytes : Bytes} (two : bytes.length = 2) : readLength bytes < lengthBound := by
  obtain ⟨high, low, rfl⟩ := List.length_eq_two.mp two
  have highSmall := high.toNat_lt
  have lowSmall := low.toNat_lt
  simp only [readLength, lengthBound, List.foldl_cons, List.foldl_nil]
  omega

theorem lengthBytes_readLength {bytes : Bytes} (two : bytes.length = 2) :
    lengthBytes (readLength bytes) = bytes := by
  obtain ⟨high, low, rfl⟩ := List.length_eq_two.mp two
  have lowSmall := low.toNat_lt
  have whole : (high.toNat * 256 + low.toNat) / 256 = high.toNat := by omega
  have highSame : UInt8.ofNat high.toNat = high := UInt8.ofNat_toNat
  have lowSame : UInt8.ofNat (high.toNat * 256 + low.toNat) = low := by
    apply UInt8.toNat_inj.mp
    rw [UInt8.toNat_ofNat']
    omega
  simp only [readLength, lengthBytes, List.foldl_cons, List.foldl_nil, Nat.zero_mul, Nat.zero_add,
    whole, highSame, lowSame]

theorem length_lengthBytes (length : Nat) : (lengthBytes length).length = 2 := rfl

theorem frame_of_readLength {bytes message : Bytes} (two : bytes.length = 2)
    (said : readLength bytes = message.length) : frame message = bytes ++ message := by
  rw [frame, ← said, lengthBytes_readLength two]

theorem unframe_eq_some_iff {bytes message rest : Bytes} :
    unframe bytes = some (message, rest) ↔
      bytes = frame message ++ rest ∧ message.length < lengthBound := by
  constructor
  · intro read
    obtain ⟨⟨two, enough⟩, cut⟩ := Option.ite_none_right_eq_some.mp read
    obtain ⟨rfl, rfl⟩ := Prod.mk.inj (Option.some.inj cut)
    have front : (bytes.take 2).length = 2 := by
      rw [List.length_take]
      omega
    have said : readLength (bytes.take 2) =
        ((bytes.drop 2).take (readLength (bytes.take 2))).length := by
      rw [List.length_take]
      omega
    refine ⟨?_, ?_⟩
    · rw [frame_of_readLength front said, List.append_assoc, List.take_append_drop,
        List.take_append_drop]
    · rw [← said]
      exact readLength_lt front
  · rintro ⟨rfl, small⟩
    have said : readLength (lengthBytes message.length) = message.length := by
      rw [readLength_lengthBytes, Nat.mod_eq_of_lt small]
    have front : (frame message ++ rest).take 2 = lengthBytes message.length := rfl
    have back : (frame message ++ rest).drop 2 = message ++ rest := rfl
    unfold unframe
    rw [front, back, said]
    simp [frame, lengthBytes]

/-- A stream begins with at most one message. -/
theorem frame_append_inj {first second behind after : Bytes} (small : first.length < lengthBound)
    (alsoSmall : second.length < lengthBound)
    (same : frame first ++ behind = frame second ++ after) : first = second ∧ behind = after := by
  have read := unframe_eq_some_iff.mpr ⟨same, alsoSmall⟩
  have alsoRead : unframe (frame first ++ behind) = some (first, behind) :=
    unframe_eq_some_iff.mpr ⟨rfl, small⟩
  exact Prod.mk.inj (Option.some.inj (alsoRead.symm.trans read))

end Framing
