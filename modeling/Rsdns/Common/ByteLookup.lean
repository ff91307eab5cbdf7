import Rsdns.Common.DomainTrie
import Rsdns.Library.Utf8

/-!
# Lookups byte by byte (`common/domain_trie.rs`)

A lookup as the code runs it: on bytes, in a buffer of 256 of them, with every
index checked.  An index out of range ends the run, and none is: the run returns
what the lookup on characters returns.
-/

namespace Rsdns.Common

/-- The map by bytes.  All its keys were written from text. -/
def byteMap {Value : Type} (map : Text → Option Value) (key : List UInt8) : Option Value :=
  if Utf8.encode (Utf8.decodeLossy key) = key then map (Utf8.decodeLossy key) else none

@[simp]
theorem byteMap_encode {Value : Type} (map : Text → Option Value) (key : Text) :
    byteMap map (Utf8.encode key) = map key := by
  simp [byteMap]

def dotByte : UInt8 := UInt8.ofNat '.'.toNat

/-! ### The buffer -/

/-- `buf[pos..pos + part.len()].copy_from_slice(part)`. -/
def copyFromSlice (buf : List UInt8) (pos : Nat) (part : List UInt8) : Option (List UInt8) :=
  if pos + part.length ≤ buf.length then
    some (buf.take pos ++ part ++ buf.drop (pos + part.length))
  else none

/-- A dot behind what is written already, and the next part. -/
def fillPart (filled : List UInt8 × Nat) (part : List UInt8) : Option (List UInt8 × Nat) := do
  let (buf, pos) ←
    if 0 < filled.2 then
      (copyFromSlice filled.1 filled.2 [dotByte]).map fun buf => (buf, filled.2 + 1)
    else some filled
  let buf ← copyFromSlice buf pos part
  return (buf, pos + part.length)

abbrev stackSize : Nat := 256

def fillStack (parts : List (List UInt8)) : Option (List UInt8) := do
  let (buf, pos) ← parts.foldlM fillPart (List.replicate stackSize 0, 0)
  if pos ≤ buf.length then some (buf.take pos) else none

structure Written (buf : List UInt8) (pos : Nat) (written : List UInt8) : Prop where
  size : buf.length = stackSize
  position : written.length = pos
  front : buf.take pos = written

theorem Written.copyFromSlice {buf written : List UInt8} {pos : Nat}
    (holds : Written buf pos written) (part : List UInt8)
    (fits : (written ++ part).length ≤ stackSize) :
    ∃ copied, Common.copyFromSlice buf pos part = some copied ∧
      Written copied (pos + part.length) (written ++ part) := by
  have length : (written ++ part).length = pos + part.length := by
    rw [List.length_append, holds.position]
  rw [length] at fits
  refine ⟨_, if_pos (holds.size ▸ fits), ?_, length, ?_⟩
  · rw [holds.front, List.length_append, length, List.length_drop, holds.size]
    omega
  · rw [holds.front]
    exact List.take_left' length

/-- The bytes so far, and the next part behind a dot. -/
def joinPart (written part : List UInt8) : List UInt8 :=
  if 0 < written.length then written ++ dotByte :: part else written ++ part

theorem length_le_joinPart (written part : List UInt8) :
    written.length ≤ (joinPart written part).length := by
  unfold joinPart
  split <;> simp

theorem length_le_foldl_joinPart (written : List UInt8) (parts : List (List UInt8)) :
    written.length ≤ (parts.foldl joinPart written).length := by
  induction parts generalizing written with
  | nil => exact Nat.le_refl _
  | cons part parts inductionHypothesis =>
      exact (length_le_joinPart written part).trans (inductionHypothesis _)

theorem Written.fillPart {buf written part : List UInt8} {pos : Nat}
    (holds : Written buf pos written) (fits : (joinPart written part).length ≤ stackSize) :
    ∃ filled, Common.fillPart (buf, pos) part = some filled ∧
      Written filled.1 filled.2 (joinPart written part) := by
  have position := holds.position
  unfold joinPart at fits ⊢
  unfold Common.fillPart
  by_cases positive : 0 < written.length
  · rw [if_pos positive] at fits ⊢
    simp only [List.length_append, List.length_cons] at fits
    obtain ⟨dotted, marked, dottedHolds⟩ := holds.copyFromSlice [dotByte]
      (by simp only [List.length_append, List.length_singleton]; omega)
    obtain ⟨filled, copied, filledHolds⟩ := dottedHolds.copyFromSlice part
      (by simp only [List.length_append, List.length_singleton]; omega)
    rw [List.append_assoc, List.singleton_append] at filledHolds
    rw [List.length_singleton] at copied filledHolds
    rw [position] at positive
    refine ⟨(filled, pos + 1 + part.length), ?_, filledHolds⟩
    simp [positive, marked, copied]
  · rw [if_neg positive] at fits ⊢
    obtain ⟨filled, copied, filledHolds⟩ := holds.copyFromSlice part fits
    rw [position] at positive
    refine ⟨(filled, pos + part.length), ?_, filledHolds⟩
    simp [positive, copied]

theorem Written.foldlM_fillPart {parts : List (List UInt8)} {buf written : List UInt8} {pos : Nat}
    (holds : Written buf pos written)
    (fits : (parts.foldl joinPart written).length ≤ stackSize) :
    ∃ filled, parts.foldlM Common.fillPart (buf, pos) = some filled ∧
      Written filled.1 filled.2 (parts.foldl joinPart written) := by
  induction parts generalizing buf written pos with
  | nil => exact ⟨(buf, pos), rfl, holds⟩
  | cons part parts inductionHypothesis =>
      rw [List.foldl_cons] at fits ⊢
      obtain ⟨⟨buf, pos⟩, filled, next⟩ :=
        holds.fillPart ((length_le_foldl_joinPart _ parts).trans fits)
      obtain ⟨last, rest, lastHolds⟩ := inductionHypothesis next fits
      refine ⟨last, ?_, lastHolds⟩
      rw [List.foldlM_cons, filled]
      exact rest

theorem fillStack_eq_some {parts : List (List UInt8)}
    (fits : (parts.foldl joinPart []).length ≤ stackSize) :
    fillStack parts = some (parts.foldl joinPart []) := by
  have fresh : Written (List.replicate stackSize 0) 0 [] :=
    ⟨List.length_replicate, rfl, rfl⟩
  obtain ⟨⟨buf, pos⟩, filled, holds⟩ := fresh.foldlM_fillPart fits
  have inside : pos ≤ buf.length := by
    have size : buf.length = stackSize := holds.size
    have position : (parts.foldl joinPart []).length = pos := holds.position
    omega
  unfold fillStack
  rw [filled]
  simp only [Option.bind_eq_bind, Option.bind_some]
  rw [if_pos inside, holds.front]

theorem foldl_joinPart_encode (buffer : Text) (parts : List Text) :
    (parts.map Utf8.encode).foldl joinPart (Utf8.encode buffer) =
      Utf8.encode (parts.foldl (fun buffer part =>
        if 0 < buffer.length then buffer ++ '.' :: part else buffer ++ part) buffer) := by
  induction parts generalizing buffer with
  | nil => rfl
  | cons part parts inductionHypothesis =>
      have step : joinPart (Utf8.encode buffer) (Utf8.encode part) =
          Utf8.encode (if 0 < buffer.length then buffer ++ '.' :: part else buffer ++ part) := by
        have empty := @Utf8.encode_eq_nil_iff buffer
        unfold joinPart
        simp only [List.length_pos_iff, ne_eq, empty]
        split
        · rw [Utf8.encode_append, Utf8.encode_cons, Utf8.utf8EncodeChar_of_ascii (by decide)]
          rfl
        · rw [Utf8.encode_append]
      rw [List.map_cons, List.foldl_cons, List.foldl_cons, step, inductionHypothesis]

/-! ### The scan -/

/-- One turn of the loop: `i` is the last index, or the byte behind it is read. -/
def scanStep (map : List UInt8 → Option TagId) (bytes : List UInt8) (last : Option TagId)
    (i : Nat) : Option (Option TagId) := do
  let ends ← if i = bytes.length - 1 then some true else (bytes[i + 1]?).map (· == dotByte)
  return if ends then (map (bytes.take (i + 1))).or last else last

def scanChecked (map : List UInt8 → Option TagId) (bytes : List UInt8) : Option (Option TagId) :=
  (List.range bytes.length).foldlM (scanStep map bytes) none

theorem scanStep_eq_some (map : List UInt8 → Option TagId) {bytes : List UInt8}
    (last : Option TagId) {i : Nat} (inside : i < bytes.length) :
    scanStep map bytes last i =
      some (if i + 1 = bytes.length ∨ bytes[i + 1]? = some dotByte then
        (map (bytes.take (i + 1))).or last
      else last) := by
  unfold scanStep
  by_cases final : i = bytes.length - 1
  · have whole : i + 1 = bytes.length := by omega
    rw [if_pos final, if_pos (.inl whole)]
    rfl
  · have next : i + 1 < bytes.length := by omega
    have notWhole : i + 1 ≠ bytes.length := by omega
    rw [if_neg final, List.getElem?_eq_getElem next]
    simp [notWhole]

theorem foldlM_eq_some {State Item : Type} {step : State → Item → Option State}
    {pureStep : State → Item → State} {items : List Item}
    (succeeds : ∀ item ∈ items, ∀ state, step state item = some (pureStep state item))
    (state : State) : items.foldlM step state = some (items.foldl pureStep state) := by
  induction items generalizing state with
  | nil => rfl
  | cons item items inductionHypothesis =>
      obtain ⟨first, rest⟩ := List.forall_mem_cons.mp succeeds
      rw [List.foldlM_cons, first state]
      exact inductionHypothesis rest (pureStep state item)

theorem scanChecked_eq_some (map : List UInt8 → Option TagId) (bytes : List UInt8) :
    scanChecked map bytes = some (LabelKey.scan dotByte map bytes) := by
  apply foldlM_eq_some
  intro i member last
  exact scanStep_eq_some map last (List.mem_range.mp member)

theorem opens_encode_iff {front : List UInt8} {word : Text} :
    LabelKey.Opens dotByte front (Utf8.encode word) ↔
      ∃ text, front = Utf8.encode text ∧ LabelKey.Opens '.' text word := by
  constructor
  · rintro (whole | ⟨back, cut⟩)
    · exact ⟨word, whole.symm, .inl rfl⟩
    · obtain ⟨before, after, rfl, written, _⟩ :=
        (Utf8.encode_eq_append_cons_iff (by decide)).mp cut
      exact ⟨before, written.symm, .inr ⟨after, rfl⟩⟩
  · rintro ⟨text, rfl, rfl | ⟨back, rfl⟩⟩
    · exact .inl rfl
    · refine .inr ⟨Utf8.encode back, ?_⟩
      exact (Utf8.encode_eq_append_cons_iff (by decide)).mpr ⟨text, back, rfl, rfl, rfl⟩

/-- Bytes and characters end their labels at the same dots. -/
theorem scan_encode (map : Text → Option TagId) (word : Text) :
    LabelKey.scan dotByte (byteMap map) (Utf8.encode word) = LabelKey.scan '.' map word := by
  apply Option.ext
  intro id
  rw [LabelKey.scan_eq_some_iff, LabelKey.scan_eq_some_iff]
  constructor
  · rintro ⟨front, nonempty, opens, isKey, later⟩
    obtain ⟨text, rfl, textOpens⟩ := opens_encode_iff.mp opens
    rw [byteMap_encode] at isKey
    refine ⟨text, fun empty => nonempty (by rw [empty]; rfl), textOpens, isKey, ?_⟩
    intro longer longerOpens above
    have bytesAbove :=
      (Utf8.length_encode_lt_iff textOpens.isPrefix longerOpens.isPrefix).mpr above
    have missed := later _ (opens_encode_iff.mpr ⟨longer, rfl, longerOpens⟩) bytesAbove
    rwa [byteMap_encode] at missed
  · rintro ⟨text, nonempty, textOpens, isKey, later⟩
    refine ⟨Utf8.encode text, fun empty => nonempty (Utf8.encode_eq_nil_iff.mp empty),
      opens_encode_iff.mpr ⟨text, rfl, textOpens⟩, by rw [byteMap_encode, isKey], ?_⟩
    intro front opens bytesAbove
    obtain ⟨longer, rfl, longerOpens⟩ := opens_encode_iff.mp opens
    rw [byteMap_encode]
    exact later longer longerOpens
      ((Utf8.length_encode_lt_iff textOpens.isPrefix longerOpens.isPrefix).mp bytesAbove)

/-! ### The lookups -/

namespace DomainSuffixTrie

/-- An id without a tag counts as an index out of range too. -/
def searchChecked (self : DomainSuffixTrie) (bytes : List UInt8) : Option (Option Text) := do
  match ← scanChecked (byteMap self.map) bytes with
  | none => return none
  | some id => (self.idToTag[id]?).map some

def lookupBigChecked (self : DomainSuffixTrie) (domain : Text) : Option (Option Text) :=
  let domain := Text.toAsciiLowercase (Text.trimMatches '.' domain)
  if domain = [] then some none
  else self.searchChecked (Utf8.encode (['.'].intercalate (domain.splitOn '.').reverse))

def lookupChecked (self : DomainSuffixTrie) (domain : Text) : Option (Option Text) :=
  let domain := Text.trimMatches '.' domain
  if domain = [] then some none
  else if stackSize < (Utf8.encode domain).length then self.lookupBigChecked domain
  else
    (fillStack ((domain.splitOn '.').reverse.map Utf8.encode)).bind self.searchChecked

theorem searchChecked_encode (self : DomainSuffixTrie) (target : Text) :
    self.searchChecked (Utf8.encode target) = some (self.searchTag target) := by
  have stored : ∀ id, LabelKey.scan '.' self.map target = some id → id < self.idToTag.length := by
    intro id found
    obtain ⟨key, _, _, isKey, _⟩ := LabelKey.scan_eq_some_iff.mp found
    exact self.listed key id isKey
  unfold searchChecked searchTag
  rw [scanChecked_eq_some, scan_encode]
  cases found : LabelKey.scan '.' self.map target with
  | none => rfl
  | some id => simp [stored id found]

theorem lookupBigChecked_eq_some (self : DomainSuffixTrie) (domain : Text) :
    self.lookupBigChecked domain = some (self.lookupBig domain) := by
  unfold lookupBigChecked lookupBig
  dsimp only
  split
  · rfl
  · exact self.searchChecked_encode _

/-- No index is ever out of range, and the bytes find what the characters find. -/
theorem lookupChecked_eq_some (self : DomainSuffixTrie) (domain : Text) :
    self.lookupChecked domain = some (self.lookup domain) := by
  unfold lookupChecked lookup
  dsimp only
  rw [Utf8.length_encode]
  split
  · rfl
  · split
    · exact self.lookupBigChecked_eq_some _
    · next short =>
        have reversed := fillBuffer_reverse_splitOn (Text.trimMatches_getLast?_ne '.' domain)
        have bytes : (((Text.trimMatches '.' domain).splitOn '.').reverse.map
            Utf8.encode).foldl joinPart [] =
              Utf8.encode (LabelKey.reverseLabels '.' (Text.trimMatches '.' domain)) := by
          rw [← reversed]
          exact foldl_joinPart_encode [] _
        have fits : (((Text.trimMatches '.' domain).splitOn '.').reverse.map
            Utf8.encode |>.foldl joinPart []).length ≤ stackSize := by
          rw [bytes, Utf8.length_encode, Text.byteLen_perm (LabelKey.reverseLabels_perm _)]
          exact Nat.le_of_not_lt short
        rw [fillStack_eq_some fits, bytes, reversed, Option.bind_some]
        exact self.searchChecked_encode _

end DomainSuffixTrie

end Rsdns.Common
