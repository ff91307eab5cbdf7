import Rsdns.Library.Base64Url

/-!
# Only what was encoded is decoded

The values of the symbols hold whole bytes, and bits left over at the end.  Where these
are zero the bytes give the symbols back, so the decoder accepts the encodings and
nothing else.  The bits it loses from its word are never given out.
-/

namespace Base64Url

/-! ### Symbols and their values -/

theorem table_eq : table = (List.range 64).map symbolByte := by decide +kernel

theorem encode_map_symbol {values : List Nat} (small : ∀ value ∈ values, value < 64) :
    Utf8.encode (values.map symbol) = values.map symbolByte := by
  induction values with
  | nil => rfl
  | cons value values inductionHypothesis =>
      obtain ⟨here, later⟩ := List.forall_mem_cons.mp small
      rw [List.map_cons, encode_symbol_cons here, inductionHypothesis later, List.map_cons]

theorem exists_values_of_bytes {bytes : List UInt8} (good : ∀ byte ∈ bytes, byte ∈ table) :
    ∃ values : List Nat, (∀ value ∈ values, value < 64) ∧ bytes = values.map symbolByte := by
  induction bytes with
  | nil => exact ⟨[], by simp, rfl⟩
  | cons byte bytes inductionHypothesis =>
      obtain ⟨here, later⟩ := List.forall_mem_cons.mp good
      obtain ⟨values, small, rfl⟩ := inductionHypothesis later
      rw [table_eq] at here
      obtain ⟨value, inRange, rfl⟩ := List.mem_map.mp here
      have first := List.mem_range.mp inRange
      exact ⟨value :: values, List.forall_mem_cons.mpr ⟨first, small⟩, rfl⟩

theorem exists_values {text : Text} (good : (Utf8.encode text).all table.contains = true) :
    ∃ values : List Nat, (∀ value ∈ values, value < 64) ∧ text = values.map symbol := by
  have inTable : ∀ byte ∈ Utf8.encode text, byte ∈ table := fun byte member =>
    List.contains_iff_mem.mp (List.all_eq_true.mp good byte member)
  obtain ⟨values, small, whole⟩ := exists_values_of_bytes inTable
  exact ⟨values, small, Utf8.encode_injective (whole.trans (encode_map_symbol small).symm)⟩

/-! ### The bytes in the values -/

/-- The whole bytes that the values hold, four values at a time. -/
def bytesOf : List Nat → List UInt8
  | [] => []
  | [_] => []
  | [first, second] => [UInt8.ofNat (first * 4 + second / 16)]
  | [first, second, third] =>
      [UInt8.ofNat (first * 4 + second / 16), UInt8.ofNat (second % 16 * 16 + third / 4)]
  | first :: second :: third :: fourth :: rest =>
      UInt8.ofNat (first * 4 + second / 16) :: UInt8.ofNat (second % 16 * 16 + third / 4) ::
        UInt8.ofNat (third % 4 * 64 + fourth) :: bytesOf rest

def leftOver : List Nat → Nat
  | [] => 0
  | [_] => 0
  | [_, second] => second % 16
  | [_, _, third] => third % 4
  | _ :: _ :: _ :: _ :: rest => leftOver rest

theorem encode_bytesOf {values : List Nat} (small : ∀ value ∈ values, value < 64)
    (length : values.length % 4 ≠ 1) (zero : leftOver values = 0) :
    encode (bytesOf values) = values.map symbol := by
  have byte : ∀ value, value < 256 → (UInt8.ofNat value).toNat = value := fun value fits =>
    Nat.mod_eq_of_lt fits
  induction values using bytesOf.induct with
  | case1 => rfl
  | case2 first => exact absurd rfl length
  | case3 first second =>
      simp only [List.forall_mem_cons] at small
      obtain ⟨one, two, _⟩ := small
      simp only [leftOver] at zero
      have firstByte := byte (first * 4 + second / 16) (by omega)
      have firstSymbol : (first * 4 + second / 16) / 4 = first := by omega
      have secondSymbol : (first * 4 + second / 16) % 4 * 16 = second := by omega
      simp only [bytesOf, encode, firstByte, firstSymbol, secondSymbol, List.map_cons,
        List.map_nil]
  | case4 first second third =>
      simp only [List.forall_mem_cons] at small
      obtain ⟨one, two, three, _⟩ := small
      simp only [leftOver] at zero
      have firstByte := byte (first * 4 + second / 16) (by omega)
      have secondByte := byte (second % 16 * 16 + third / 4) (by omega)
      have firstSymbol : (first * 4 + second / 16) / 4 = first := by omega
      have secondSymbol : (first * 4 + second / 16) % 4 * 16 +
          (second % 16 * 16 + third / 4) / 16 = second := by omega
      have thirdSymbol : (second % 16 * 16 + third / 4) % 16 * 4 = third := by omega
      simp only [bytesOf, encode, firstByte, secondByte, firstSymbol, secondSymbol, thirdSymbol,
        List.map_cons, List.map_nil]
  | case5 first second third fourth rest inductionHypothesis =>
      simp only [List.forall_mem_cons] at small
      obtain ⟨one, two, three, four, others⟩ := small
      simp only [List.length_cons] at length
      have encoded := inductionHypothesis others (by omega) zero
      have firstByte := byte (first * 4 + second / 16) (by omega)
      have secondByte := byte (second % 16 * 16 + third / 4) (by omega)
      have thirdByte := byte (third % 4 * 64 + fourth) (by omega)
      have firstSymbol : (first * 4 + second / 16) / 4 = first := by omega
      have secondSymbol : (first * 4 + second / 16) % 4 * 16 +
          (second % 16 * 16 + third / 4) / 16 = second := by omega
      have thirdSymbol : (second % 16 * 16 + third / 4) % 16 * 4 +
          (third % 4 * 64 + fourth) / 64 = third := by omega
      have fourthSymbol : (third % 4 * 64 + fourth) % 64 = fourth := by omega
      simp only [bytesOf, encode, firstByte, secondByte, thirdByte, firstSymbol, secondSymbol,
        thirdSymbol, fourthSymbol, encoded, List.map_cons]

theorem exists_values_of_encode (bytes : List UInt8) :
    ∃ values : List Nat, (∀ value ∈ values, value < 64) ∧ encode bytes = values.map symbol ∧
      bytesOf values = bytes ∧ leftOver values = 0 := by
  have byte : ∀ (first : UInt8) value, value = first.toNat → UInt8.ofNat value = first := by
    rintro first _ rfl
    exact UInt8.ofNat_toNat
  induction bytes using encode.induct with
  | case1 => exact ⟨[], by simp, rfl, rfl, rfl⟩
  | case2 first =>
      have one := first.toNat_lt
      refine ⟨[first.toNat / 4, first.toNat % 4 * 16], ?_, rfl, ?_, ?_⟩
      · simp only [List.forall_mem_cons, List.not_mem_nil, false_implies, implies_true, and_true]
        omega
      · rw [bytesOf, byte first _ (by omega)]
      · rw [leftOver]
        omega
  | case3 first second =>
      have one := first.toNat_lt
      have two := second.toNat_lt
      refine ⟨[first.toNat / 4, first.toNat % 4 * 16 + second.toNat / 16,
        second.toNat % 16 * 4], ?_, rfl, ?_, ?_⟩
      · simp only [List.forall_mem_cons, List.not_mem_nil, false_implies, implies_true, and_true]
        omega
      · rw [bytesOf, byte first _ (by omega), byte second _ (by omega)]
      · rw [leftOver]
        omega
  | case4 first second third rest inductionHypothesis =>
      have one := first.toNat_lt
      have two := second.toNat_lt
      have three := third.toNat_lt
      obtain ⟨values, small, encoded, hold, zero⟩ := inductionHypothesis
      refine ⟨first.toNat / 4 :: (first.toNat % 4 * 16 + second.toNat / 16) ::
        (second.toNat % 16 * 4 + third.toNat / 64) :: third.toNat % 64 :: values, ?_, ?_, ?_, ?_⟩
      · simp only [List.forall_mem_cons]
        exact ⟨by omega, by omega, by omega, by omega, small⟩
      · rw [encode, encoded]
        rfl
      · rw [bytesOf, byte first _ (by omega), byte second _ (by omega), byte third _ (by omega),
          hold]
      · rw [leftOver, zero]

theorem encode_subset (bytes : List UInt8) : encode bytes ⊆ alphabet := by
  obtain ⟨values, small, encoded, _⟩ := exists_values_of_encode bytes
  rw [encoded]
  intro char member
  obtain ⟨value, inValues, rfl⟩ := List.mem_map.mp member
  exact symbol_mem (small value inValues)

/-- The bytes in the values are given out, and their bits left over are still there. -/
structure Holds (values : List Nat) (acc : Accumulator) (out : List UInt8) : Prop where
  out : acc.out = out ++ bytesOf values
  left : values.length % 4 ≠ 1 → acc.bits % 2 ^ acc.nbits = leftOver values

theorem foldlM_push_values {values : List Nat} (small : ∀ value ∈ values, value < 64)
    (bits : Nat) (out : List UInt8) :
    ∃ acc, (Utf8.encode (values.map symbol)).foldlM push ⟨bits, 0, out⟩ = some acc ∧
      Holds values acc out := by
  have byte : ∀ value, value < 256 → (UInt8.ofNat value).toNat = value := fun value fits =>
    Nat.mod_eq_of_lt fits
  induction values using bytesOf.induct generalizing bits out with
  | case1 => exact ⟨_, rfl, by simp [bytesOf], fun _ => Nat.mod_one bits⟩
  | case2 first =>
      rw [List.map_cons, foldlM_first bits out (small first List.mem_cons_self)]
      exact ⟨_, rfl, by simp [bytesOf], fun length => absurd rfl length⟩
  | case3 first second =>
      simp only [List.forall_mem_cons] at small
      obtain ⟨one, two, _⟩ := small
      have firstByte := byte (first * 4 + second / 16) (by omega)
      rw [List.map_cons, List.map_cons, foldlM_first bits out one,
        foldlM_later out (UInt8.ofNat (first * 4 + second / 16)) two (by omega) (by omega)]
      refine ⟨_, rfl, rfl, fun _ => ?_⟩
      simp only [leftOver]
      omega
  | case4 first second third =>
      simp only [List.forall_mem_cons] at small
      obtain ⟨one, two, three, _⟩ := small
      have firstByte := byte (first * 4 + second / 16) (by omega)
      have secondByte := byte (second % 16 * 16 + third / 4) (by omega)
      rw [List.map_cons, List.map_cons, List.map_cons, foldlM_first bits out one,
        foldlM_later out (UInt8.ofNat (first * 4 + second / 16)) two (by omega) (by omega),
        foldlM_later _ (UInt8.ofNat (second % 16 * 16 + third / 4)) three (by omega) (by omega)]
      refine ⟨_, rfl, by simp [bytesOf], fun _ => ?_⟩
      simp only [leftOver]
      omega
  | case5 first second third fourth rest inductionHypothesis =>
      simp only [List.forall_mem_cons] at small
      obtain ⟨one, two, three, four, others⟩ := small
      have firstByte := byte (first * 4 + second / 16) (by omega)
      have secondByte := byte (second % 16 * 16 + third / 4) (by omega)
      have thirdByte := byte (third % 4 * 64 + fourth) (by omega)
      simp only [List.map_cons]
      rw [foldlM_first bits out one,
        foldlM_later out (UInt8.ofNat (first * 4 + second / 16)) two (by omega) (by omega),
        foldlM_later _ (UInt8.ofNat (second % 16 * 16 + third / 4)) three (by omega) (by omega),
        foldlM_later _ (UInt8.ofNat (third % 4 * 64 + fourth)) four (by omega) (by omega)]
      obtain ⟨acc, run, given, left⟩ := inductionHypothesis others _ _
      refine ⟨acc, run, ?_, fun length => ?_⟩
      · rw [given]
        simp [bytesOf]
      · simp only [List.length_cons] at length
        exact left (by omega)

/-! ### What is decoded -/

theorem decode_eq_some_iff_foldlM {bytes decoded : List UInt8} :
    decode bytes = some decoded ↔
      bytes ≠ [] ∧ bytes.length % 4 ≠ 1 ∧ bytes.all table.contains = true ∧
        ∃ acc, bytes.foldlM push ⟨0, 0, []⟩ = some acc ∧ acc.bits % 2 ^ acc.nbits = 0 ∧
          acc.out = decoded := by
  have noBits : ∀ acc : Accumulator,
      ¬ (acc.nbits > 0 ∧ acc.bits &&& (1 <<< acc.nbits - 1) ≠ 0) ↔
        acc.bits % 2 ^ acc.nbits = 0 := by
    intro acc
    rw [Nat.one_shiftLeft, Nat.and_two_pow_sub_one_eq_mod]
    rcases Nat.eq_zero_or_pos acc.nbits with none_ | some_
    · simp [none_, Nat.mod_one]
    · simp [some_]
  unfold decode
  rw [Option.ite_none_left_eq_some, Option.bind_eq_some_iff, not_or, not_or, not_not]
  simp only [Option.ite_none_left_eq_some, noBits, Option.some.injEq, and_assoc]

/-- The texts that are decoded are the encodings of something. -/
theorem decode_eq_some_iff {text : Text} {bytes : List UInt8} :
    decode (Utf8.encode text) = some bytes ↔ bytes ≠ [] ∧ text = encode bytes := by
  rw [decode_eq_some_iff_foldlM]
  constructor
  · rintro ⟨nonempty, length, good, acc, run, zero, rfl⟩
    obtain ⟨values, small, rfl⟩ := exists_values good
    obtain ⟨ended, runValues, holds⟩ := foldlM_push_values small 0 []
    obtain rfl : acc = ended := Option.some.inj (run.symm.trans runValues)
    rw [encode_map_symbol small, List.length_map] at length
    have encoded := encode_bytesOf small length ((holds.left length).symm.trans zero)
    have given : acc.out = bytesOf values := holds.out
    rw [given]
    refine ⟨fun empty => nonempty ?_, encoded.symm⟩
    rw [← encoded, empty]
    rfl
  · rintro ⟨nonempty, rfl⟩
    have written := length_encode_mod bytes
    have notEmpty := encode_ne_nil nonempty
    obtain ⟨values, small, encoded, hold, zero⟩ := exists_values_of_encode bytes
    rw [encoded] at written notEmpty ⊢
    rw [List.length_map] at written
    obtain ⟨acc, run, holds⟩ := foldlM_push_values small 0 []
    refine ⟨fun empty => notEmpty (Utf8.encode_eq_nil_iff.mp empty), ?_, ?_, acc, run,
      (holds.left written).trans zero, holds.out.trans hold⟩
    · rwa [encode_map_symbol small, List.length_map]
    · rw [encode_map_symbol small, List.all_eq_true]
      intro byte member
      obtain ⟨value, inValues, rfl⟩ := List.mem_map.mp member
      apply List.contains_iff_mem.mpr
      rw [table_eq]
      exact List.mem_map_of_mem (List.mem_range.mpr (small value inValues))

/-! ### The word -/

/-- A symbol taken in where the word has room for all bits. -/
def pushWide (acc : Accumulator) (byte : UInt8) : Option Accumulator := do
  let value ← table.idxOf? byte
  let bits := acc.bits <<< 6 ||| value
  let nbits := acc.nbits + 6
  if nbits ≥ 8 then
    return ⟨bits, nbits - 8, acc.out ++ [UInt8.ofNat (bits >>> (nbits - 8))]⟩
  else
    return ⟨bits, nbits, acc.out⟩

/-- What is left of the bits in a word of 32. -/
def Accumulator.cut (acc : Accumulator) : Accumulator := { acc with bits := acc.bits % 2 ^ 32 }

theorem lt_of_idxOf? {byte : UInt8} {value : Nat} (found : table.idxOf? byte = some value) :
    value < 64 := by
  have length : table.length = 64 := by rw [table_eq, List.length_map, List.length_range]
  rw [← length]
  exact (List.findIdx?_eq_some_iff_findIdx_eq.mp found).1

theorem cut_shift_or (bits : Nat) {value : Nat} (small : value < 64) :
    (bits % 2 ^ 32) <<< 6 % 2 ^ 32 ||| value = (bits <<< 6 ||| value) % 2 ^ 32 := by
  have whole : bits <<< 6 ||| value = bits * 64 + value := by
    rw [Nat.shiftLeft_eq, Nat.mul_comm, ← Nat.two_pow_add_eq_or_of_lt small]
  rw [shift_or_eq _ small, whole]
  omega

theorem ofNat_cut_shiftRight (bits : Nat) {places : Nat} (few : places ≤ 24) :
    UInt8.ofNat ((bits % 2 ^ 32) >>> places) = UInt8.ofNat (bits >>> places) := by
  have divides : 2 ^ places * 2 ^ 8 ∣ 2 ^ 32 := by
    rw [← Nat.pow_add]
    exact Nat.pow_dvd_pow 2 (by omega)
  rw [← UInt8.toNat_inj, UInt8.toNat_ofNat', UInt8.toNat_ofNat', Nat.shiftRight_eq_div_pow,
    Nat.shiftRight_eq_div_pow, ← Nat.mod_mul_right_div_self, ← Nat.mod_mul_right_div_self,
    Nat.mod_mod_of_dvd bits divides]

theorem push_cut {acc : Accumulator} (few : acc.nbits < 8) (byte : UInt8) :
    push acc.cut byte = (pushWide acc byte).map Accumulator.cut := by
  unfold push pushWide
  cases found : table.idxOf? byte with
  | none => rfl
  | some value =>
      simp only [Accumulator.cut, Option.bind_eq_bind, Option.bind_some,
        cut_shift_or acc.bits (lt_of_idxOf? found)]
      by_cases ready : acc.nbits + 6 ≥ 8
      · rw [if_pos ready, if_pos ready, ofNat_cut_shiftRight _ (by omega)]
        rfl
      · rw [if_neg ready, if_neg ready]
        rfl

theorem nbits_lt_of_pushWide {acc next : Accumulator} {byte : UInt8} (few : acc.nbits < 8)
    (pushed : pushWide acc byte = some next) : next.nbits < 8 := by
  unfold pushWide at pushed
  obtain ⟨value, _, stepped⟩ := Option.bind_eq_some_iff.mp pushed
  dsimp only at stepped
  split at stepped
  · cases stepped
    dsimp only
    omega
  · next waiting =>
      cases stepped
      dsimp only
      omega

theorem foldlM_push_cut (bytes : List UInt8) {acc : Accumulator} (few : acc.nbits < 8) :
    bytes.foldlM push acc.cut = (bytes.foldlM pushWide acc).map Accumulator.cut := by
  induction bytes generalizing acc with
  | nil => rfl
  | cons byte bytes inductionHypothesis =>
      rw [List.foldlM_cons, List.foldlM_cons, push_cut few]
      cases pushed : pushWide acc byte with
      | none => rfl
      | some next =>
          exact inductionHypothesis (nbits_lt_of_pushWide few pushed)

theorem nbits_lt_of_foldlM_pushWide {bytes : List UInt8} {acc last : Accumulator}
    (few : acc.nbits < 8) (run : bytes.foldlM pushWide acc = some last) : last.nbits < 8 := by
  induction bytes generalizing acc with
  | nil =>
      cases run
      exact few
  | cons byte bytes inductionHypothesis =>
      rw [List.foldlM_cons] at run
      obtain ⟨next, pushed, later⟩ := Option.bind_eq_some_iff.mp run
      exact inductionHypothesis (nbits_lt_of_pushWide few pushed) later

/-- The decoder where the word has room for all bits. -/
def decodeWide (text : List UInt8) : Option (List UInt8) :=
  if text = [] ∨ text.length % 4 = 1 ∨ ¬ text.all table.contains then none
  else
    (text.foldlM pushWide ⟨0, 0, []⟩).bind fun acc =>
      if acc.nbits > 0 ∧ acc.bits &&& (1 <<< acc.nbits - 1) ≠ 0 then none else some acc.out

/-- The bits that the word of 32 loses are never asked for. -/
theorem decode_eq_decodeWide (text : List UInt8) : decode text = decodeWide text := by
  have run := @foldlM_push_cut text ⟨0, 0, []⟩ (Nat.zero_lt_succ 7)
  unfold decode decodeWide
  by_cases bad : text = [] ∨ text.length % 4 = 1 ∨ ¬ text.all table.contains
  · rw [if_pos bad, if_pos bad]
  · rw [if_neg bad, if_neg bad]
    change text.foldlM push ⟨0, 0, []⟩ = _ at run
    rw [run]
    cases wide : text.foldlM pushWide ⟨0, 0, []⟩ with
    | none => rfl
    | some acc =>
        have few := nbits_lt_of_foldlM_pushWide (Nat.zero_lt_succ 7) wide
        have divides : 2 ^ acc.nbits ∣ 2 ^ 32 := Nat.pow_dvd_pow 2 (by omega)
        rw [Option.map_some, Option.bind_some, Option.bind_some]
        simp only [Nat.one_shiftLeft, Nat.and_two_pow_sub_one_eq_mod, Accumulator.cut,
          Nat.mod_mod_of_dvd _ divides]

end Base64Url
