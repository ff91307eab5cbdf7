import Rsdns.Library.IpReading

/-!
# Addresses written out

The standard library's way to write an address: the octets of an IPv4 address in decimal,
the groups of an IPv6 address in hexadecimal, with the longest run of zeros left out and
an embedded IPv4 address at the end of a mapped one.  The readers read back what is
written.
-/

namespace IpText

/-! ### Writing -/

/-- The big-endian digits of a value to the base `2 ^ width`. -/
def groupsOf (width : Nat) : Nat → Nat → List Nat
  | 0, _ => []
  | count + 1, value => groupsOf width count (value / 2 ^ width) ++ [value % 2 ^ width]

def joined (mark : Char) : List Text → Text
  | [] => []
  | first :: rest => first ++ rest.flatMap fun piece => mark :: piece

def ofIpv4Addr (ip : BitVec 32) : Text :=
  joined '.' ((groupsOf 8 4 ip.toNat).map (Nat.toDigits 10))

def fmtSubslice (chunk : List Nat) : Text := joined ':' (chunk.map (Nat.toDigits 16))

structure Span where
  start : Nat
  len : Nat
  deriving DecidableEq

/-- The first of the longest runs of zeros, with the run that is going on. -/
def longestZeros (index : Nat) (longest current : Span) : List Nat → Span
  | [] => longest
  | segment :: rest =>
      if segment = 0 then
        let current : Span :=
          { start := if current.len = 0 then index else current.start, len := current.len + 1 }
        longestZeros (index + 1) (if current.len > longest.len then current else longest) current
          rest
      else longestZeros (index + 1) longest ⟨0, 0⟩ rest

def ofIpv6Addr (ip : BitVec 128) : Text :=
  let segments := groupsOf 16 8 ip.toNat
  if segments.take 6 = [0, 0, 0, 0, 0, 0xffff] then
    "::ffff:".toList ++ ofIpv4Addr (ip.setWidth 32)
  else
    let zeros := longestZeros 0 ⟨0, 0⟩ ⟨0, 0⟩ segments
    if zeros.len > 1 then
      fmtSubslice (segments.take zeros.start) ++ "::".toList ++
        fmtSubslice (segments.drop (zeros.start + zeros.len))
    else fmtSubslice segments

/-! ### Groups -/

theorem length_groupsOf (width count value : Nat) : (groupsOf width count value).length = count := by
  induction count generalizing value with
  | zero => rfl
  | succ count inductionHypothesis =>
      rw [groupsOf, List.length_append, inductionHypothesis, List.length_singleton]

theorem lt_of_mem_groupsOf {width count value group : Nat}
    (member : group ∈ groupsOf width count value) : group < 2 ^ width := by
  induction count generalizing value with
  | zero => cases member
  | succ count inductionHypothesis =>
      rcases List.mem_append.mp member with front | last
      · exact inductionHypothesis front
      · rw [List.mem_singleton.mp last]
        exact Nat.mod_lt _ (Nat.two_pow_pos width)

theorem ofGroups_groupsOf {width count value : Nat} (small : value < 2 ^ (width * count)) :
    ofGroups width (groupsOf width count value) = value := by
  induction count generalizing value with
  | zero =>
      rw [Nat.mul_zero, Nat.pow_zero, Nat.lt_one_iff] at small
      exact small.symm
  | succ count inductionHypothesis =>
      have smaller : value / 2 ^ width < 2 ^ (width * count) := by
        rw [Nat.div_lt_iff_lt_mul (Nat.two_pow_pos width), ← Nat.pow_add]
        exact small
      have front := inductionHypothesis smaller
      unfold ofGroups at front ⊢
      rw [groupsOf, List.foldl_append, front, List.foldl_cons, List.foldl_nil]
      exact Nat.div_add_mod' value (2 ^ width)

/-! ### Numbers -/

theorem toDigit_digitChar {radix digit : Nat} (few : radix ≤ 16) (small : digit < radix) :
    toDigit radix digit.digitChar = some digit := by
  have all : ∀ digit : Fin 16, toDigit 16 digit.val.digitChar = some digit.val := by decide
  have value := all ⟨digit, by omega⟩
  unfold toDigit at value ⊢
  dsimp only at value ⊢
  obtain ⟨unfiltered, _⟩ := Option.filter_eq_some_iff.mp value
  rw [unfiltered, Option.filter_some_pos]
  simpa using small

theorem readDigits_append_of_read {radix : Nat} {front : Text}
    (whole : (readDigits radix front).2 = []) (rest : Text) :
    readDigits radix (front ++ rest) =
      ((readDigits radix front).1 ++ (readDigits radix rest).1, (readDigits radix rest).2) := by
  induction front with
  | nil => rfl
  | cons char front inductionHypothesis =>
      rw [List.cons_append, readDigits, readDigits]
      rw [readDigits] at whole
      cases found : toDigit radix char with
      | none =>
          rw [found] at whole
          cases whole
      | some digit =>
          rw [found] at whole
          simp only [inductionHypothesis whole, List.cons_append]

theorem readDigits_toDigits {radix : Nat} (base : 1 < radix) (few : radix ≤ 16) (number : Nat) :
    ∃ digits, readDigits radix (Nat.toDigits radix number) = (digits, []) ∧
      digits.length = (Nat.toDigits radix number).length ∧
      digits.foldl (fun number digit => number * radix + digit) 0 = number := by
  induction number using Nat.strongRecOn with
  | ind number inductionHypothesis =>
      by_cases single : number < radix
      · refine ⟨[number], ?_, ?_, ?_⟩
        · simp [Nat.toDigits_of_lt_base single, readDigits, toDigit_digitChar few single]
        · rw [Nat.toDigits_of_lt_base single]
          rfl
        · simp
      · have shorter : number / radix < number := Nat.div_lt_self (by omega) base
        obtain ⟨digits, read, length, value⟩ := inductionHypothesis _ shorter
        have last := toDigit_digitChar few (Nat.mod_lt number (by omega))
        rw [Nat.toDigits_of_base_le base (by omega)]
        refine ⟨digits ++ [number % radix], ?_, ?_, ?_⟩
        · rw [readDigits_append_of_read (by rw [read]), read]
          simp [readDigits, last]
        · simp [length]
        · rw [List.foldl_append, value, List.foldl_cons, List.foldl_nil]
          exact Nat.div_add_mod' number radix

theorem eq_zero_of_head?_toDigits {radix number : Nat} (base : 1 < radix)
    (head : (Nat.toDigits radix number).head? = some '0') : number = 0 := by
  induction number using Nat.strongRecOn with
  | ind number inductionHypothesis =>
      by_cases single : number < radix
      · rw [Nat.toDigits_of_lt_base single] at head
        exact Nat.digitChar_eq_zero.mp (Option.some.inj head)
      · have shorter : number / radix < number := Nat.div_lt_self (by omega) base
        rw [Nat.toDigits_of_base_le base (by omega),
          List.head?_append_of_ne_nil _ Nat.toDigits_ne_nil] at head
        have zero := inductionHypothesis _ shorter head
        exact absurd ((Nat.div_eq_zero_iff_lt (by omega)).mp zero) single

theorem readNumber_toDigits {radix maxDigits bound number : Nat} (base : 1 < radix)
    (few : radix ≤ 16) (some_ : 0 < maxDigits) (short : number < radix ^ maxDigits)
    (small : number < bound) (allowZeroPrefix : Bool) {rest : Text} (stops : Stops radix rest) :
    readNumber radix maxDigits allowZeroPrefix bound (Nat.toDigits radix number ++ rest) =
      some (number, rest) := by
  have alone : readNumber radix maxDigits allowZeroPrefix bound (Nat.toDigits radix number) =
      some (number, []) := by
    obtain ⟨digits, read, length, value⟩ := readDigits_toDigits base few number
    have atMost : digits.length ≤ maxDigits := by
      rw [length]
      exact (Nat.length_toDigits_le_iff base some_).mpr short
    have atLeast : digits.length ≠ 0 := by
      rw [length]
      exact Nat.length_toDigits_pos.ne'
    have plain : ¬ (!allowZeroPrefix ∧ (Nat.toDigits radix number).head? = some '0' ∧
        digits.length > 1) := by
      rintro ⟨_, head, long⟩
      have zero := eq_zero_of_head?_toDigits base head
      rw [length, zero, Nat.toDigits_zero] at long
      exact absurd long (by decide)
    exact readNumber_eq_some_iff.mpr ⟨digits, read, atMost, atLeast, plain, value, small⟩
  have more := readNumber_append stops alone
  rwa [List.nil_append] at more

/-! ### IPv4 addresses -/

theorem Stops.flatMap {radix : Nat} (mark : Char) (unread : toDigit radix mark = none)
    (pieces : List Text) {rest : Text} (stops : Stops radix rest) :
    Stops radix ((pieces.flatMap fun piece => mark :: piece) ++ rest) := by
  cases pieces with
  | nil => exact stops
  | cons piece pieces =>
      rintro char ⟨⟩
      exact unread

theorem readNumber_octet {octet : Nat} (small : octet < 2 ^ 8) {rest : Text}
    (stops : Stops 10 rest) :
    readNumber 10 3 false 256 (Nat.toDigits 10 octet ++ rest) = some (octet, rest) :=
  readNumber_toDigits (by decide) (by decide) (by decide) (by omega) (by omega) false stops

theorem readOctets_later {octets : List Nat} (small : ∀ octet ∈ octets, octet < 2 ^ 8)
    {rest : Text} (stops : Stops 10 rest) (index : Nat) :
    readOctets octets.length (index + 1)
        (((octets.map (Nat.toDigits 10)).flatMap fun piece => '.' :: piece) ++ rest) =
      some (octets, rest) := by
  induction octets generalizing index with
  | nil => rfl
  | cons octet octets inductionHypothesis =>
      obtain ⟨here, others⟩ := List.forall_mem_cons.mp small
      have later := Stops.flatMap '.' (by decide) (octets.map (Nat.toDigits 10)) stops
      simp only [List.map_cons, List.flatMap_cons, List.cons_append, List.append_assoc,
        List.length_cons]
      unfold readOctets readSeparator
      rw [if_pos (Nat.succ_pos index), readGivenChar, if_pos rfl, Option.bind_some,
        readNumber_octet here later]
      simp only [Option.bind_eq_bind, Option.bind_some, inductionHypothesis others]
      rfl

theorem readIpv4Addr_ofIpv4Addr (ip : BitVec 32) {rest : Text} (stops : Stops 10 rest) :
    readIpv4Addr (ofIpv4Addr ip ++ rest) = some (ip, rest) := by
  have length := length_groupsOf 8 4 ip.toNat
  have small : ∀ octet ∈ groupsOf 8 4 ip.toNat, octet < 2 ^ 8 := fun _ => lt_of_mem_groupsOf
  have whole : ofGroups 8 (groupsOf 8 4 ip.toNat) = ip.toNat := ofGroups_groupsOf ip.isLt
  unfold ofIpv4Addr readIpv4Addr
  cases octets : groupsOf 8 4 ip.toNat with
  | nil =>
      rw [octets] at length
      cases length
  | cons octet others =>
      rw [octets] at length small whole
      obtain ⟨here, later⟩ := List.forall_mem_cons.mp small
      have fewer : others.length = 3 := by simpa using length
      have stopsLater := Stops.flatMap '.' (by decide) (others.map (Nat.toDigits 10)) stops
      have more := readOctets_later later stops 0
      rw [fewer] at more
      rw [List.map_cons, joined, List.append_assoc, readOctets, readSeparator,
        if_neg (Nat.lt_irrefl 0), readNumber_octet here stopsLater]
      simp only [Option.bind_eq_bind, Option.bind_some, Nat.zero_add] at more ⊢
      rw [more]
      simp [whole]

theorem isIpv4Char_of_mem {ip : BitVec 32} : ∀ char ∈ ofIpv4Addr ip, IsIpv4Char char := by
  have read := @readIpv4Addr_ofIpv4Addr ip [] (by simp [Stops])
  rw [List.append_nil] at read
  exact (takes_readIpv4Addr _ _ _ read).forall_mem

theorem length_joined_le {bound : Nat} {first : Text} {rest : List Text}
    (short : ∀ piece ∈ first :: rest, piece.length ≤ bound) (mark : Char) :
    (joined mark (first :: rest)).length ≤ bound + (bound + 1) * rest.length := by
  obtain ⟨firstShort, restShort⟩ := List.forall_mem_cons.mp short
  rw [joined, List.length_append]
  refine Nat.add_le_add firstShort ?_
  induction rest with
  | nil => exact Nat.le_refl 0
  | cons piece rest inductionHypothesis =>
      obtain ⟨here, later⟩ := List.forall_mem_cons.mp restShort
      have others := inductionHypothesis (List.forall_mem_cons.mpr ⟨firstShort, later⟩) later
      rw [List.flatMap_cons, List.length_append, List.length_cons, List.length_cons, Nat.mul_add_one]
      omega

theorem byteLen_ofIpv4Addr_le (ip : BitVec 32) : (ofIpv4Addr ip).byteLen ≤ 15 := by
  have narrow : (ofIpv4Addr ip).byteLen = (ofIpv4Addr ip).length :=
    Text.byteLen_of_ascii fun char member => (isIpv4Char_of_mem char member).isIpChar.plain.2.2
  have length := length_groupsOf 8 4 ip.toNat
  have short : ∀ piece ∈ (groupsOf 8 4 ip.toNat).map (Nat.toDigits 10), piece.length ≤ 3 := by
    intro piece member
    obtain ⟨octet, isOctet, rfl⟩ := List.mem_map.mp member
    have small : octet < 2 ^ 8 := lt_of_mem_groupsOf isOctet
    exact (Nat.length_toDigits_le_iff (by decide) (by decide)).mpr (by omega)
  rw [narrow, ofIpv4Addr]
  cases octets : groupsOf 8 4 ip.toNat with
  | nil =>
      rw [octets] at length
      cases length
  | cons octet others =>
      rw [octets] at length short
      have fewer : others.length = 3 := by simpa using length
      have bound := length_joined_le short '.'
      rwa [List.length_map, fewer] at bound

theorem parseIpv4Addr_ofIpv4Addr (ip : BitVec 32) : parseIpv4Addr (ofIpv4Addr ip) = some ip := by
  have read := @readIpv4Addr_ofIpv4Addr ip [] (by simp [Stops])
  rw [List.append_nil] at read
  rw [parseIpv4Addr, if_neg (Nat.not_lt_of_le (byteLen_ofIpv4Addr_le ip)), parseWith, read]

/-! ### Groups of an IPv6 address -/

theorem readGivenChar_eq_none {target : Char} {text : Text} (other : text.head? ≠ some target) :
    readGivenChar target text = none := by
  cases text with
  | nil => rfl
  | cons char text =>
      have different : char ≠ target := fun same => other (congrArg some same)
      rw [readGivenChar, if_neg different]

theorem readIpv4Addr_eq_none {text : Text}
    (dotless : (readDigits 10 text).2.head? ≠ some '.') : readIpv4Addr text = none := by
  apply Option.eq_none_iff_forall_ne_some.mpr
  rintro ⟨ip, rest⟩ read
  obtain ⟨⟨octets, last⟩, found, _⟩ := Option.map_eq_some_iff.mp read
  unfold readOctets at found
  obtain ⟨⟨octet, middle⟩, first, later⟩ := Option.bind_eq_some_iff.mp found
  obtain ⟨digits, readAll, _⟩ := readNumber_eq_some_iff.mp first
  rw [readAll] at dotless
  obtain ⟨⟨others, end_⟩, second, _⟩ := Option.bind_eq_some_iff.mp later
  unfold readOctets readSeparator at second
  rw [if_pos (by decide), readGivenChar_eq_none dotless] at second
  cases second

theorem Stops.readDigits {radix : Nat} {text : Text} (stops : Stops radix text) :
    readDigits radix text = ([], text) := readDigits_append stops []

theorem readNumber_eq_none {radix maxDigits bound : Nat} {allowZeroPrefix : Bool} {text : Text}
    (stops : Stops radix text) :
    readNumber radix maxDigits allowZeroPrefix bound text = none := by
  apply Option.eq_none_iff_forall_ne_some.mpr
  rintro ⟨value, rest⟩ read
  obtain ⟨digits, readAll, _, some_, _⟩ := readNumber_eq_some_iff.mp read
  rw [stops.readDigits] at readAll
  cases readAll
  exact some_ rfl

/-- What may follow the groups: nothing, or the zeros that are left out. -/
def Ends (rest : Text) : Prop := rest = [] ∨ ∃ more, rest = ':' :: ':' :: more

theorem toDigit_colon (radix : Nat) : toDigit radix ':' = none := rfl

theorem Ends.stops {rest : Text} (ends : Ends rest) (radix : Nat) : Stops radix rest := by
  rcases ends with rfl | ⟨more, rfl⟩
  · nofun
  · rintro char ⟨⟩
    exact toDigit_colon radix

theorem Ends.head?_ne {rest : Text} (ends : Ends rest) : rest.head? ≠ some '.' := by
  rcases ends with rfl | ⟨more, rfl⟩
  · nofun
  · simp

theorem Stops.decimal {rest : Text} (stops : Stops 16 rest) : Stops 10 rest := by
  intro char head
  by_contra digit
  have hexadecimal := IsDigit.hexadecimal (Option.isSome_iff_ne_none.mpr digit)
  rw [IsDigit, stops char head] at hexadecimal
  cases hexadecimal

theorem readIpv4Addr_of_stops {rest : Text} (stops : Stops 10 rest)
    (dotless : rest.head? ≠ some '.') : readIpv4Addr rest = none := by
  apply readIpv4Addr_eq_none
  rwa [stops.readDigits]

/-- A group is no IPv4 address, wherever its first letter is. -/
theorem readIpv4Addr_group (group : Nat) {rest : Text} (stops : Stops 10 rest)
    (dotless : rest.head? ≠ some '.') :
    readIpv4Addr (Nat.toDigits 16 group ++ rest) = none := by
  apply readIpv4Addr_eq_none
  rw [readDigits_append stops]
  cases left : (readDigits 10 (Nat.toDigits 16 group)).2 with
  | nil => exact dotless
  | cons char more =>
      have inside : char ∈ Nat.toDigits 16 group := by
        obtain ⟨front, whole, _⟩ := reads_readDigits 10 (Nat.toDigits 16 group)
        rw [whole, left]
        simp
      obtain ⟨digits, read, _⟩ := readDigits_toDigits (Nat.lt_of_sub_eq_succ rfl : 1 < 16) le_rfl group
      have hexadecimal := reads_readDigits 16 (Nat.toDigits 16 group)
      rw [read] at hexadecimal
      have isDigit := hexadecimal.forall_mem char inside
      rintro ⟨⟩
      unfold IsDigit at isDigit
      exact absurd isDigit (by decide)

theorem readGroups_ends {rest : Text} (ends : Ends rest) (missing index : Nat) :
    readGroups missing index rest = ([], false, rest) := by
  have noGroup : ∀ {α : Type} (inner : Text → Option (α × Text)),
      (∀ text, Stops 16 text → text.head? ≠ some '.' → inner text = none) →
      readSeparator ':' index inner rest = none := by
    intro α inner fails
    unfold readSeparator
    split
    · rcases ends with rfl | ⟨more, rfl⟩
      · rfl
      · refine fails (':' :: more) ?_ (by simp)
        rintro char ⟨⟩
        exact toDigit_colon 16
    · exact fails rest (ends.stops 16) ends.head?_ne
  cases missing with
  | zero => rfl
  | succ missing =>
      have noAddress := noGroup readIpv4Addr fun text stops dotless =>
        readIpv4Addr_of_stops stops.decimal dotless
      have noNumber := noGroup (readNumber 16 4 true (2 ^ 16)) fun text stops _ =>
        readNumber_eq_none stops
      unfold readGroups
      rw [noAddress, noNumber, ite_self]

theorem readNumber_group {group : Nat} (small : group < 2 ^ 16) {rest : Text}
    (stops : Stops 16 rest) :
    readNumber 16 4 true (2 ^ 16) (Nat.toDigits 16 group ++ rest) = some (group, rest) :=
  readNumber_toDigits (by decide) (by decide) (by decide) (by omega) small true stops

/-- What comes in front of an element: the separator, but not before the first one. -/
def separated (mark : Char) (index : Nat) (text : Text) : Text :=
  if index > 0 then mark :: text else text

theorem readSeparator_separated {α : Type} (mark : Char) (index : Nat)
    (inner : Text → Option (α × Text)) (text : Text) :
    readSeparator mark index inner (separated mark index text) = inner text := by
  unfold readSeparator separated
  split
  · rw [readGivenChar, if_pos rfl, Option.bind_some]
  · rfl

theorem readGroups_group {group : Nat} (small : group < 2 ^ 16) {more : Text}
    (stops : Stops 16 more) (dotless : more.head? ≠ some '.') (missing index : Nat) :
    readGroups (missing + 1) index (separated ':' index (Nat.toDigits 16 group ++ more)) =
      (group :: (readGroups missing (index + 1) more).1,
        (readGroups missing (index + 1) more).2) := by
  rw [readGroups, readSeparator_separated, readSeparator_separated,
    readIpv4Addr_group group stops.decimal dotless, readNumber_group small stops, ite_self]

theorem head?_flatMap_ne {rest : Text} (dotless : rest.head? ≠ some '.') (pieces : List Text) :
    ((pieces.flatMap fun piece => ':' :: piece) ++ rest).head? ≠ some '.' := by
  cases pieces with
  | nil => exact dotless
  | cons piece pieces => simp

theorem readGroups_later {groups : List Nat} (small : ∀ group ∈ groups, group < 2 ^ 16)
    {rest : Text} (ends : Ends rest) {missing : Nat} (enough : groups.length ≤ missing)
    (index : Nat) :
    readGroups missing (index + 1)
        (((groups.map (Nat.toDigits 16)).flatMap fun piece => ':' :: piece) ++ rest) =
      (groups, false, rest) := by
  induction groups generalizing missing index with
  | nil => exact readGroups_ends ends missing (index + 1)
  | cons group groups inductionHypothesis =>
      obtain ⟨here, others⟩ := List.forall_mem_cons.mp small
      obtain ⟨fewer, rfl⟩ := Nat.exists_eq_add_of_le' (Nat.le_trans (Nat.le_add_left 1 _) enough)
      have stops := Stops.flatMap ':' (toDigit_colon 16) (groups.map (Nat.toDigits 16))
        (ends.stops 16)
      have dotless := head?_flatMap_ne ends.head?_ne (groups.map (Nat.toDigits 16))
      have read := readGroups_group here stops dotless fewer (index + 1)
      rw [inductionHypothesis others (Nat.le_of_succ_le_succ enough)] at read
      rw [List.map_cons, List.flatMap_cons, List.cons_append, List.cons_append,
        List.append_assoc]
      exact read

theorem readGroups_fmtSubslice {groups : List Nat} (small : ∀ group ∈ groups, group < 2 ^ 16)
    {rest : Text} (ends : Ends rest) {missing : Nat} (enough : groups.length ≤ missing) :
    readGroups missing 0 (fmtSubslice groups ++ rest) = (groups, false, rest) := by
  cases groups with
  | nil => exact readGroups_ends ends missing 0
  | cons group groups =>
      obtain ⟨here, others⟩ := List.forall_mem_cons.mp small
      obtain ⟨fewer, rfl⟩ := Nat.exists_eq_add_of_le' (Nat.le_trans (Nat.le_add_left 1 _) enough)
      have stops := Stops.flatMap ':' (toDigit_colon 16) (groups.map (Nat.toDigits 16))
        (ends.stops 16)
      have dotless := head?_flatMap_ne ends.head?_ne (groups.map (Nat.toDigits 16))
      have read := readGroups_group here stops dotless fewer 0
      rw [readGroups_later others ends (Nat.le_of_succ_le_succ enough)] at read
      rw [fmtSubslice, List.map_cons, joined, List.append_assoc]
      exact read

theorem readIpv4Addr_fmtSubslice (groups : List Nat) {rest : Text} (ends : Ends rest) :
    readIpv4Addr (fmtSubslice groups ++ rest) = none := by
  cases groups with
  | nil => exact readIpv4Addr_of_stops (ends.stops 10) ends.head?_ne
  | cons group groups =>
      rw [fmtSubslice, List.map_cons, joined, List.append_assoc]
      apply readIpv4Addr_group
      · exact Stops.flatMap ':' (toDigit_colon 10) _ (ends.stops 10)
      · exact head?_flatMap_ne ends.head?_ne _

/-! ### Runs of zeros -/

def Span.Zeros (span : Span) (segments : List Nat) : Prop :=
  ∃ before after, segments = before ++ List.replicate span.len 0 ++ after ∧
    (0 < span.len → before.length = span.start)

theorem Span.Zeros.ite {first second : Span} {segments : List Nat} (zeros : first.Zeros segments)
    (otherZeros : second.Zeros segments) (condition : Prop) [Decidable condition] :
    (if condition then first else second).Zeros segments := by
  split
  · exact zeros
  · exact otherZeros

theorem longestZeros_zeros {front rest : List Nat} {longest current : Span}
    (zeros : longest.Zeros (front ++ rest))
    (going : ∃ before, front = before ++ List.replicate current.len 0 ∧
      (0 < current.len → before.length = current.start)) :
    (longestZeros front.length longest current rest).Zeros (front ++ rest) := by
  induction rest generalizing front longest current with
  | nil => exact zeros
  | cons segment rest inductionHypothesis =>
      obtain ⟨before, whole, starts⟩ := going
      have moved : front ++ segment :: rest = (front ++ [segment]) ++ rest := by simp
      have length : front.length + 1 = (front ++ [segment]).length := by simp
      unfold longestZeros
      rw [moved] at zeros ⊢
      rw [length]
      split
      · next isZero =>
          subst isZero
          have longer : ∃ before, front ++ [0] = before ++ List.replicate (current.len + 1) 0 ∧
              before.length = if current.len = 0 then front.length else current.start := by
            refine ⟨before, ?_, ?_⟩
            · rw [whole, List.append_assoc, List.replicate_succ']
            · split
              · next none_ => rw [whole, none_]; simp
              · next some_ => exact starts (Nat.pos_of_ne_zero some_)
          obtain ⟨start, run, starting⟩ := longer
          apply inductionHypothesis
          · have current : Span.Zeros
                ⟨if current.len = 0 then front.length else current.start, current.len + 1⟩
                ((front ++ [0]) ++ rest) := ⟨start, rest, by rw [run], fun _ => starting⟩
            exact current.ite zeros _
          · exact ⟨start, run, fun _ => starting⟩
      · apply inductionHypothesis zeros
        exact ⟨front ++ [segment], by simp, nofun⟩

theorem zeros_longestZeros (segments : List Nat) :
    (longestZeros 0 ⟨0, 0⟩ ⟨0, 0⟩ segments).Zeros segments := by
  have nothing : Span.Zeros ⟨0, 0⟩ ([] ++ segments) := ⟨[], segments, rfl, nofun⟩
  exact longestZeros_zeros nothing ⟨[], rfl, nofun⟩

/-! ### IPv6 addresses -/

theorem readIpv6Addr_plain {groups : List Nat} (small : ∀ group ∈ groups, group < 2 ^ 16)
    (length : groups.length = 8) :
    readIpv6Addr (fmtSubslice groups) = some (BitVec.ofNat 128 (ofGroups 16 groups), []) := by
  have read := readGroups_fmtSubslice small (.inl rfl) length.le
  rw [List.append_nil] at read
  unfold readIpv6Addr
  rw [read]
  dsimp only
  rw [if_pos length]

/-- The zeros that are left out between the groups are put back. -/
theorem readIpv6Addr_of_readGroups {text after rest : Text} {head tail : List Nat}
    {embedded : Bool} (first : readGroups 8 0 text = (head, false, ':' :: ':' :: after))
    (fewer : head.length ≠ 8)
    (second : readGroups (8 - (head.length + 1)) 0 after = (tail, embedded, rest)) :
    readIpv6Addr text =
      some (BitVec.ofNat 128 (ofGroups 16
        (head ++ List.replicate (8 - head.length - tail.length) 0 ++ tail)), rest) := by
  unfold readIpv6Addr
  rw [first]
  dsimp only
  rw [if_neg fewer, if_neg Bool.false_ne_true, readGivenChar, if_pos rfl]
  simp only [Option.bind_eq_bind, Option.bind_some, readGivenChar, if_true, second]
  rfl

theorem readIpv6Addr_compressed {head tail : List Nat} (small : ∀ group ∈ head, group < 2 ^ 16)
    (smallToo : ∀ group ∈ tail, group < 2 ^ 16) (fewer : head.length + tail.length < 8) :
    readIpv6Addr (fmtSubslice head ++ "::".toList ++ fmtSubslice tail) =
      some (BitVec.ofNat 128 (ofGroups 16
        (head ++ List.replicate (8 - head.length - tail.length) 0 ++ tail)), []) := by
  have first := readGroups_fmtSubslice small (.inr ⟨fmtSubslice tail, rfl⟩)
    (by omega : head.length ≤ 8)
  have second := readGroups_fmtSubslice smallToo (.inl rfl)
    (by omega : tail.length ≤ 8 - (head.length + 1))
  rw [List.append_nil] at second
  rw [List.append_assoc]
  exact readIpv6Addr_of_readGroups first (by omega) second

theorem readIpv6Addr_mapped (ip : BitVec 32) :
    readIpv6Addr ("::ffff:".toList ++ ofIpv4Addr ip) =
      some (BitVec.ofNat 128 (ofGroups 16
        [0, 0, 0, 0, 0, 0xffff, ip.toNat / 2 ^ 16, ip.toNat % 2 ^ 16]), []) := by
  have address : readIpv4Addr (ofIpv4Addr ip) = some (ip, []) := by
    have stops : Stops 10 [] := nofun
    have more := readIpv4Addr_ofIpv4Addr ip stops
    rwa [List.append_nil] at more
  have embedded : readGroups 6 1 (separated ':' 1 (ofIpv4Addr ip)) =
      ([ip.toNat / 2 ^ 16, ip.toNat % 2 ^ 16], true, []) := by
    rw [readGroups, if_pos (by decide), readSeparator_separated, address]
  have tail : readGroups 7 0 ("ffff:".toList ++ ofIpv4Addr ip) =
      ([0xffff, ip.toNat / 2 ^ 16, ip.toNat % 2 ^ 16], true, []) := by
    have stops : Stops 16 (separated ':' 1 (ofIpv4Addr ip)) := by
      rintro char ⟨⟩
      exact toDigit_colon 16
    have dotless : (separated ':' 1 (ofIpv4Addr ip)).head? ≠ some '.' := by simp [separated]
    have read := readGroups_group (by decide : 0xffff < 2 ^ 16) stops dotless 6 0
    rw [embedded] at read
    exact read
  have head := readGroups_ends (.inr ⟨"ffff:".toList ++ ofIpv4Addr ip, rfl⟩) 8 0
  exact readIpv6Addr_of_readGroups head (by decide) tail

theorem readIpv6Addr_ofIpv6Addr (ip : BitVec 128) :
    readIpv6Addr (ofIpv6Addr ip) = some (ip, []) := by
  have length := length_groupsOf 16 8 ip.toNat
  have small : ∀ group ∈ groupsOf 16 8 ip.toNat, group < 2 ^ 16 := fun _ => lt_of_mem_groupsOf
  have whole : ofGroups 16 (groupsOf 16 8 ip.toNat) = ip.toNat := ofGroups_groupsOf ip.isLt
  have back : BitVec.ofNat 128 (ofGroups 16 (groupsOf 16 8 ip.toNat)) = ip := by
    rw [whole, BitVec.ofNat_toNat, BitVec.setWidth_eq]
  unfold ofIpv6Addr
  dsimp only
  generalize groupsOf 16 8 ip.toNat = segments at length small whole back ⊢
  split
  · next mapped =>
      have two : (segments.drop 6).length = 2 := by rw [List.length_drop, length]
      obtain ⟨high, low, last⟩ := List.length_eq_two.mp two
      have pieces := List.take_append_drop 6 segments
      rw [mapped, last] at pieces
      subst pieces
      have lowSmall : low < 2 ^ 16 := small low (by simp)
      have highSmall : high < 2 ^ 16 := small high (by simp)
      have bits : (ip.setWidth 32).toNat = high * 2 ^ 16 + low := by
        rw [BitVec.toNat_setWidth, ← whole]
        simp only [ofGroups, List.cons_append, List.nil_append, List.foldl_cons, List.foldl_nil]
        omega
      have highBits : (high * 2 ^ 16 + low) / 2 ^ 16 = high := by omega
      have lowBits : (high * 2 ^ 16 + low) % 2 ^ 16 = low := by omega
      rw [readIpv6Addr_mapped, bits, highBits, lowBits]
      exact congrArg some (congrArg (·, []) back)
  · split
    · next long =>
        have found := zeros_longestZeros segments
        generalize longestZeros 0 ⟨0, 0⟩ ⟨0, 0⟩ segments = zeros at long found ⊢
        obtain ⟨before, after, rfl, starts⟩ := found
        have start := starts (by omega)
        simp only [List.length_append, List.length_replicate] at length
        have front : (before ++ List.replicate zeros.len 0 ++ after).take zeros.start = before := by
          rw [List.append_assoc, ← start, List.take_left]
        have behind : (before ++ List.replicate zeros.len 0 ++ after).drop
            (zeros.start + zeros.len) = after := by
          have run : (before ++ List.replicate zeros.len 0).length = zeros.start + zeros.len := by
            simp [start]
          rw [← run, List.drop_left]
        have left : 8 - before.length - after.length = zeros.len := by omega
        rw [front, behind, readIpv6Addr_compressed
          (fun group member => small group (by simp [member]))
          (fun group member => small group (by simp [member])) (by omega), left, back]
    · rw [readIpv6Addr_plain small length, back]

/-- An IPv6 address is not taken for an IPv4 address. -/
theorem readIpv4Addr_ofIpv6Addr (ip : BitVec 128) : readIpv4Addr (ofIpv6Addr ip) = none := by
  unfold ofIpv6Addr
  dsimp only
  split
  · exact readIpv4Addr_fmtSubslice [] (.inr ⟨_, rfl⟩)
  · split
    · rw [List.append_assoc]
      exact readIpv4Addr_fmtSubslice _ (.inr ⟨_, rfl⟩)
    · have alone := readIpv4Addr_fmtSubslice (groupsOf 16 8 ip.toNat) (.inl rfl)
      rwa [List.append_nil] at alone

theorem isIpChar_of_mem {ip : BitVec 128} : ∀ char ∈ ofIpv6Addr ip, IsIpChar char :=
  (takes_readIpv6Addr _ _ _ (readIpv6Addr_ofIpv6Addr ip)).forall_mem

theorem parseIpv6Addr_ofIpv6Addr (ip : BitVec 128) : parseIpv6Addr (ofIpv6Addr ip) = some ip := by
  rw [parseIpv6Addr, parseWith, readIpv6Addr_ofIpv6Addr]

theorem parseIpv4Addr_ofIpv6Addr (ip : BitVec 128) : parseIpv4Addr (ofIpv6Addr ip) = none := by
  rw [parseIpv4Addr, parseWith, readIpv4Addr_ofIpv6Addr, ite_self]

/-- The first of two equally long runs is left out. -/
example : ofIpv6Addr 0x20010db8000000000001000000000001#128 = "2001:db8::1:0:0:1".toList := by
  decide +kernel

end IpText
