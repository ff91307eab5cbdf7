import Rsdns.Library.IpPrinting

/-!
# Socket addresses in text

The standard library's parser and its way to write: the port is behind the address, and an
IPv6 address is in brackets, with its scope behind a percent sign if it has one.  What is
written is read back.
-/

namespace IpText

inductive SocketAddr where
  | V4 (ip : BitVec 32) (port : UInt16)
  | V6 (ip : BitVec 128) (port : UInt16) (scopeId : UInt32)
  deriving DecidableEq

/-! ### Reading -/

/-- A number of any length behind a mark. -/
def readMarked (mark : Char) (bound : Nat) (text : Text) : Option (Nat × Text) :=
  (readGivenChar mark text).bind fun rest => readNumber 10 rest.length true bound rest

def readPort (text : Text) : Option (UInt16 × Text) :=
  (readMarked ':' (2 ^ 16) text).map fun (port, rest) => (UInt16.ofNat port, rest)

def readScopeId (text : Text) : Option (UInt32 × Text) :=
  (readMarked '%' (2 ^ 32) text).map fun (scopeId, rest) => (UInt32.ofNat scopeId, rest)

def readSocketAddrV4 (text : Text) : Option (SocketAddr × Text) := do
  let (ip, rest) ← readIpv4Addr text
  let (port, rest) ← readPort rest
  return (.V4 ip port, rest)

def readSocketAddrV6 (text : Text) : Option (SocketAddr × Text) := do
  let rest ← readGivenChar '[' text
  let (ip, rest) ← readIpv6Addr rest
  let (scopeId, rest) := (readScopeId rest).getD (0, rest)
  let rest ← readGivenChar ']' rest
  let (port, rest) ← readPort rest
  return (.V6 ip port scopeId, rest)

def readSocketAddr (text : Text) : Option (SocketAddr × Text) :=
  (readSocketAddrV4 text).or (readSocketAddrV6 text)

def parseSocketAddr (text : Text) : Option SocketAddr := parseWith readSocketAddr text

/-! ### Writing -/

def ofScopeId (scopeId : UInt32) : Text :=
  if scopeId = 0 then [] else '%' :: Text.ofNat scopeId.toNat

def ofSocketAddr : SocketAddr → Text
  | .V4 ip port => ofIpv4Addr ip ++ ':' :: Text.ofNat port.toNat
  | .V6 ip port scopeId =>
      '[' :: (ofIpv6Addr ip ++ (ofScopeId scopeId ++ ']' :: ':' :: Text.ofNat port.toNat))

/-! ### What an address does not go on with -/

def Closes (rest : Text) : Prop := ∀ char ∈ rest.head?, ¬ IsIpChar char

theorem not_isIpChar_of_mark : ¬ IsIpChar ']' ∧ ¬ IsIpChar '%' := by
  unfold IsIpChar IsDigit
  decide

variable {rest : Text}

theorem Closes.stops_hexadecimal (closes : Closes rest) : Stops 16 rest := fun char member =>
  Option.not_isSome_iff_eq_none.mp fun digit => closes char member (.inl digit)

theorem Closes.stops_decimal (closes : Closes rest) : Stops 10 rest := fun char member =>
  Option.not_isSome_iff_eq_none.mp fun digit =>
    closes char member (.inl (IsDigit.hexadecimal digit))

/-- The reader reads the same, and fails alike, where this text follows. -/
def Closed {α : Type} (reader : Text → Option (α × Text)) (rest : Text) : Prop :=
  ∀ text, reader (text ++ rest) =
    (reader text).map fun (value, tail) => (value, tail ++ rest)

theorem readGivenChar_closed {target : Char} (inside : IsIpChar target) (closes : Closes rest)
    (text : Text) :
    readGivenChar target (text ++ rest) = (readGivenChar target text).map (· ++ rest) := by
  cases text with
  | nil =>
      apply readGivenChar_eq_none
      intro head
      exact closes target head inside
  | cons char text =>
      rw [List.cons_append, readGivenChar, readGivenChar]
      split <;> rfl

theorem closed_readNumber {radix : Nat} (stops : Stops radix rest) (maxDigits : Nat)
    (allowZeroPrefix : Bool) (bound : Nat) :
    Closed (readNumber radix maxDigits allowZeroPrefix bound) rest := by
  intro text
  cases text with
  | nil =>
      have nothing : Stops radix [] := nofun
      rw [List.nil_append, readNumber_eq_none stops, readNumber_eq_none nothing, Option.map_none]
  | cons char text =>
      unfold readNumber
      rw [readDigits_append stops, List.cons_append, List.head?_cons, List.head?_cons]
      dsimp only
      split_ifs <;> rfl

theorem Closed.readSeparator {α : Type} {inner : Text → Option (α × Text)} {separator : Char}
    (closed : Closed inner rest) (inside : IsIpChar separator) (closes : Closes rest)
    (index : Nat) : Closed (readSeparator separator index inner) rest := by
  intro text
  unfold IpText.readSeparator
  split
  · rw [readGivenChar_closed inside closes]
    cases readGivenChar separator text with
    | none => rfl
    | some later => exact closed later
  · exact closed text

theorem closed_readOctets (closes : Closes rest) (missing index : Nat) :
    Closed (readOctets missing index) rest := by
  induction missing generalizing index with
  | zero => intro text; rfl
  | succ missing inductionHypothesis =>
      intro text
      have octet := (closed_readNumber closes.stops_decimal 3 false 256).readSeparator
        (.inr (.inl rfl)) closes index text
      unfold readOctets
      rw [octet]
      cases IpText.readSeparator '.' index (readNumber 10 3 false 256) text with
      | none => rfl
      | some first =>
          simp only [Option.map_some, Option.bind_eq_bind, Option.bind_some,
            inductionHypothesis (index + 1) first.2]
          cases readOctets missing (index + 1) first.2 <;> rfl

theorem closed_readIpv4Addr (closes : Closes rest) : Closed readIpv4Addr rest := by
  intro text
  rw [readIpv4Addr, readIpv4Addr, closed_readOctets closes 4 0 text]
  cases readOctets 4 0 text <;> rfl

/-- Induction on the groups that are missing; an embedded address is tried first. -/
theorem readGroups_closed (closes : Closes rest) (missing index : Nat) (text : Text) :
    readGroups missing index (text ++ rest) =
      ((readGroups missing index text).1, (readGroups missing index text).2.1,
        (readGroups missing index text).2.2 ++ rest) := by
  induction missing generalizing index text with
  | zero => rfl
  | succ missing inductionHypothesis =>
      have colon : IsIpChar ':' := .inr (.inr rfl)
      have embedded := (closed_readIpv4Addr closes).readSeparator colon closes index text
      have group := (closed_readNumber closes.stops_hexadecimal 4 true (2 ^ 16)).readSeparator
        colon closes index text
      unfold readGroups
      rw [embedded, group]
      by_cases more : missing > 0
      · simp only [if_pos more]
        cases IpText.readSeparator ':' index readIpv4Addr text with
        | some address => rfl
        | none =>
            cases IpText.readSeparator ':' index (readNumber 16 4 true (2 ^ 16)) text with
            | none => rfl
            | some first => simp only [Option.map_none, Option.map_some, inductionHypothesis]
      · simp only [if_neg more]
        cases IpText.readSeparator ':' index (readNumber 16 4 true (2 ^ 16)) text with
        | none => rfl
        | some first => simp only [Option.map_some, inductionHypothesis]

theorem closed_readIpv6Addr (closes : Closes rest) : Closed readIpv6Addr rest := by
  intro text
  have colon : IsIpChar ':' := .inr (.inr rfl)
  unfold readIpv6Addr
  rw [readGroups_closed closes]
  obtain ⟨head, headIpv4, between⟩ := readGroups 8 0 text
  dsimp only
  split_ifs with all mapped
  · rfl
  · rfl
  · rw [readGivenChar_closed colon closes]
    cases readGivenChar ':' between with
    | none => rfl
    | some later =>
        simp only [Option.map_some, Option.bind_eq_bind, Option.bind_some,
          readGivenChar_closed colon closes]
        cases readGivenChar ':' later with
        | none => rfl
        | some last =>
            simp only [Option.map_some, Option.bind_some, readGroups_closed closes]
            rfl

/-! ### Reading back -/

theorem readMarked_ofNat (mark : Char) {number bound : Nat} (small : number < bound)
    (stops : Stops 10 rest) :
    readMarked mark bound (mark :: (Text.ofNat number ++ rest)) = some (number, rest) := by
  have positive : 0 < (Nat.toDigits 10 number).length := Nat.length_toDigits_pos
  have enough : (Nat.toDigits 10 number).length ≤ (Text.ofNat number ++ rest).length := by
    rw [List.length_append]
    exact Nat.le_add_right _ _
  have short : number < 10 ^ (Text.ofNat number ++ rest).length :=
    (Nat.length_toDigits_le_iff (by decide) (Nat.lt_of_lt_of_le positive enough)).mp enough
  unfold readMarked
  rw [readGivenChar, if_pos rfl, Option.bind_some]
  exact readNumber_toDigits (by decide) (by decide) (Nat.lt_of_lt_of_le positive enough) short
    small true stops

theorem readPort_ofNat (port : UInt16) :
    readPort (':' :: Text.ofNat port.toNat) = some (port, []) := by
  have stops : Stops 10 [] := nofun
  have read := readMarked_ofNat ':' port.toNat_lt stops
  rw [List.append_nil] at read
  rw [readPort, read]
  exact congrArg (fun port => some (port, [])) UInt16.ofNat_toNat

theorem readScopeId_ofScopeId (scopeId : UInt32) (later : Text) :
    (readScopeId (ofScopeId scopeId ++ ']' :: later)).getD (0, ofScopeId scopeId ++ ']' :: later) =
      (scopeId, ']' :: later) := by
  have stops : Stops 10 (']' :: later) := by
    rintro char ⟨⟩
    decide
  unfold ofScopeId
  split
  · next zero =>
      subst zero
      rfl
  · next nonzero =>
      rw [List.cons_append, readScopeId, readMarked_ofNat '%' scopeId.toNat_lt stops]
      exact congrArg (·, ']' :: later) UInt32.ofNat_toNat

theorem parseSocketAddr_ofSocketAddr (addr : SocketAddr) :
    parseSocketAddr (ofSocketAddr addr) = some addr := by
  have read : readSocketAddr (ofSocketAddr addr) = some (addr, []) := by
    cases addr with
    | V4 ip port =>
        have stops : Stops 10 (':' :: Text.ofNat port.toNat) := by
          rintro char ⟨⟩
          decide
        unfold readSocketAddr readSocketAddrV4 ofSocketAddr
        rw [readIpv4Addr_ofIpv4Addr ip stops]
        simp only [Option.bind_eq_bind, Option.bind_some, readPort_ofNat]
        rfl
    | V6 ip port scopeId =>
        have closes : Closes (ofScopeId scopeId ++ ']' :: ':' :: Text.ofNat port.toNat) := by
          unfold ofScopeId
          split
          · rintro char ⟨⟩
            exact not_isIpChar_of_mark.1
          · rintro char ⟨⟩
            exact not_isIpChar_of_mark.2
        have address := closed_readIpv6Addr closes (ofIpv6Addr ip)
        rw [readIpv6Addr_ofIpv6Addr] at address
        have noIpv4 : readSocketAddrV4 (ofSocketAddr (.V6 ip port scopeId)) = none := by
          have bracket : (readDigits 10 (ofSocketAddr (.V6 ip port scopeId))).2.head? =
              some '[' := rfl
          have dotless : (readDigits 10 (ofSocketAddr (.V6 ip port scopeId))).2.head? ≠
              some '.' := by
            rw [bracket]
            decide
          rw [readSocketAddrV4, readIpv4Addr_eq_none dotless]
          rfl
        rw [readSocketAddr, noIpv4, Option.none_or]
        unfold readSocketAddrV6 ofSocketAddr
        rw [readGivenChar, if_pos rfl]
        simp only [Option.bind_eq_bind, Option.bind_some, address, Option.map_some,
          List.nil_append, readScopeId_ofScopeId]
        rw [readGivenChar, if_pos rfl]
        simp only [Option.bind_some, readPort_ofNat]
        rfl
  rw [parseSocketAddr, parseWith, read]

/-! ### What is in an address -/

def NoSlash (char : Char) : Prop := char ≠ '/'

theorem IsIpChar.noSlash {char : Char} (isIp : IsIpChar char) : NoSlash char := by
  rintro rfl
  unfold IsIpChar IsDigit at isIp
  revert isIp
  decide

theorem noSlash_of_mark : NoSlash ':' ∧ NoSlash '%' ∧ NoSlash '[' ∧ NoSlash ']' := by
  unfold NoSlash
  decide

theorem takes_readMarked {mark : Char} (other : NoSlash mark) (bound : Nat) :
    Takes NoSlash (readMarked mark bound) := by
  intro text value rest read
  obtain ⟨behind, given, number⟩ := Option.bind_eq_some_iff.mp read
  have digits := takes_readNumber 10 behind.length true bound _ _ _ number
  refine (reads_readGivenChar other given).trans (digits.mono fun char digit => ?_)
  exact IsIpChar.noSlash (.inl (IsDigit.hexadecimal digit))

theorem takes_readPort : Takes NoSlash readPort := by
  intro text port rest read
  obtain ⟨⟨number, last⟩, found, same⟩ := Option.map_eq_some_iff.mp read
  cases same
  exact takes_readMarked noSlash_of_mark.1 _ _ _ _ found

theorem reads_readScopeId (text : Text) :
    Reads NoSlash text ((readScopeId text).getD (0, text)).2 := by
  cases read : readScopeId text with
  | none => exact .refl text
  | some scope =>
      obtain ⟨⟨number, last⟩, found, same⟩ := Option.map_eq_some_iff.mp read
      cases same
      exact takes_readMarked noSlash_of_mark.2.1 _ _ _ _ found

theorem takes_readSocketAddr : Takes NoSlash readSocketAddr := by
  intro text addr rest read
  rcases Option.or_eq_some_iff.mp read with isV4 | ⟨_, isV6⟩
  · obtain ⟨⟨ip, behind⟩, address, later⟩ := Option.bind_eq_some_iff.mp isV4
    obtain ⟨⟨port, last⟩, number, same⟩ := Option.bind_eq_some_iff.mp later
    cases same
    have front := (takes_readIpv4Addr _ _ _ address).mono fun char isIpv4 =>
      (IsIpv4Char.isIpChar isIpv4).noSlash
    exact front.trans (takes_readPort _ _ _ number)
  · obtain ⟨inside, opened, later⟩ := Option.bind_eq_some_iff.mp isV6
    obtain ⟨⟨ip, behind⟩, address, later⟩ := Option.bind_eq_some_iff.mp later
    obtain ⟨beforePort, closed, later⟩ := Option.bind_eq_some_iff.mp later
    obtain ⟨⟨port, last⟩, number, same⟩ := Option.bind_eq_some_iff.mp later
    cases same
    have front := (takes_readIpv6Addr _ _ _ address).mono fun char isIp => isIp.noSlash
    have opening := reads_readGivenChar noSlash_of_mark.2.2.1 opened
    have closing := reads_readGivenChar noSlash_of_mark.2.2.2 closed
    exact opening.trans (front.trans ((reads_readScopeId behind).trans
      (closing.trans (takes_readPort _ _ _ number))))

theorem slash_not_mem {text : Text} {addr : SocketAddr}
    (parsed : parseSocketAddr text = some addr) : '/' ∉ text := by
  intro member
  unfold parseSocketAddr parseWith at parsed
  split at parsed
  next value read =>
    exact (takes_readSocketAddr _ _ _ read).forall_mem '/' member rfl
  next => cases parsed

end IpText
