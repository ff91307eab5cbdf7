import Rsdns.Library.IpPrinting
import Rsdns.Upstream.Address

/-!
# The two readers of hosts and ports

The reader for UDP and TCP knows the text of an address when it sees it and takes the
brackets off; the reader for TLS and QUIC cuts at the last colon if a port follows it and
never fails.  They read alike where a text is plainly a host or a host and a port.  The
first one gives the address and the port of every text they are written in, but does not
look at what follows a bracket unless it is a port.
-/

namespace Rsdns.Upstream

open Dns IpText

variable {Conn : Type}

abbrev IsIp (text : Text) : Prop := (IpAddr.parse text).isSome = true

/-! ### Addresses in text -/

theorem parse_eq_some_iff {text : Text} {ip : IpAddr} :
    IpAddr.parse text = some ip ↔
      (∃ address, readIpv4Addr text = some (address, []) ∧ ip = .v4 address) ∨
        readIpv4Addr text = none ∧
          ∃ address, readIpv6Addr text = some (address, []) ∧ ip = .v6 address := by
  unfold IpAddr.parse parseWith
  dsimp only
  cases four : readIpv4Addr text with
  | some found =>
      obtain ⟨address, rest⟩ := found
      cases rest <;> simp [eq_comm]
  | none =>
      cases six : readIpv6Addr text with
      | some found =>
          obtain ⟨address, rest⟩ := found
          cases rest <;> simp [eq_comm]
      | none => simp

theorem isIpChar_of_isIp {text : Text} (isIp : IsIp text) : ∀ char ∈ text, IsIpChar char := by
  obtain ⟨ip, parsed⟩ := Option.isSome_iff_exists.mp isIp
  rcases parse_eq_some_iff.mp parsed with ⟨address, read, _⟩ | ⟨_, address, read, _⟩
  · exact ((takes_readIpv4Addr _ _ _ read).mono fun char => IsIpv4Char.isIpChar).forall_mem
  · exact (takes_readIpv6Addr _ _ _ read).forall_mem

theorem parse_append_eq_none {text rest : Text} {address : BitVec 32}
    (parsed : IpAddr.parse text = some (.v4 address)) (more : rest ≠ [])
    (stops : Stops 10 rest) : IpAddr.parse (text ++ rest) = none := by
  have found : readIpv4Addr text = some (address, []) := by
    rcases parse_eq_some_iff.mp parsed with ⟨other, read, same⟩ | ⟨_, other, _, same⟩
    · cases same
      exact read
    · cases same
  have read := extends_readIpv4Addr stops _ _ _ found
  apply Option.eq_none_iff_forall_ne_some.mpr
  intro ip parsedMore
  rcases parse_eq_some_iff.mp parsedMore with ⟨other, readMore, _⟩ | ⟨unread, _⟩
  · cases read.symm.trans readMore
    exact more rfl
  · cases read.symm.trans unread

theorem not_isIpChar_of_bracket : ¬ IsIpChar '[' ∧ ¬ IsIpChar ']' := by
  unfold IsIpChar IsDigit
  decide

theorem not_isIp_nil : ¬ IsIp [] := by
  unfold IsIp
  decide

theorem not_isIp_bracket (rest : Text) : ¬ IsIp ('[' :: rest) := fun isIp =>
  not_isIpChar_of_bracket.1 (isIpChar_of_isIp isIp '[' List.mem_cons_self)

theorem IsIp.not_mem_bracket {text : Text} (isIp : IsIp text) : ']' ∉ text := fun member =>
  not_isIpChar_of_bracket.2 (isIpChar_of_isIp isIp ']' member)

/-! ### Both readers by cases -/

section Cases

variable (default : UInt16) {text host port : Text}

theorem parseHostPortDefault_ip (isIp : IsIp text) :
    parseHostPortDefault default text = some (text, default) := by
  have nonempty : text ≠ [] := fun empty => not_isIp_nil (empty ▸ isIp)
  rw [parseHostPortDefault, if_neg nonempty, if_pos isIp]

theorem parseHostPortDefault_bracket {addr after : Text} (closing : ']' ∉ addr) :
    parseHostPortDefault default ('[' :: (addr ++ ']' :: after)) =
      if IsIp addr then
        some (addr, ((Text.stripPrefix ":".toList after).bind parsePort).getD default)
      else none := by
  have inside : Text.stripPrefix "[".toList ('[' :: (addr ++ ']' :: after)) =
      some (addr ++ ']' :: after) := rfl
  rw [parseHostPortDefault, if_neg (List.cons_ne_nil _ _), if_neg (not_isIp_bracket _), inside]
  simp only [Text.splitOnce_append closing]
  by_cases isIp : IsIp addr
  · have nonempty : addr ≠ [] := fun empty => not_isIp_nil (empty ▸ isIp)
    rw [if_pos isIp, if_neg]
    simp only [nonempty, false_or, Option.isNone_iff_eq_none]
    exact fun unread => absurd isIp (by simp [unread])
  · rw [if_neg isIp, if_pos]
    exact .inr (by simpa using isIp)

theorem parseHostPortDefault_unclosed {rest : Text} (unclosed : ']' ∉ rest) :
    parseHostPortDefault default ('[' :: rest) = none := by
  have inside : Text.stripPrefix "[".toList ('[' :: rest) = some rest := rfl
  rw [parseHostPortDefault, if_neg (List.cons_ne_nil _ _), if_neg (not_isIp_bracket _), inside]
  simp only [Text.splitOnce_eq_none_iff.mpr unclosed]

theorem stripPrefix_bracket {text : Text} (unbracketed : text.head? ≠ some '[') :
    Text.stripPrefix "[".toList text = none := by
  apply Option.eq_none_iff_forall_ne_some.mpr
  intro rest stripped
  rw [Text.stripPrefix_eq_some_iff.mp stripped] at unbracketed
  exact unbracketed rfl

theorem parseHostPortDefault_pair (notIp : ¬ IsIp (host ++ ':' :: port))
    (unbracketed : (host ++ ':' :: port).head? ≠ some '[') (last : ':' ∉ port) :
    parseHostPortDefault default (host ++ ':' :: port) =
      if host = [] then none else (parsePort port).map fun port => (host, port) := by
  have cut := Text.rsplitOnce_eq_some_iff.mpr ⟨last, Eq.refl (host ++ ':' :: port)⟩
  rw [parseHostPortDefault, if_neg (by simp), if_neg notIp, stripPrefix_bracket unbracketed]
  simp only [cut]

theorem parseHostPortDefault_host (nonempty : text ≠ []) (unbracketed : text.head? ≠ some '[')
    (bare : ':' ∉ text) : parseHostPortDefault default text = some (text, default) := by
  by_cases isIp : IsIp text
  · exact parseHostPortDefault_ip default isIp
  · rw [parseHostPortDefault, if_neg nonempty, if_neg isIp, stripPrefix_bracket unbracketed]
    simp only [Text.rsplitOnce_eq_none_iff.mpr bare]

theorem parseHostPort_pair (last : ':' ∉ port) :
    parseHostPort (host ++ ':' :: port) =
      some (((parsePort port).map fun port => (host, port)).getD (host ++ ':' :: port, 853)) := by
  have cut := Text.rsplitOnce_eq_some_iff.mpr ⟨last, Eq.refl (host ++ ':' :: port)⟩
  rw [parseHostPort, cut, Option.bind_some]
  dsimp only
  cases parsePort port <;> rfl

theorem parseHostPort_host (bare : ':' ∉ text) : parseHostPort text = some (text, 853) := by
  rw [parseHostPort, Text.rsplitOnce_eq_none_iff.mpr bare]
  rfl

theorem host_parseHostPortDefault (first second : UInt16) (text : Text) :
    (parseHostPortDefault first text).map Prod.fst =
      (parseHostPortDefault second text).map Prod.fst := by
  unfold parseHostPortDefault
  split
  · rfl
  split
  · rfl
  split
  · split
    · rfl
    · split <;> rfl
  · split <;> rfl

theorem parseHostPort_bracket {rest host : Text} {port : UInt16}
    (found : parseHostPort ('[' :: rest) = some (host, port)) : host.head? = some '[' := by
  cases cut : Text.rsplitOnce ':' ('[' :: rest) with
  | none =>
      rw [parseHostPort_host (Text.rsplitOnce_eq_none_iff.mp cut)] at found
      cases found
      rfl
  | some pieces =>
      obtain ⟨front, back⟩ := pieces
      obtain ⟨last, whole⟩ := Text.rsplitOnce_eq_some_iff.mp cut
      have head : front.head? = some '[' := by
        cases front with
        | nil => cases whole
        | cons char front =>
            cases whole
            rfl
      rw [whole, parseHostPort_pair last, ← whole] at found
      cases parsed : parsePort back with
      | none =>
          rw [parsed] at found
          cases found
          rfl
      | some value =>
          rw [parsed] at found
          cases found
          exact head

end Cases

/-! ### Reading alike -/

/-- No brackets, and a port after the last colon exactly if the text is not an address. -/
structure ReadsPlainly (text : Text) : Prop where
  nonempty : text ≠ []
  unbracketed : text.head? ≠ some '['
  literal : IsIp text → ∀ host port, text = host ++ ':' :: port → ':' ∉ port →
    parsePort port = none
  pair : ¬ IsIp text → ∀ host port, text = host ++ ':' :: port → ':' ∉ port →
    host ≠ [] ∧ (parsePort port).isSome = true

theorem parseHostPort_eq_of_readsPlainly {text : Text} (plainly : ReadsPlainly text) :
    parseHostPort text = parseHostPortDefault 853 text := by
  cases cut : Text.rsplitOnce ':' text with
  | none =>
      have bare := Text.rsplitOnce_eq_none_iff.mp cut
      rw [parseHostPort_host bare,
        parseHostPortDefault_host 853 plainly.nonempty plainly.unbracketed bare]
  | some found =>
      obtain ⟨host, port⟩ := found
      obtain ⟨last, rfl⟩ := Text.rsplitOnce_eq_some_iff.mp cut
      rw [parseHostPort_pair last]
      by_cases isIp : IsIp (host ++ ':' :: port)
      · rw [plainly.literal isIp host port rfl last, parseHostPortDefault_ip 853 isIp]
        rfl
      · obtain ⟨nonempty, isPort⟩ := plainly.pair isIp host port rfl last
        obtain ⟨value, parsed⟩ := Option.isSome_iff_exists.mp isPort
        rw [parseHostPortDefault_pair 853 isIp plainly.unbracketed last, if_neg nonempty, parsed]
        rfl

theorem readsPlainly_of_parseHostPort_eq {text : Text}
    (alike : parseHostPort text = parseHostPortDefault 853 text) : ReadsPlainly text := by
  have never : parseHostPort text ≠ none := by
    cases cut : Text.rsplitOnce ':' text with
    | none =>
        rw [parseHostPort_host (Text.rsplitOnce_eq_none_iff.mp cut)]
        exact Option.some_ne_none _
    | some found =>
        obtain ⟨last, rfl⟩ := Text.rsplitOnce_eq_some_iff.mp cut
        rw [parseHostPort_pair last]
        exact Option.some_ne_none _
  have bracketless : text.head? ≠ some '[' := by
    intro bracket
    obtain ⟨rest, rfl⟩ := List.head?_eq_some_iff.mp bracket
    by_cases closed : ']' ∈ rest
    · obtain ⟨addr, after, rfl, closing⟩ := List.eq_append_cons_of_mem closed
      rw [parseHostPortDefault_bracket 853 closing] at alike
      split at alike
      · next isIp =>
          have head := parseHostPort_bracket alike
          obtain ⟨inside, rfl⟩ := List.head?_eq_some_iff.mp head
          exact not_isIp_bracket inside isIp
      · exact never alike
    · exact never (alike.trans (parseHostPortDefault_unclosed 853 closed))
  refine ⟨?_, bracketless, ?_, ?_⟩
  · rintro rfl
    exact never alike
  · rintro isIp host port rfl last
    rw [parseHostPort_pair last, parseHostPortDefault_ip 853 isIp] at alike
    cases parsed : parsePort port with
    | none => rfl
    | some value =>
        rw [parsed] at alike
        have shorter := congrArg List.length (congrArg Prod.fst (Option.some.inj alike))
        simp at shorter
  · rintro notIp host port rfl last
    have unbracketed : (host ++ ':' :: port).head? ≠ some '[' := bracketless
    rw [parseHostPortDefault_pair 853 notIp unbracketed last] at alike
    have found : (if host = [] then none else (parsePort port).map fun port => (host, port)) ≠
        none := fun none_ => never (alike.trans none_)
    by_cases empty : host = []
    · exact absurd (if_pos empty) found
    · rw [if_neg empty, Ne, Option.map_eq_none_iff] at found
      exact ⟨empty, Option.isSome_iff_ne_none.mpr found⟩

/-- The two readers read a text alike exactly if it is plainly a host or a host and a
port; what the one takes for an address the other connects to then. -/
theorem host_port_alike_iff (text : Text) :
    (parseHostPort text = parseHostPortDefault 853 text ↔ ReadsPlainly text) ∧
    (ReadsPlainly text → ∀ host port, parseHostPortDefault53 text = some (host, port) →
      IsIp host → ∀ tlsName rawPool,
        (UpstreamConfig.fromTlsUrl text tlsName rawPool : Option (UpstreamConfig Conn)).map
          UpstreamConfig.needsResolve = some false ∧
        (UpstreamConfig.fromQuicUrl text tlsName rawPool : Option (UpstreamConfig Conn)).map
          UpstreamConfig.needsResolve = some false) := by
  refine ⟨⟨readsPlainly_of_parseHostPort_eq, parseHostPort_eq_of_readsPlainly⟩, ?_⟩
  intro plainly host port found isIp tlsName rawPool
  have hosts := host_parseHostPortDefault 853 53 text
  rw [← parseHostPortDefault53, found, ← parseHostPort_eq_of_readsPlainly plainly,
    Option.map_some] at hosts
  obtain ⟨⟨same, value⟩, read, rfl⟩ := Option.map_eq_some_iff.mp hosts
  obtain ⟨ip, parsed⟩ := Option.isSome_iff_exists.mp isIp
  have direct : ∀ factory proto,
      (UpstreamConfig.ofHost same value factory rawPool proto :
        UpstreamConfig Conn).needsResolve = false := by
    intro factory proto
    rw [UpstreamConfig.ofHost, parsed]
    rfl
  unfold UpstreamConfig.fromTlsUrl UpstreamConfig.fromQuicUrl
  rw [read, Option.map_some, Option.map_some, Option.map_some, Option.map_some]
  exact ⟨congrArg some (direct _ _), congrArg some (direct _ _)⟩

/-- The last group of an IPv6 address is taken for a port, and brackets are left on. -/
theorem bare_ipv6_is_cut :
    ¬ (∀ text, parseHostPort text = parseHostPortDefault 853 text) ∧
    parseHostPort "2001:4860::8888".toList = some ("2001:4860:".toList, 8888) ∧
    parseHostPortDefault 853 "2001:4860::8888".toList =
      some ("2001:4860::8888".toList, 853) ∧
    parseHostPort "[::1]:853".toList = some ("[::1]".toList, 853) ∧
    parseHostPortDefault 853 "[::1]:853".toList = some ("::1".toList, 853) := by
  refine ⟨fun always => ?_, by decide, by decide, by decide, by decide⟩
  have same := always "2001:4860::8888".toList
  revert same
  decide

/-! ### Reading exactly -/

theorem parsePort_eq_some_iff {text : Text} {port : UInt16} :
    parsePort text = some port ↔ ∃ digits, (text = digits ∨ text = '+' :: digits) ∧
      digits ≠ [] ∧ (∀ char ∈ digits, char.isDigit = true) ∧
        Nat.ofDigitChars 10 digits 0 = port.toNat := by
  unfold parsePort
  simp only [Option.map_eq_some_iff, Text.parseUnsigned_eq_some_iff]
  constructor
  · rintro ⟨number, ⟨digits, written, nonempty, allDigits, value, small⟩, rfl⟩
    exact ⟨digits, written, nonempty, allDigits,
      value.trans (UInt16.toNat_ofNat_of_lt' small).symm⟩
  · rintro ⟨digits, written, nonempty, allDigits, value⟩
    exact ⟨port.toNat, ⟨digits, written, nonempty, allDigits, value, port.toNat_lt⟩,
      UInt16.ofNat_toNat⟩

theorem parsePort_ofNat (port : UInt16) : parsePort (Text.ofNat port.toNat) = some port := by
  rw [parsePort, Text.parseUnsigned_ofNat port.toNat_lt, Option.map_some, UInt16.ofNat_toNat]

theorem colon_not_mem_ofNat (number : Nat) : ':' ∉ Text.ofNat number := by
  intro member
  exact absurd (Text.isDigit_of_mem_ofNat member) (by decide)

/-- What is behind the host of a text is nothing, or a port, or the text is refused. -/
structure RefusesBadPorts (text : Text) : Prop where
  bracketed : ∀ addr after, text = '[' :: (addr ++ ']' :: after) → ']' ∉ addr → after ≠ [] →
    (∀ port, after = ':' :: port → parsePort port = none) → parseHostPortDefault53 text = none
  pair : ∀ host port, text = host ++ ':' :: port → ':' ∉ port → ¬ IsIp text →
    text.head? ≠ some '[' → port ≠ [] → parsePort port = none →
      parseHostPortDefault53 text = none

/-- What follows the brackets around an address is nothing or a port. -/
def BracketsEndWell (text : Text) : Prop :=
  ∀ addr after, text = '[' :: (addr ++ ']' :: after) → IsIp addr → after ≠ [] →
    ∃ port, after = ':' :: port ∧ (parsePort port).isSome = true

theorem refusesBadPorts_iff (text : Text) : RefusesBadPorts text ↔ BracketsEndWell text := by
  constructor
  · rintro refuses addr after rfl isIp nonempty
    by_contra bad
    have noPort : ∀ port, after = ':' :: port → parsePort port = none := by
      intro port behind
      by_contra isPort
      exact bad ⟨port, behind, Option.isSome_iff_ne_none.mpr isPort⟩
    have refused := refuses.bracketed addr after rfl isIp.not_mem_bracket nonempty noPort
    rw [parseHostPortDefault53, parseHostPortDefault_bracket 53 isIp.not_mem_bracket,
      if_pos isIp] at refused
    cases refused
  · intro well
    constructor
    · rintro addr after rfl closing nonempty noPort
      rw [parseHostPortDefault53, parseHostPortDefault_bracket 53 closing]
      by_cases isIp : IsIp addr
      · obtain ⟨port, rfl, isPort⟩ := well addr after rfl isIp nonempty
        rw [noPort port rfl] at isPort
        cases isPort
      · rw [if_neg isIp]
    · rintro host port rfl last notIp unbracketed _ noPort
      rw [parseHostPortDefault53, parseHostPortDefault_pair 53 notIp unbracketed last, noPort,
        Option.map_none, ite_self]

theorem parseHostPortDefault53_ipv4_port {addr : Text} {address : BitVec 32}
    (isIpv4 : IpAddr.parse addr = some (.v4 address)) (port : UInt16) :
    parseHostPortDefault53 (addr ++ ':' :: Text.ofNat port.toNat) = some (addr, port) := by
  have isIp : IsIp addr := Option.isSome_of_eq_some isIpv4
  have nonempty : addr ≠ [] := fun empty => not_isIp_nil (empty ▸ isIp)
  have notIp : ¬ IsIp (addr ++ ':' :: Text.ofNat port.toNat) := by
    have stops : Stops 10 (':' :: Text.ofNat port.toNat) := by
      rintro char ⟨⟩
      decide
    rw [IsIp, parse_append_eq_none isIpv4 (List.cons_ne_nil _ _) stops]
    exact Bool.false_ne_true
  have unbracketed : (addr ++ ':' :: Text.ofNat port.toNat).head? ≠ some '[' := by
    rw [List.head?_append_of_ne_nil _ nonempty]
    intro bracket
    obtain ⟨rest, rfl⟩ := List.head?_eq_some_iff.mp bracket
    exact not_isIp_bracket rest isIp
  rw [parseHostPortDefault53,
    parseHostPortDefault_pair 53 notIp unbracketed (colon_not_mem_ofNat _), if_neg nonempty,
    parsePort_ofNat, Option.map_some]

theorem parseHostPortDefault53_bracket_port {addr : Text} (isIp : IsIp addr) (port : UInt16) :
    parseHostPortDefault53 ('[' :: (addr ++ ']' :: ':' :: Text.ofNat port.toNat)) =
      some (addr, port) := by
  have written : Text.stripPrefix ":".toList (':' :: Text.ofNat port.toNat) =
      some (Text.ofNat port.toNat) := rfl
  rw [parseHostPortDefault53, parseHostPortDefault_bracket 53 isIp.not_mem_bracket,
    if_pos isIp, written, Option.bind_some, parsePort_ofNat, Option.getD_some]

theorem parseHostPortDefault53_bracket {addr : Text} (isIp : IsIp addr) :
    parseHostPortDefault53 ('[' :: (addr ++ [']'])) = some (addr, 53) := by
  rw [parseHostPortDefault53, parseHostPortDefault_bracket 53 isIp.not_mem_bracket,
    if_pos isIp]
  rfl

def ipText : IpAddr → Text
  | .v4 ip => ofIpv4Addr ip
  | .v6 ip => ofIpv6Addr ip

def socketAddrText (ip : IpAddr) (port : UInt16) : Text :=
  match ip with
  | .v4 _ => ipText ip ++ ':' :: Text.ofNat port.toNat
  | .v6 _ => '[' :: (ipText ip ++ ']' :: ':' :: Text.ofNat port.toNat)

theorem parse_ipText (ip : IpAddr) : IpAddr.parse (ipText ip) = some ip := by
  apply parse_eq_some_iff.mpr
  cases ip with
  | v4 ip =>
      have stops : Stops 10 [] := nofun
      have read := readIpv4Addr_ofIpv4Addr ip stops
      rw [List.append_nil] at read
      exact .inl ⟨ip, read, rfl⟩
  | v6 ip => exact .inr ⟨readIpv4Addr_ofIpv6Addr ip, ip, readIpv6Addr_ofIpv6Addr ip, rfl⟩

/-- The text of an address and a port is read as both, that of an address alone with the
port 53, and a bad port is refused exactly if it is not behind brackets. -/
theorem host_port_exact_iff (text : Text) (ip : IpAddr) (port : UInt16) :
    parseHostPortDefault53 (socketAddrText ip port) = some (ipText ip, port) ∧
    parseHostPortDefault53 (ipText ip) = some (ipText ip, 53) ∧
    parseHostPortDefault53 ('[' :: (ipText ip ++ [']'])) = some (ipText ip, 53) ∧
    (RefusesBadPorts text ↔ BracketsEndWell text) ∧
    (parsePort text = some port ↔
      ∃ digits, (text = digits ∨ text = '+' :: digits) ∧ digits ≠ [] ∧
        (∀ char ∈ digits, char.isDigit = true) ∧
          Nat.ofDigitChars 10 digits 0 = port.toNat) := by
  have isIp : IsIp (ipText ip) := Option.isSome_of_eq_some (parse_ipText ip)
  refine ⟨?_, parseHostPortDefault_ip 53 isIp, parseHostPortDefault53_bracket isIp,
    refusesBadPorts_iff text, parsePort_eq_some_iff⟩
  cases ip with
  | v4 ip => exact parseHostPortDefault53_ipv4_port (parse_ipText (.v4 ip)) port
  | v6 ip => exact parseHostPortDefault53_bracket_port isIp port

/-- Behind brackets anything stands for the port 53. -/
theorem junk_behind_brackets_is_dropped :
    ¬ RefusesBadPorts "[::1]:99999".toList ∧
    parseHostPortDefault53 "[::1]:99999".toList = some ("::1".toList, 53) ∧
    parseHostPortDefault53 "[::1]junk".toList = some ("::1".toList, 53) := by
  have read : parseHostPortDefault53 "[::1]:99999".toList = some ("::1".toList, 53) := by decide
  refine ⟨fun refuses => ?_, read, by decide⟩
  have refused := refuses.bracketed "::1".toList ":99999".toList rfl (by decide) (by decide) (by
    intro port behind
    cases behind
    decide)
  cases read.symm.trans refused

end Rsdns.Upstream
