import Rsdns.Library.SocketText

/-!
# Bind addresses (`main.rs`)

An address with a scheme in front of it, for each way to listen; the addresses of the HTTP
schemes may have a path.
-/

namespace Rsdns.Server

open IpText (SocketAddr parseSocketAddr ofSocketAddr)

inductive BindScheme where
  | Udp
  | Tcp
  | Tls
  | Doh
  | Doh3
  deriving DecidableEq

structure BindKind where
  scheme : BindScheme
  addr : SocketAddr
  deriving DecidableEq

def readAddr (text : Text) : Except Text SocketAddr :=
  match parseSocketAddr text with
  | some addr => .ok addr
  | none => .error "invalid socket address syntax".toList

/-- The address comes first, and the path is looked at when it could be read. -/
def parseDohAddr (rest scheme : Text) : Except Text SocketAddr :=
  match Text.splitOnce '/' rest with
  | none => readAddr rest
  | some (addr, path) =>
      (readAddr addr).bind fun addr =>
        if path = "dns-query".toList then .ok addr
        else
          .error ("unsupported DoH path \"/".toList ++ path ++ "\" in \"".toList ++ scheme ++
            rest ++ "\": only /dns-query is allowed".toList)

def parseBind (s : Text) : Except Text BindKind :=
  match Text.stripPrefix "tcp://".toList s with
  | some rest => (readAddr rest).map fun addr => ⟨.Tcp, addr⟩
  | none =>
  match Text.stripPrefix "tls://".toList s with
  | some rest => (readAddr rest).map fun addr => ⟨.Tls, addr⟩
  | none =>
  match Text.stripPrefix "https://".toList s with
  | some rest => (parseDohAddr rest "https://".toList).map fun addr => ⟨.Doh, addr⟩
  | none =>
  match Text.stripPrefix "h3://".toList s with
  | some rest => (parseDohAddr rest "h3://".toList).map fun addr => ⟨.Doh3, addr⟩
  | none =>
      if "://".toList <:+: s then
        .error ("unsupported bind scheme in \"".toList ++ s ++
          "\": only tcp://, tls://, https:// and h3:// are supported".toList)
      else (readAddr s).map fun addr => ⟨.Udp, addr⟩

/-! ### What is accepted -/

theorem readAddr_eq_ok_iff {text : Text} {addr : SocketAddr} :
    readAddr text = .ok addr ↔ parseSocketAddr text = some addr := by
  cases found : parseSocketAddr text <;> simp [readAddr, found]

theorem parseDohAddr_eq_ok_iff {rest scheme : Text} {addr : SocketAddr} :
    parseDohAddr rest scheme = .ok addr ↔
      ∃ front, '/' ∉ front ∧ parseSocketAddr front = some addr ∧
        (rest = front ∨ rest = front ++ "/dns-query".toList) := by
  constructor
  · intro parsed
    unfold parseDohAddr at parsed
    split at parsed
    next uncut =>
      exact ⟨rest, Text.splitOnce_eq_none_iff.mp uncut, readAddr_eq_ok_iff.mp parsed, .inl rfl⟩
    next front path cut =>
      obtain ⟨absent, rfl⟩ := Text.splitOnce_eq_some_iff.mp cut
      cases found : readAddr front with
      | error e => simp [found, Except.bind] at parsed
      | ok one =>
          simp only [found, Except.bind] at parsed
          split at parsed
          next same =>
            cases parsed
            exact ⟨front, absent, readAddr_eq_ok_iff.mp found, .inr (by rw [same]; rfl)⟩
          next other => cases parsed
  · rintro ⟨front, absent, found, rfl | rfl⟩
    · unfold parseDohAddr
      rw [Text.splitOnce_eq_none_iff.mpr absent]
      exact readAddr_eq_ok_iff.mpr found
    · have cut : Text.splitOnce '/' (front ++ "/dns-query".toList) =
          some (front, "dns-query".toList) := Text.splitOnce_append absent _
      unfold parseDohAddr
      rw [cut]
      simp [readAddr_eq_ok_iff.mpr found, Except.bind]

def BindScheme.text : BindScheme → Text
  | .Udp => []
  | .Tcp => "tcp://".toList
  | .Tls => "tls://".toList
  | .Doh => "https://".toList
  | .Doh3 => "h3://".toList

theorem stripPrefix_eq_none {front text : Text} (inside : '/' ∈ front) (absent : '/' ∉ text) :
    Text.stripPrefix front text = none := by
  apply Option.eq_none_iff_forall_ne_some.mpr
  intro rest found
  rw [Text.stripPrefix_eq_some_iff.mp found] at absent
  exact absent (List.mem_append_left rest inside)

/-- The address of a bind, with or without the path where one may be. -/
def BindScheme.Writes (scheme : BindScheme) (s front : Text) : Prop :=
  s = scheme.text ++ front ∨
    (scheme = .Doh ∨ scheme = .Doh3) ∧ s = scheme.text ++ (front ++ "/dns-query".toList)

theorem BindScheme.Writes.whole {scheme : BindScheme} {s front : Text}
    (writes : scheme.Writes s front) (noDoh : scheme ≠ .Doh) (noDoh3 : scheme ≠ .Doh3) :
    s = scheme.text ++ front :=
  writes.resolve_right fun ⟨pathed, _⟩ => pathed.elim noDoh noDoh3

theorem map_readAddr_eq_ok_iff {rest : Text} {scheme : BindScheme} {kind : BindKind} :
    (readAddr rest).map (fun addr => BindKind.mk scheme addr) = .ok kind ↔
      kind.scheme = scheme ∧ parseSocketAddr rest = some kind.addr := by
  obtain ⟨other, addr⟩ := kind
  rw [← readAddr_eq_ok_iff]
  cases readAddr rest with
  | error e => simp [Except.map]
  | ok one => simp [Except.map, eq_comm]

theorem map_parseDohAddr_eq_ok_iff {rest written : Text} {scheme : BindScheme} {kind : BindKind} :
    (parseDohAddr rest written).map (fun addr => BindKind.mk scheme addr) = .ok kind ↔
      kind.scheme = scheme ∧ ∃ front, parseSocketAddr front = some kind.addr ∧
        (rest = front ∨ rest = front ++ "/dns-query".toList) := by
  obtain ⟨other, addr⟩ := kind
  have exact_ : parseDohAddr rest written = .ok addr ↔
      ∃ front, parseSocketAddr front = some addr ∧
        (rest = front ∨ rest = front ++ "/dns-query".toList) := by
    rw [parseDohAddr_eq_ok_iff]
    constructor
    · rintro ⟨front, _, parsed, whole⟩
      exact ⟨front, parsed, whole⟩
    · rintro ⟨front, parsed, whole⟩
      exact ⟨front, IpText.slash_not_mem parsed, parsed, whole⟩
  rw [← exact_]
  cases parseDohAddr rest written with
  | error e => simp [Except.map]
  | ok one => simp [Except.map, eq_comm]

theorem writes_of_map_readAddr {s rest : Text} {kind : BindKind} (scheme : BindScheme)
    (cut : s = scheme.text ++ rest)
    (parsed : (readAddr rest).map (fun addr => BindKind.mk scheme addr) = .ok kind) :
    ∃ front, parseSocketAddr front = some kind.addr ∧ kind.scheme.Writes s front := by
  obtain ⟨same, address⟩ := map_readAddr_eq_ok_iff.mp parsed
  exact ⟨rest, address, .inl (same ▸ cut)⟩

theorem writes_of_map_parseDohAddr {s rest written : Text} {kind : BindKind}
    (scheme : BindScheme) (cut : s = scheme.text ++ rest) (pathed : scheme = .Doh ∨ scheme = .Doh3)
    (parsed : (parseDohAddr rest written).map (fun addr => BindKind.mk scheme addr) = .ok kind) :
    ∃ front, parseSocketAddr front = some kind.addr ∧ kind.scheme.Writes s front := by
  obtain ⟨same, front, address, rfl | rfl⟩ := map_parseDohAddr_eq_ok_iff.mp parsed
  · exact ⟨rest, address, .inl (same ▸ cut)⟩
  · exact ⟨front, address, .inr ⟨same ▸ pathed, same ▸ cut⟩⟩

/-- The schemes are tried one after the other. -/
theorem writes_of_parseBind {s : Text} {kind : BindKind} (parsed : parseBind s = .ok kind) :
    ∃ front, parseSocketAddr front = some kind.addr ∧ kind.scheme.Writes s front := by
  unfold parseBind at parsed
  split at parsed
  next rest found =>
    exact writes_of_map_readAddr .Tcp (Text.stripPrefix_eq_some_iff.mp found) parsed
  split at parsed
  next rest found =>
    exact writes_of_map_readAddr .Tls (Text.stripPrefix_eq_some_iff.mp found) parsed
  split at parsed
  next rest found =>
    exact writes_of_map_parseDohAddr .Doh (Text.stripPrefix_eq_some_iff.mp found) (.inl rfl) parsed
  split at parsed
  next rest found =>
    exact writes_of_map_parseDohAddr .Doh3 (Text.stripPrefix_eq_some_iff.mp found) (.inr rfl) parsed
  split at parsed
  next unknown => cases parsed
  next plain => exact writes_of_map_readAddr .Udp rfl parsed

theorem parseBind_of_writes {s front : Text} {kind : BindKind}
    (address : parseSocketAddr front = some kind.addr) (writes : kind.scheme.Writes s front) :
    parseBind s = .ok kind := by
  obtain ⟨scheme, addr⟩ := kind
  cases scheme with
  | Udp =>
      obtain rfl : s = front := writes.whole nofun nofun
      have absent := IpText.slash_not_mem address
      have plain : ¬ "://".toList <:+: s := fun inside => absent (inside.subset (by decide))
      unfold parseBind
      rw [stripPrefix_eq_none (by decide) absent, stripPrefix_eq_none (by decide) absent,
        stripPrefix_eq_none (by decide) absent, stripPrefix_eq_none (by decide) absent]
      dsimp only
      rw [if_neg plain]
      exact map_readAddr_eq_ok_iff.mpr ⟨rfl, address⟩
  | Tcp =>
      obtain rfl := writes.whole nofun nofun
      exact map_readAddr_eq_ok_iff.mpr ⟨rfl, address⟩
  | Tls =>
      obtain rfl := writes.whole nofun nofun
      exact map_readAddr_eq_ok_iff.mpr ⟨rfl, address⟩
  | Doh =>
      rcases writes with rfl | ⟨_, rfl⟩
      · exact map_parseDohAddr_eq_ok_iff.mpr ⟨rfl, front, address, .inl rfl⟩
      · exact map_parseDohAddr_eq_ok_iff.mpr ⟨rfl, front, address, .inr rfl⟩
  | Doh3 =>
      rcases writes with rfl | ⟨_, rfl⟩
      · exact map_parseDohAddr_eq_ok_iff.mpr ⟨rfl, front, address, .inl rfl⟩
      · exact map_parseDohAddr_eq_ok_iff.mpr ⟨rfl, front, address, .inr rfl⟩

/-- A bind is accepted exactly if it is a scheme and an address, with the path `/dns-query`
only where a path may be, and what is written out is read back. -/
theorem bind_accepted_exactly (s : Text) (kind : BindKind) :
    (parseBind s = .ok kind ↔
      ∃ front, parseSocketAddr front = some kind.addr ∧ kind.scheme.Writes s front) ∧
    parseBind (kind.scheme.text ++ ofSocketAddr kind.addr) = .ok kind :=
  ⟨⟨writes_of_parseBind, fun ⟨_, address, writes⟩ => parseBind_of_writes address writes⟩,
    parseBind_of_writes (IpText.parseSocketAddr_ofSocketAddr kind.addr) (.inl rfl)⟩

example : parseBind "h3://[::1]:8443/dns-query".toList = .ok ⟨.Doh3, .V6 1#128 8443 0⟩ := by rfl

example : ∀ s ∈ ["quic://0.0.0.0:853", "https://0.0.0.0:8443/other", "not-an-addr"],
    (parseBind s.toList).isOk = false := by decide

end Rsdns.Server
