import Rsdns.Upstream.Config

/-!
# Addresses of upstream servers (`upstream/mod.rs`)

An address is an IP address or a domain behind an optional scheme.  The pool of an IP
address is built at once, that of a domain when the domain has been resolved.  URLs are
parsed outside.
-/

namespace Rsdns.Upstream

open Dns Plugins

variable {Conn : Type}

/-- What a connection is made with; the TLS settings are the same everywhere. -/
inductive ConnFactory where
  | udp
  | tcp
  | tls (tlsName : Text)
  | doh (tlsName path : Text)
  | doh3 (tlsName path : Text)
  | doq (tlsName : Text)
  deriving DecidableEq

structure UpstreamClient (Conn : Type) where
  factory : ConnFactory
  pool : ConnectionPool Conn

/-- A server whose pool can be built, and one whose domain has to be resolved before. -/
inductive UpstreamConfig (Conn : Type) where
  | Pool (client : UpstreamClient Conn)
  | NeedResolve (serverName : Text) (port : UInt16) (factory : ConnFactory)
      (rawPool : Option RawPoolConfig) (proto : Text) (preferFamily : PreferFamily)

/-- A parsed URL; `port` is the port or the default of the scheme. -/
structure Url where
  scheme : Text
  host : Option Text
  port : Option UInt16
  path : Text
  query : Option Text

/-! ### Hosts and ports -/

def parsePort (text : Text) : Option UInt16 := (Text.parseUnsigned (2 ^ 16) text).map UInt16.ofNat

/-- `parse_host_port_default_53` with any port as the default. -/
def parseHostPortDefault (default : UInt16) (text : Text) : Option (Text × UInt16) :=
  if text = [] then none
  else if (IpAddr.parse text).isSome then some (text, default)
  else
    match Text.stripPrefix "[".toList text with
    | some rest =>
        match Text.splitOnce ']' rest with
        | none => none
        | some (addr, port) =>
            if addr = [] ∨ (IpAddr.parse addr).isNone then none
            else some (addr, ((Text.stripPrefix ":".toList port).bind parsePort).getD default)
    | none =>
        match Text.rsplitOnce ':' text with
        | some (host, port) =>
            if host = [] then none else (parsePort port).map fun port => (host, port)
        | none => some (text, default)

def parseHostPortDefault53 (text : Text) : Option (Text × UInt16) := parseHostPortDefault 53 text

/-- Without a port that can be read the whole text is the host. -/
def parseHostPort (text : Text) : Option (Text × UInt16) :=
  let split := (Text.rsplitOnce ':' text).bind fun (host, port) =>
    (parsePort port).map fun port => (host, port)
  split.orElse fun _ => some (text, 853)

/-! ### Schemes -/

def schemes : List Text :=
  ["udp://".toList, "tcp://".toList, "tls://".toList, "https://".toList, "h3://".toList,
    "quic://".toList]

def scheme (addr : Text) : Option Text × Text :=
  (schemes.findSome? fun front =>
    (Text.stripPrefix front addr).map fun rest => (some front, rest)).getD (none, addr)

/-- An IP address has a pool of that one address, a domain is resolved later. -/
def UpstreamConfig.ofHost (host : Text) (port : UInt16) (factory : ConnFactory)
    (rawPool : Option RawPoolConfig) (proto : Text) : UpstreamConfig Conn :=
  match IpAddr.parse host with
  | some ip =>
      .Pool
        { factory := factory
          pool := .withProto [{ ip := ip, port := port }] (by decide : 1 < usizeBound)
            (rawPool.getD .default).intoPoolConfig proto }
  | none =>
      .NeedResolve host port factory rawPool proto
        ((rawPool.map RawPoolConfig.family).getD .Any)

namespace UpstreamConfig

def fromTlsUrl (rest : Text) (tlsName : Option Text) (rawPool : Option RawPoolConfig) :
    Option (UpstreamConfig Conn) :=
  (parseHostPort rest).map fun (host, port) =>
    .ofHost host port (.tls (tlsName.getD host)) rawPool "tls".toList

def fromQuicUrl (rest : Text) (tlsName : Option Text) (rawPool : Option RawPoolConfig) :
    Option (UpstreamConfig Conn) :=
  (parseHostPort rest).map fun (host, port) =>
    .ofHost host port (.doq (tlsName.getD host)) rawPool "doq".toList

def fromHttpUrl (parseUrl : Text → Option Url) (addr : Text) (tlsName : Option Text)
    (rawPool : Option RawPoolConfig) : Option (UpstreamConfig Conn) :=
  match parseUrl addr with
  | none => none
  | some parsed =>
      parsed.host.map fun host =>
        let path :=
          match parsed.query with
          | some query => parsed.path ++ '?' :: query
          | none => parsed.path
        let tlsName := tlsName.getD host
        let port := parsed.port.getD 443
        if parsed.scheme ≠ "https".toList then
          .ofHost host port (.doh3 tlsName path) rawPool "doh3".toList
        else .ofHost host port (.doh tlsName path) rawPool "doh".toList

def needsResolve : UpstreamConfig Conn → Bool
  | .Pool _ => false
  | .NeedResolve .. => true

end UpstreamConfig

/-- The server names of UDP and TCP servers are not used. -/
def parseUpstream (parseUrl : Text → Option Url) (addr : Text) (serverName : Option Text)
    (rawPool : Option RawPoolConfig) : Option (UpstreamConfig Conn) :=
  let (found, rest) := scheme addr
  if found = none ∨ found = some "udp://".toList then
    (parseHostPortDefault53 rest).map fun (host, port) =>
      .ofHost host port .udp rawPool "udp".toList
  else if found = some "tcp://".toList then
    (parseHostPortDefault53 rest).map fun (host, port) =>
      .ofHost host port .tcp rawPool "tcp".toList
  else if found = some "tls://".toList then UpstreamConfig.fromTlsUrl rest serverName rawPool
  else if found = some "https://".toList ∨ found = some "h3://".toList then
    UpstreamConfig.fromHttpUrl parseUrl addr serverName rawPool
  else if found = some "quic://".toList then
    UpstreamConfig.fromQuicUrl rest serverName rawPool
  else none

end Rsdns.Upstream
