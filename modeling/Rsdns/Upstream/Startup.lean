import Rsdns.Hosts.Resolution
import Rsdns.Upstream.Address
import Rsdns.Upstream.Ranked

/-!
# Upstreams at startup (`upstream/mod.rs`)

The servers of all groups are parsed, those with a domain are resolved by the hosts table
or by the servers with an IP address, and the groups are put together.  What the bootstrap
queries get and the order in which the answers arrive come from outside.
-/

namespace Rsdns.Upstream

open Dns Plugins

variable {Conn Name Error : Type} [NameApi Name]

/-- The hosts stage, as the startup reads it.  A vector is never as long as a machine
word counts. -/
structure HostsTable where
  trie : HostsTrie
  bounded : ∀ ips ∈ trie.ips, ips.length < usizeBound

namespace PreferFamily

def allows (self : PreferFamily) (ip : IpAddr) : Bool :=
  match self, ip with
  | .Any, _ => true
  | .Ipv4, .v4 _ => true
  | .Ipv6, .v6 _ => true
  | .Ipv4, .v6 _ => false
  | .Ipv6, .v4 _ => false

/-- The types of the bootstrap queries. -/
def asks (self : PreferFamily) (qtype : RecordType) : Bool :=
  match self with
  | .Any => true
  | .Ipv4 => qtype == .A
  | .Ipv6 => qtype == .AAAA

end PreferFamily

def ipsToAddrs (ips : List IpAddr) (port : UInt16) (fam : PreferFamily) : List SocketAddr :=
  (ips.filter fam.allows).map fun ip => { ip := ip, port := port }

/-! ### Bootstrap queries -/

structure BootstrapQuery (Name : Type) where
  client : Nat
  qtype : RecordType
  msg : Message Name

def bootstrapQueries (clients : Nat) (host : Text) (fam : PreferFamily) :
    List (BootstrapQuery Name) :=
  (List.range clients).flatMap fun client =>
    [RecordType.A, .AAAA].filterMap fun qtype =>
      if fam.asks qtype then
        (makeQueryMsg host qtype).toOption.map fun msg =>
          { client := client, qtype := qtype, msg := msg }
      else none

def addressesIn (qtype : RecordType) (resp : Message Name) : List IpAddr :=
  resp.answers.filterMap fun answer =>
    match qtype, answer.data with
    | .A, .A ip => some (.v4 ip)
    | .AAAA, .AAAA ip => some (.v6 ip)
    | _, _ => none

def broughtBy (reply : Nat → Message Name → Except Error (Message Name))
    (query : BootstrapQuery Name) : List IpAddr :=
  match reply query.client query.msg with
  | .ok resp => addressesIn query.qtype resp
  | .error _ => []

/-- What the bootstrap clients answer while a domain is resolved, and the order in which
the answers arrive.  All the addresses they bring fit a vector. -/
structure Bootstrap (Name Error : Type) [NameApi Name] where
  reply : Nat → Message Name → Except Error (Message Name)
  arrival : List (BootstrapQuery Name) → List (BootstrapQuery Name)
  arrives : ∀ sent, (arrival sent).Perm sent
  fits : ∀ clients host fam,
    ((arrival (bootstrapQueries clients host fam)).flatMap (broughtBy reply)).length < usizeBound

def resolveHostAll (bootstrap : Bootstrap Name Error) (clients : Nat) (host : Text)
    (port : UInt16) (fam : PreferFamily) : List SocketAddr :=
  sortDedup (((bootstrap.arrival (bootstrapQueries clients host fam)).flatMap
    (broughtBy bootstrap.reply)).map fun ip => { ip := ip, port := port })

/-- The addresses that the hosts table has for a domain, or that the network has for the
name it leads to. -/
def firstAddrs (table : HostsTable) (bootstrap : Bootstrap Name Error) (clients : Nat)
    (serverName : Text) (port : UInt16) (fam : PreferFamily) : List SocketAddr :=
  match Hosts.resolveHostName table.trie serverName with
  | .Static ips => ipsToAddrs ips port fam
  | .Network name => resolveHostAll bootstrap clients name port fam

/-- Where the table has addresses of the other family only, the network is asked for the
domain itself. -/
def resolveServer (table : HostsTable) (bootstrap : Bootstrap Name Error) (clients : Nat)
    (serverName : Text) (port : UInt16) (fam : PreferFamily) : List SocketAddr :=
  let addrs := firstAddrs table bootstrap clients serverName port fam
  if addrs.isEmpty && (Hosts.resolveHostName table.trie serverName).isStatic then
    resolveHostAll bootstrap clients serverName port fam
  else addrs

theorem length_resolveHostAll_lt (bootstrap : Bootstrap Name Error) (clients : Nat) (host : Text)
    (port : UInt16) (fam : PreferFamily) :
    (resolveHostAll bootstrap clients host port fam).length < usizeBound := by
  apply (length_sortDedup_le _).trans_lt
  rw [List.length_map]
  exact bootstrap.fits clients host fam

theorem length_ipsToAddrs_le (ips : List IpAddr) (port : UInt16) (fam : PreferFamily) :
    (ipsToAddrs ips port fam).length ≤ ips.length := by
  rw [ipsToAddrs, List.length_map]
  exact List.length_filter_le _ _

theorem mem_ips_of_static {trie : HostsTrie} {name : Text} {ips : List IpAddr}
    (static : Hosts.resolveHostName trie name = .Static ips) : ips ∈ trie.ips := by
  obtain ⟨place, _, found⟩ := (Hosts.resolveHostName_eq_static_iff trie name ips).mp static
  unfold HostsTrie.lookup at found
  split at found
  · split at found
    · split at found
      · next listed =>
          cases found
          exact List.mem_of_getElem? listed
      · cases found
    · cases found
  · cases found

theorem length_firstAddrs_lt (table : HostsTable) (bootstrap : Bootstrap Name Error)
    (clients : Nat) (serverName : Text) (port : UInt16) (fam : PreferFamily) :
    (firstAddrs table bootstrap clients serverName port fam).length < usizeBound := by
  unfold firstAddrs
  cases resolution : Hosts.resolveHostName table.trie serverName with
  | Network name => exact length_resolveHostAll_lt bootstrap clients name port fam
  | Static ips =>
      exact (length_ipsToAddrs_le ips port fam).trans_lt
        (table.bounded ips (mem_ips_of_static resolution))

theorem length_resolveServer_lt (table : HostsTable) (bootstrap : Bootstrap Name Error)
    (clients : Nat) (serverName : Text) (port : UInt16) (fam : PreferFamily) :
    (resolveServer table bootstrap clients serverName port fam).length < usizeBound := by
  unfold resolveServer
  dsimp only
  split
  · exact length_resolveHostAll_lt bootstrap clients serverName port fam
  · exact length_firstAddrs_lt table bootstrap clients serverName port fam

/-! ### The groups of the configuration -/

/-- A group whose servers are places in the list of all servers. -/
structure GroupPlan where
  name : Text
  indices : List Nat
  bounded : indices.length < usizeBound
  mode : QueryModeConfig
  cooldown : Option CooldownConfig

/-- A server that cannot be parsed is left out. -/
def addServer (parseUrl : Text → Option Url) (read : List (UpstreamConfig Conn) × List Nat)
    (server : ServerConfig) : List (UpstreamConfig Conn) × List Nat :=
  match parseUpstream parseUrl server.address server.serverName server.pool with
  | some cfg => (read.1 ++ [cfg], read.2 ++ [read.1.length])
  | none => read

theorem length_foldl_addServer_le (parseUrl : Text → Option Url)
    (read : List (UpstreamConfig Conn) × List Nat) (servers : List ServerConfig) :
    (servers.foldl (addServer parseUrl) read).2.length ≤ read.2.length + servers.length := by
  induction servers generalizing read with
  | nil => exact Nat.le_refl _
  | cons server servers inductionHypothesis =>
      have step : (addServer parseUrl read server).2.length ≤ read.2.length + 1 := by
        unfold addServer
        split
        · rw [List.length_append, List.length_singleton]
        · exact Nat.le_succ _
      have rest := inductionHypothesis (addServer parseUrl read server)
      rw [List.foldl_cons, List.length_cons]
      omega

def addGroup (parseUrl : Text → Option Url) (read : List (UpstreamConfig Conn) × List GroupPlan)
    (group : UpstreamGroupConfig) : List (UpstreamConfig Conn) × List GroupPlan :=
  let parsed := group.servers.foldl (addServer parseUrl) (read.1, [])
  (parsed.1, read.2 ++
    [{ name := group.name
       indices := parsed.2
       bounded := (length_foldl_addServer_le parseUrl (read.1, []) group.servers).trans_lt
        (by rw [List.length_nil, Nat.zero_add]; exact group.bounded)
       mode := group.mode
       cooldown := group.cooldownConfig }])

def readGroups (parseUrl : Text → Option Url) (groups : List UpstreamGroupConfig) :
    List (UpstreamConfig Conn) × List GroupPlan :=
  groups.foldl (addGroup parseUrl) ([], [])

/-! ### Startup -/

def UpstreamConfig.client? : UpstreamConfig Conn → Option (UpstreamClient Conn)
  | .Pool client => some client
  | .NeedResolve .. => none

def bootstrapClients (configs : List (UpstreamConfig Conn)) : List (UpstreamClient Conn) :=
  configs.filterMap UpstreamConfig.client?

/-- Some domain has no addresses in the hosts table. -/
def needsNetwork (table : HostsTable) (configs : List (UpstreamConfig Conn)) : Bool :=
  configs.any fun config =>
    match config with
    | .Pool _ => false
    | .NeedResolve serverName .. => !(Hosts.resolveHostName table.trie serverName).isStatic

/-- The places of the servers with a domain. -/
def dynamicIndices (configs : List (UpstreamConfig Conn)) : List Nat :=
  (List.range configs.length).filter fun idx =>
    (configs[idx]?.map UpstreamConfig.needsResolve).getD false

def resolvedClient (table : HostsTable) (balance : Balance) (bootstrap : Bootstrap Name Error)
    (clients : Nat) (serverName : Text) (port : UInt16) (factory : ConnFactory)
    (rawPool : Option RawPoolConfig) (proto : Text) (fam : PreferFamily) :
    UpstreamClient Conn where
  factory := factory
  pool := buildResolvedPool balance (resolveServer table bootstrap clients serverName port fam)
    (length_resolveServer_lt table bootstrap clients serverName port fam) port
    (rawPool.getD .default).intoPoolConfig proto

/-- The server at a place is resolved and gets its pool. -/
def resolveAt (table : HostsTable) (balance : Balance) (world : Nat → Bootstrap Name Error)
    (clients : Nat) (configs : List (UpstreamConfig Conn)) (idx : Nat) :
    Except Text (List (UpstreamConfig Conn)) :=
  match configs[idx]? with
  | some (.NeedResolve serverName port factory rawPool proto fam) =>
      let addrs := resolveServer table (world idx) clients serverName port fam
      if addrs.isEmpty then
        .error ("failed to resolve dynamic upstream '".toList ++ serverName ++ "'".toList)
      else
        .ok (configs.set idx (.Pool
          (resolvedClient table balance (world idx) clients serverName port factory rawPool proto
            fam)))
  | _ => .ok configs

structure Upstreams (Conn : Type) where
  groups : Text → Option (UpstreamGroup (UpstreamClient Conn))

def GroupPlan.clients (self : GroupPlan) (configs : List (UpstreamConfig Conn)) :
    List (UpstreamClient Conn) :=
  self.indices.filterMap fun idx => configs[idx]?.bind UpstreamConfig.client?

def GroupPlan.build (self : GroupPlan) (configs : List (UpstreamConfig Conn)) :
    UpstreamGroup (UpstreamClient Conn) :=
  .withCooldown (self.clients configs) ((List.length_filterMap_le _ _).trans_lt self.bounded)
    self.mode self.cooldown

/-- Of groups with one name the last stays. -/
def assemble (configs : List (UpstreamConfig Conn)) (plans : List GroupPlan) : Upstreams Conn where
  groups := plans.foldl
    (fun groups plan => Function.update groups plan.name (some (plan.build configs)))
    (fun _ => none)

def init (parseUrl : Text → Option Url) (table : HostsTable) (balance : Balance)
    (world : Nat → Bootstrap Name Error) (groups : List UpstreamGroupConfig) :
    Except Text (Upstreams Conn) :=
  let (configs, plans) := readGroups parseUrl groups
  let clients := bootstrapClients configs
  if clients.isEmpty && needsNetwork table configs then
    .error "no IP-address upstream server configured to resolve domain upstreams".toList
  else do
    let configs ← (dynamicIndices configs).foldlM
      (resolveAt table balance world clients.length) configs
    return assemble configs plans

end Rsdns.Upstream
