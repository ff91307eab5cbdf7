import Rsdns.Upstream.Startup

/-!
# Addresses of a domain upstream

Which addresses the startup finds for a domain, as a condition on each of them: the
hosts table and the answers of the bootstrap clients decide, and neither the order in
which the answers arrive nor the ranking has a part in it.
-/

namespace Rsdns.Upstream

open Dns Plugins

variable {Conn Name Error : Type}

/-- The record data holds the address and is of the type asked for. -/
inductive Carries : RecordType → RData Name → IpAddr → Prop where
  | A (ip : BitVec 32) : Carries .A (.A ip) (.v4 ip)
  | AAAA (ip : BitVec 128) : Carries .AAAA (.AAAA ip) (.v6 ip)

theorem Carries.asks_iff {qtype : RecordType} {data : RData Name} {ip : IpAddr}
    (carried : Carries qtype data ip) (fam : PreferFamily) :
    fam.asks qtype = true ↔ fam.allows ip = true := by
  cases carried with
  | A ip => cases fam <;> simp [PreferFamily.asks, PreferFamily.allows]
  | AAAA ip => cases fam <;> simp [PreferFamily.asks, PreferFamily.allows]

theorem Carries.address_type {qtype : RecordType} {data : RData Name} {ip : IpAddr}
    (carried : Carries qtype data ip) : qtype ∈ [RecordType.A, .AAAA] := by
  cases carried with
  | A ip => exact List.mem_cons_self
  | AAAA ip => exact List.mem_cons_of_mem _ List.mem_cons_self

theorem mem_addressesIn {qtype : RecordType} {resp : Message Name} {ip : IpAddr} :
    ip ∈ addressesIn qtype resp ↔ ∃ answer ∈ resp.answers, Carries qtype answer.data ip := by
  rw [addressesIn, List.mem_filterMap]
  apply exists_congr
  intro answer
  apply and_congr_right
  intro _
  constructor
  · intro found
    split at found
    · next data => cases found; rw [data]; exact .A _
    · next data => cases found; rw [data]; exact .AAAA _
    · cases found
  · intro carried
    generalize answer.data = data at carried
    cases carried with
    | A ip => rfl
    | AAAA ip => rfl

theorem mem_broughtBy {reply : Nat → Message Name → Except Error (Message Name)}
    {query : BootstrapQuery Name} {ip : IpAddr} :
    ip ∈ broughtBy reply query ↔ ∃ resp, reply query.client query.msg = .ok resp ∧
      ∃ answer ∈ resp.answers, Carries query.qtype answer.data ip := by
  unfold broughtBy
  cases replied : reply query.client query.msg with
  | error error => simp
  | ok resp => simp [mem_addressesIn]

variable [NameApi Name]

/-- One of the clients has an address for the host. -/
def Brought (reply : Nat → Message Name → Except Error (Message Name)) (clients : Nat)
    (host : Text) (ip : IpAddr) : Prop :=
  ∃ client < clients, ∃ qtype msg resp, makeQueryMsg host qtype = .ok msg ∧
    reply client msg = .ok resp ∧ ∃ answer ∈ resp.answers, Carries qtype answer.data ip

/-- An address of the right family that the hosts table has for a domain, or that the
clients have for the name it leads to.  Where the table has addresses of the other family
only, the clients are asked for the domain itself. -/
def Candidate (table : HostsTable) (reply : Nat → Message Name → Except Error (Message Name))
    (clients : Nat) (serverName : Text) (fam : PreferFamily) (ip : IpAddr) : Prop :=
  fam.allows ip = true ∧
    match Hosts.resolveHostName table.trie serverName with
    | .Static ips =>
        ip ∈ ips ∨ (∀ other ∈ ips, fam.allows other = false) ∧ Brought reply clients serverName ip
    | .Network name => Brought reply clients name ip

/-! ### What the queries bring -/

theorem mem_bootstrapQueries {clients : Nat} {host : Text} {fam : PreferFamily}
    {query : BootstrapQuery Name} :
    query ∈ bootstrapQueries clients host fam ↔ query.client < clients ∧
      query.qtype ∈ [RecordType.A, .AAAA] ∧ fam.asks query.qtype = true ∧
      makeQueryMsg host query.qtype = .ok query.msg := by
  simp only [bootstrapQueries, List.mem_flatMap, List.mem_range, List.mem_filterMap]
  constructor
  · rintro ⟨client, within, qtype, addressType, sent⟩
    split at sent
    · next asked =>
        cases made : (makeQueryMsg host qtype : Except _ (Message Name)) with
        | error error => simp [made, Except.toOption] at sent
        | ok msg =>
            simp only [made, Except.toOption, Option.map_some, Option.some.injEq] at sent
            cases sent
            exact ⟨within, addressType, asked, made⟩
    · cases sent
  · rintro ⟨within, addressType, asked, made⟩
    refine ⟨query.client, within, query.qtype, addressType, ?_⟩
    rw [if_pos asked, made]
    rfl

theorem mem_resolveHostAll {bootstrap : Bootstrap Name Error} {clients : Nat} {host : Text}
    {port : UInt16} {fam : PreferFamily} {address : SocketAddr} :
    address ∈ resolveHostAll bootstrap clients host port fam ↔ address.port = port ∧
      fam.allows address.ip = true ∧ Brought bootstrap.reply clients host address.ip := by
  simp only [resolveHostAll, mem_sortDedup, List.mem_map, List.mem_flatMap,
    (bootstrap.arrives _).mem_iff, mem_bootstrapQueries, mem_broughtBy]
  constructor
  · rintro ⟨ip, ⟨query, ⟨within, _, asked, made⟩, resp, replied, answer, member, carried⟩, rfl⟩
    exact ⟨rfl, (carried.asks_iff fam).mp asked, query.client, within, query.qtype, query.msg,
      resp, made, replied, answer, member, carried⟩
  · rintro ⟨rfl, allowed, client, within, qtype, msg, resp, made, replied, answer, member, carried⟩
    exact ⟨address.ip, ⟨⟨client, qtype, msg⟩,
      ⟨within, carried.address_type, (carried.asks_iff fam).mpr allowed, made⟩,
      resp, replied, answer, member, carried⟩, rfl⟩

theorem mem_ipsToAddrs {ips : List IpAddr} {port : UInt16} {fam : PreferFamily}
    {address : SocketAddr} :
    address ∈ ipsToAddrs ips port fam ↔ address.port = port ∧
      fam.allows address.ip = true ∧ address.ip ∈ ips := by
  simp only [ipsToAddrs, List.mem_map, List.mem_filter]
  constructor
  · rintro ⟨ip, ⟨member, allowed⟩, rfl⟩
    exact ⟨rfl, allowed, member⟩
  · rintro ⟨rfl, allowed, member⟩
    exact ⟨address.ip, ⟨member, allowed⟩, rfl⟩

theorem ipsToAddrs_eq_nil_iff {ips : List IpAddr} {port : UInt16} {fam : PreferFamily} :
    ipsToAddrs ips port fam = [] ↔ ∀ ip ∈ ips, fam.allows ip = false := by
  rw [ipsToAddrs, List.map_eq_nil_iff, List.filter_eq_nil_iff]
  simp only [Bool.not_eq_true]

theorem mem_resolveServer {table : HostsTable} {bootstrap : Bootstrap Name Error} {clients : Nat}
    {serverName : Text} {port : UInt16} {fam : PreferFamily} {address : SocketAddr} :
    address ∈ resolveServer table bootstrap clients serverName port fam ↔ address.port = port ∧
      Candidate table bootstrap.reply clients serverName fam address.ip := by
  unfold resolveServer firstAddrs Candidate
  cases resolution : Hosts.resolveHostName table.trie serverName with
  | Network name =>
      simp only [HostResolution.isStatic, Bool.and_false, Bool.false_eq_true, if_false]
      exact mem_resolveHostAll
  | Static ips =>
      simp only [HostResolution.isStatic, Bool.and_true, List.isEmpty_iff]
      by_cases none : ipsToAddrs ips port fam = []
      · rw [if_pos none, mem_resolveHostAll]
        have others := ipsToAddrs_eq_nil_iff.mp none
        apply and_congr_right
        intro _
        apply and_congr_right
        intro allowed
        have unlisted : address.ip ∉ ips := fun member => by
          rw [others _ member] at allowed
          cases allowed
        exact ⟨fun brought => .inr ⟨others, brought⟩, fun found =>
          (found.resolve_left unlisted).2⟩
      · rw [if_neg none, mem_ipsToAddrs]
        have others : ¬ ∀ ip ∈ ips, fam.allows ip = false := fun others =>
          none (ipsToAddrs_eq_nil_iff.mpr others)
        apply and_congr_right
        intro _
        apply and_congr_right
        intro _
        exact ⟨.inl, fun found => found.resolve_right fun fallback => others fallback.1⟩

theorem resolveHostAll_congr {bootstrap other : Bootstrap Name Error}
    (sameReplies : bootstrap.reply = other.reply) (clients : Nat) (host : Text) (port : UInt16)
    (fam : PreferFamily) :
    resolveHostAll bootstrap clients host port fam =
      resolveHostAll other clients host port fam := by
  unfold resolveHostAll
  apply sortDedup_eq_of_perm
  rw [sameReplies]
  apply List.Perm.map
  apply List.Perm.flatMap_right
  exact (bootstrap.arrives _).trans (other.arrives _).symm

theorem resolveServer_congr {table : HostsTable} {bootstrap other : Bootstrap Name Error}
    (sameReplies : bootstrap.reply = other.reply) (clients : Nat) (serverName : Text)
    (port : UInt16) (fam : PreferFamily) :
    resolveServer table bootstrap clients serverName port fam =
      resolveServer table other clients serverName port fam := by
  have first : firstAddrs table bootstrap clients serverName port fam =
      firstAddrs table other clients serverName port fam := by
    unfold firstAddrs
    cases Hosts.resolveHostName table.trie serverName with
    | Static ips => rfl
    | Network name => exact resolveHostAll_congr sameReplies clients name port fam
  rw [resolveServer, first, resolveHostAll_congr sameReplies, resolveServer]

/-! ### The pool of a domain upstream -/

theorem rankIps_perm (balance : Balance) (ips : List IpAddr) :
    (balance.rankIps ips).Perm ips := by
  unfold Balance.rankIps
  split
  · exact .refl ips
  · exact List.perm_insertionSort _ ips

theorem mem_buildResolvedPool {balance : Balance} {addrs : List SocketAddr}
    (bounded : addrs.length < usizeBound) {port : UInt16} {config : PoolConfig} {proto : Text}
    (ports : ∀ address ∈ addrs, address.port = port) {address : SocketAddr} :
    address ∈ (buildResolvedPool balance addrs bounded port config proto :
        ConnectionPool Conn).addresses ↔ address ∈ addrs := by
  simp only [buildResolvedPool, ConnectionPool.withProto, mem_sortDedup, rankAddrs, List.mem_map,
    (rankIps_perm balance _).mem_iff]
  constructor
  · rintro ⟨_, ⟨found, member, rfl⟩, rfl⟩
    rw [← ports found member]
    exact member
  · intro member
    exact ⟨address.ip, ⟨address, member, rfl⟩, by rw [← ports address member]⟩

end Rsdns.Upstream
