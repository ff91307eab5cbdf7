import Rsdns.Upstream.Checkout

/-!
# Ranked addresses of a domain upstream (`upstream/mod.rs`)

The addresses found for a domain are ranked by the ranges that the balance
prefers and handed to the pool, which sorts them again by the addresses.  The
ranks decide the first attempts only where both orders agree.
-/

namespace Rsdns.Upstream

open Dns Plugins

variable {Conn : Type}

theorem length_rankIps (balance : Balance) (ips : List IpAddr) :
    (balance.rankIps ips).length = ips.length := by
  unfold Balance.rankIps
  split
  · rfl
  · exact List.length_insertionSort _ ips

/-- The candidates by rank, with the port put back. -/
def rankAddrs (balance : Balance) (addrs : List SocketAddr) (port : UInt16) : List SocketAddr :=
  (balance.rankIps (addrs.map SocketAddr.ip)).map fun ip => { ip := ip, port := port }

theorem length_rankAddrs (balance : Balance) (addrs : List SocketAddr) (port : UInt16) :
    (rankAddrs balance addrs port).length = addrs.length := by
  rw [rankAddrs, List.length_map, length_rankIps, List.length_map]

/-- The pool of a domain upstream, for the addresses its domain has been resolved to. -/
def buildResolvedPool (balance : Balance) (addrs : List SocketAddr)
    (bounded : addrs.length < usizeBound) (port : UInt16) (config : PoolConfig) (proto : Text) :
    ConnectionPool Conn :=
  .withProto (rankAddrs balance addrs port)
    ((length_rankAddrs balance addrs port).trans_lt bounded) config proto

theorem sortDedup_of_nodup {addresses : List SocketAddr} (distinct : addresses.Nodup) :
    sortDedup addresses = addresses.insertionSort fun first second => first ≤ second := by
  apply List.destutter_of_isChain
  have sorted := List.perm_insertionSort (fun first second => first ≤ second) addresses
  exact (sorted.nodup_iff.mpr distinct).isChain

theorem sortDedup_eq_self_iff (addresses : List SocketAddr) :
    sortDedup addresses = addresses ↔
      addresses.Pairwise fun first second => first < second := by
  constructor
  · intro same
    have ascending := sortDedup_ascending addresses
    rwa [same] at ascending
  · intro ascending
    rw [sortDedup_of_nodup (ascending.imp ne_of_lt)]
    exact (ascending.imp le_of_lt).insertionSort_eq

/-! ### The two orders -/

/-- The place of an address in the ranking; addresses in no range come last. -/
def rankPlace (balance : Balance) (ip : IpAddr) : Nat :=
  (balance.rank ip).getD (usizeBound - 1)

theorem rankIps_eq_sortBy {balance : Balance} (enabled : balance.enabled = true)
    (ips : List IpAddr) : balance.rankIps ips = StableCut.sortBy (rankPlace balance) ips := by
  unfold Balance.rankIps
  split
  · next unranked =>
      have noRanges : balance.cidrs = [] := by simpa [enabled] using unranked
      symm
      apply StableCut.sortBy_eq_self
      apply List.pairwise_of_forall_mem_list
      intro first _ second _
      simp [rankPlace, Balance.rank, noRanges]
  · rfl

/-- Of two addresses the one that ranks first, or was found first among equals, is smaller. -/
def RanksAscend (balance : Balance) (port : UInt16) (ips : List IpAddr) : Prop :=
  ips.Pairwise fun first second =>
    (rankPlace balance first ≤ rankPlace balance second →
      SocketAddr.mk first port < SocketAddr.mk second port) ∧
    (rankPlace balance second < rankPlace balance first →
      SocketAddr.mk second port < SocketAddr.mk first port)

theorem rankAddrs_ascending_iff {balance : Balance} (enabled : balance.enabled = true)
    (addrs : List SocketAddr) (port : UInt16) :
    (rankAddrs balance addrs port).Pairwise (fun first second => first < second) ↔
      RanksAscend balance port (addrs.map SocketAddr.ip) := by
  rw [rankAddrs, List.pairwise_map, rankIps_eq_sortBy enabled, StableCut.pairwise_sortBy_iff]
  exact Iff.rfl

/-- Until each has been tried once, the attempts go through these addresses. -/
def TriesInOrder (ranked : List SocketAddr) (state : PoolState Conn) : Prop :=
  ∀ i < ranked.length, ∀ address, state.attempted[i]? = some address → ranked[i]? = some address

theorem attempted_eq_address {pool : ConnectionPool Conn} {state : PoolState Conn}
    (unmoved : pool.cursor = 0) (run : (poolMachine Conn).Run (.start pool) state) {i : Nat}
    (within : i < pool.addresses.length) (made : i < state.attempted.length) :
    state.attempted[i]? = pool.addresses[i]? := by
  have logged : PoolState.Logged pool.addresses state := by
    apply run.invariant
    · exact PoolState.logged_start unmoved
    · intro _ _ _ logged _ stepped
      exact PoolState.logged_step logged stepped
  have turn := logged.inTurn i made
  rwa [Nat.mod_eq_of_lt (within.trans pool.bounded), Nat.mod_eq_of_lt within] at turn

theorem triesInOrder_iff {pool : ConnectionPool Conn} {ranking : List SocketAddr}
    (unmoved : pool.cursor = 0) (noIdle : pool.cache = [])
    (length : pool.addresses.length = ranking.length) :
    (∀ state, (poolMachine Conn).Run (.start pool) state → TriesInOrder ranking state) ↔
      pool.addresses = ranking := by
  constructor
  · intro always
    by_cases empty : pool.addresses = []
    · rw [empty] at length
      exact empty.trans (List.length_eq_zero_iff.mp length.symm).symm
    · obtain ⟨state, run, all⟩ := PoolState.exists_attempts noIdle empty ranking.length
      apply List.ext_getElem?
      intro i
      by_cases within : i < ranking.length
      · have inside : i < pool.addresses.length := by omega
        have tried := attempted_eq_address unmoved run inside (by omega)
        rw [List.getElem?_eq_getElem inside] at tried ⊢
        exact (always state run i within _ tried).symm
      · rw [List.getElem?_eq_none (by omega), List.getElem?_eq_none (by omega)]
  · intro same state run i within address tried
    have made := (List.getElem?_eq_some_iff.mp tried).1
    rw [← same, ← attempted_eq_address unmoved run (by omega) made, tried]

theorem rankAddrs_nodup {balance : Balance} (enabled : balance.enabled = true)
    {addrs : List SocketAddr} (distinct : (addrs.map SocketAddr.ip).Nodup) (port : UInt16) :
    (rankAddrs balance addrs port).Nodup := by
  apply List.Nodup.map
  · intro first second same
    exact congrArg SocketAddr.ip same
  · rw [rankIps_eq_sortBy enabled]
    exact (StableCut.sortBy_perm _ _).nodup_iff.mpr distinct

/-- The first attempts of the pool of a domain upstream go through its ranked addresses
exactly if the ranks ascend with the addresses. -/
theorem first_attempts_ranked_iff (cfg : BalanceConfig) {addrs : List SocketAddr}
    (distinct : (addrs.map SocketAddr.ip).Nodup) (bounded : addrs.length < usizeBound)
    (port : UInt16) (config : PoolConfig) (proto : Text) :
    (∀ state, (poolMachine Conn).Run
        (.start (buildResolvedPool (Balance.init (some cfg)) addrs bounded port config proto))
        state →
      TriesInOrder (rankAddrs (Balance.init (some cfg)) addrs port) state) ↔
    RanksAscend (Balance.init (some cfg)) port (addrs.map SocketAddr.ip) := by
  have enabled : (Balance.init (some cfg)).enabled = true := rfl
  have length : (sortDedup (rankAddrs (Balance.init (some cfg)) addrs port)).length =
      (rankAddrs (Balance.init (some cfg)) addrs port).length := by
    rw [sortDedup_of_nodup (rankAddrs_nodup enabled distinct port), List.length_insertionSort]
  rw [← rankAddrs_ascending_iff enabled, ← sortDedup_eq_self_iff]
  exact triesInOrder_iff rfl rfl length

def prefersTen : BalanceConfig where
  mode := []
  prefers := ["10.0.0.0/8".toList]
  maxAnswers := none

/-- The preferred address is the smaller one. -/
theorem smaller_preferred_is_first :
    ∃ (addrs : List SocketAddr) (bounded : addrs.length < usizeBound),
      addrs = [⟨.v4 0xC0000201#32, 53⟩, ⟨.v4 0x0A000001#32, 53⟩] ∧
      ∀ state, (poolMachine Unit).Run (.start
          (buildResolvedPool (Balance.init (some prefersTen)) addrs bounded 53 .default [])) state →
        TriesInOrder (rankAddrs (Balance.init (some prefersTen)) addrs 53) state := by
  refine ⟨_, by decide, rfl, (first_attempts_ranked_iff prefersTen (by decide) (by decide) 53
    .default []).mpr ?_⟩
  unfold RanksAscend
  decide +kernel

/-- The preferred address is the larger one, and the pool tries the other one first. -/
theorem larger_preferred_is_not_first :
    ∃ (addrs : List SocketAddr) (bounded : addrs.length < usizeBound) (state : PoolState Unit),
      addrs = [⟨.v4 0x09000001#32, 53⟩, ⟨.v4 0x0A000001#32, 53⟩] ∧
      (poolMachine Unit).Run (.start
          (buildResolvedPool (Balance.init (some prefersTen)) addrs bounded 53 .default [])) state ∧
        ¬ TriesInOrder (rankAddrs (Balance.init (some prefersTen)) addrs 53) state := by
  let addrs : List SocketAddr := [⟨.v4 0x09000001#32, 53⟩, ⟨.v4 0x0A000001#32, 53⟩]
  have checked : ((poolMachine Unit).execWhile (fun _ _ => True) (.start
      (buildResolvedPool (Balance.init (some prefersTen)) addrs (by decide) 53 .default []))
      [.checkout, .take 0]).any (fun state =>
        state.attempted.head? = some ⟨.v4 0x09000001#32, 53⟩) = true := by decide +kernel
  obtain ⟨state, executed, first⟩ := (Option.any_eq_true _ _).mp checked
  have tried := of_decide_eq_true first
  refine ⟨addrs, by decide, state, rfl, Machine.GuardedRun.of_execWhile .refl executed, ?_⟩
  intro inOrder
  rw [List.head?_eq_getElem?] at tried
  have ranked := inOrder 0 (by decide +kernel) _ tried
  have preferred : (rankAddrs (Balance.init (some prefersTen)) addrs 53)[0]? =
      some ⟨.v4 0x0A000001#32, 53⟩ := by decide +kernel
  cases preferred.symm.trans ranked

end Rsdns.Upstream
