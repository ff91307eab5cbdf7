import Mathlib.Data.List.Destutter
import Mathlib.Data.Prod.Lex
import Rsdns.Library.StableCut
import Rsdns.Plugins.Balance

/-!
# The connection pool (`upstream/pool.rs`)

A pool keeps idle connections and the addresses to connect to, which it goes
through by a cursor.  The connections themselves are outside: the model only
passes them on.  What the pools say in the metrics is put beside their states.
-/

namespace Rsdns.Upstream

open Dns Plugins

structure SocketAddr where
  ip : IpAddr
  port : UInt16

namespace SocketAddr

/-- IPv4 before IPv6, then the number of the address, then the port. -/
def place (self : SocketAddr) : Bool ×ₗ Nat ×ₗ Nat :=
  match self.ip with
  | .v4 ip => toLex (false, toLex (ip.toNat, self.port.toNat))
  | .v6 ip => toLex (true, toLex (ip.toNat, self.port.toNat))

theorem place_injective : Function.Injective place := by
  rintro ⟨first, firstPort⟩ ⟨second, secondPort⟩ same
  have ports : ∀ {left right : UInt16}, left.toNat = right.toNat → left = right :=
    fun equal => UInt16.toNat_inj.mp equal
  cases first with
  | v4 first =>
      cases second with
      | v4 second =>
          simp only [place, EmbeddingLike.apply_eq_iff_eq, Prod.mk.injEq, true_and] at same
          rw [BitVec.eq_of_toNat_eq same.1, ports same.2]
      | v6 second => simp [place] at same
  | v6 first =>
      cases second with
      | v4 second => simp [place] at same
      | v6 second =>
          simp only [place, EmbeddingLike.apply_eq_iff_eq, Prod.mk.injEq, true_and] at same
          rw [BitVec.eq_of_toNat_eq same.1, ports same.2]

instance : LinearOrder SocketAddr := LinearOrder.lift' place place_injective

end SocketAddr

/-- Durations in nanoseconds. -/
structure PoolConfig where
  idleTimeout : Nat
  connectTimeout : Nat
  dnsTimeout : Nat
  deriving DecidableEq

def PoolConfig.default : PoolConfig where
  idleTimeout := Duration.fromSecs 30
  connectTimeout := Duration.fromSecs 5
  dnsTimeout := Duration.fromSecs 5

variable {Conn : Type}

/-- A single idle connection held by the pool. -/
structure CachedConn (Conn : Type) where
  sender : Conn
  lastUsed : Nat
  deriving DecidableEq

def CachedConn.isExpired (self : CachedConn Conn) (now idleTimeout : Nat) : Bool :=
  now - self.lastUsed > idleTimeout

/-- No address stands in the pool twice. -/
structure ConnectionPool (Conn : Type) where
  cache : List (CachedConn Conn)
  addresses : List SocketAddr
  distinct : addresses.Nodup
  bounded : addresses.length < usizeBound
  proto : Text
  config : PoolConfig
  cursor : Nat

/-- `sort_unstable` and `dedup`. -/
def sortDedup (addresses : List SocketAddr) : List SocketAddr :=
  (addresses.insertionSort fun first second => first ≤ second).destutter
    fun first second => first ≠ second

theorem sortDedup_ascending (addresses : List SocketAddr) :
    (sortDedup addresses).Pairwise fun first second => first < second := by
  have sorted : (sortDedup addresses).Pairwise fun first second => first ≤ second :=
    (List.pairwise_insertionSort _ addresses).sublist (List.destutter_sublist _ _)
  have changing : (sortDedup addresses).IsChain fun first second => first ≠ second :=
    List.isChain_destutter _ _
  rw [← List.isChain_iff_pairwise] at sorted ⊢
  generalize sortDedup addresses = ordered at sorted changing
  induction sorted with
  | nil => exact .nil
  | singleton first => exact .singleton first
  | cons_cons least _ inductionHypothesis =>
      cases changing with
      | cons_cons different changing =>
          exact .cons_cons (lt_of_le_of_ne least different) (inductionHypothesis changing)

theorem length_sortDedup_le (addresses : List SocketAddr) :
    (sortDedup addresses).length ≤ addresses.length :=
  (List.destutter_sublist _ _).length_le.trans_eq (List.length_insertionSort _ addresses)

theorem mem_sortDedup {address : SocketAddr} {addresses : List SocketAddr} :
    address ∈ sortDedup addresses ↔ address ∈ addresses := by
  have once : sortDedup addresses =
      (addresses.insertionSort fun first second => first ≤ second).dedup :=
    (List.pairwise_insertionSort _ addresses).destutter_eq_dedup
  rw [once, List.mem_dedup, List.mem_insertionSort]

theorem sortDedup_eq_of_perm {addresses others : List SocketAddr}
    (permuted : addresses.Perm others) : sortDedup addresses = sortDedup others := by
  have ordered : (addresses.insertionSort fun first second => first ≤ second) =
      others.insertionSort fun first second => first ≤ second := by
    apply List.Perm.eq_of_pairwise' (r := fun first second => first ≤ second)
    · exact List.pairwise_insertionSort _ addresses
    · exact List.pairwise_insertionSort _ others
    · exact (List.perm_insertionSort _ addresses).trans
        (permuted.trans (List.perm_insertionSort _ others).symm)
  rw [sortDedup, ordered, sortDedup]

namespace ConnectionPool

/-- A pool of the addresses, in their own order. -/
def withProto (addresses : List SocketAddr) (bounded : addresses.length < usizeBound)
    (config : PoolConfig) (proto : Text) : ConnectionPool Conn where
  cache := []
  addresses := sortDedup addresses
  distinct := (sortDedup_ascending addresses).imp ne_of_lt
  bounded := (length_sortDedup_le addresses).trans_lt bounded
  proto := proto
  config := config
  cursor := 0

/-- The address under the cursor, which moves on and wraps around. -/
def nextAddr (self : ConnectionPool Conn) : Option (SocketAddr × ConnectionPool Conn) :=
  self.addresses[self.cursor % self.addresses.length]?.map fun address =>
    (address, { self with cursor := (self.cursor + 1) % usizeBound })

/-- The first idle connection that has not expired; those in front of it are dropped. -/
def popIdle (now idleTimeout : Nat) :
    List (CachedConn Conn) → Option Conn × List (CachedConn Conn)
  | [] => (none, [])
  | conn :: rest =>
      if conn.isExpired now idleTimeout then popIdle now idleTimeout rest
      else (some conn.sender, rest)

/-- A connection is kept after a success and dropped after a failure. -/
def release (self : ConnectionPool Conn) (now : Nat) (sender : Conn) (success : Bool) :
    ConnectionPool Conn :=
  if success then { self with cache := { sender := sender, lastUsed := now } :: self.cache }
  else self

end ConnectionPool

end Rsdns.Upstream
