import Rsdns.Dns.Message
import Rsdns.Library.ExpiringStore

/-!
# The cache core (`plugins/cache.rs`)

Instants and durations are counted in nanoseconds.  The store keeps what moka
promises: an entry is returned exactly until the instant of its last insert
plus the duration the expiry policy gives it.  A `none` is an abort: the
release profile aborts on a panic.
-/

namespace Rsdns.Plugins

open Dns

namespace Duration

def second : Nat := 1000000000

def fromSecs (seconds : Nat) : Nat := seconds * second

def asSecs (duration : Nat) : Nat := duration / second

/-- `Ord::clamp` panics on an empty range. -/
def clamp (duration low high : Nat) : Option Nat :=
  if low ≤ high then some (max low (min duration high)) else none

end Duration

structure CacheKey where
  name : Text
  qtype : RecordType
  deriving DecidableEq

inductive CacheRecord (Name : Type) where
  | A (ip : Ipv4Addr)
  | Aaaa (ip : Ipv6Addr)
  | Cname (target : Text)
  | Mx (preference : UInt16) (exchange : Text)
  | Txt (strings : List Text)
  | Https (svcb : Svcb Name)
  | NxDomain
  /-- Empty NOERROR answer for a query type that has no records. -/
  | NoData
  deriving DecidableEq

structure CacheEntry (Name : Type) where
  records : List (CacheRecord Name)
  createdAt : Nat
  ttl : UInt32
  deriving DecidableEq

variable {Name : Type}

namespace CacheEntry

def actionName (self : CacheEntry Name) : Text :=
  match self.records with
  | [] => "forward-cache-fail".toList
  | .NxDomain :: _ => "forward-cache-nxdomain".toList
  | .NoData :: _ => "forward-cache-nodata".toList
  | _ :: _ => "forward-cache".toList

def remainingTtl (self : CacheEntry Name) (keepTtl : Bool) (now : Nat) : UInt32 :=
  if keepTtl then self.ttl
  else
    let expiresAt := self.createdAt + Duration.fromSecs self.ttl.toNat
    if now ≥ expiresAt then 0
    else UInt32.ofNat (Duration.asSecs (expiresAt - now))

end CacheEntry

/-- Per-entry expiry policy. -/
structure TtlExpiry where
  minTtl : Nat
  maxTtl : Nat
  keepTtl : Bool
  deriving DecidableEq

def TtlExpiry.durationFor (self : TtlExpiry) (value : CacheEntry Name) : Option Nat :=
  if self.keepTtl then
    some (Duration.fromSecs value.ttl.toNat)
  else
    Duration.clamp (Duration.fromSecs value.ttl.toNat) self.minTtl self.maxTtl

inductive CacheResult (Name : Type) where
  | fresh (entry : CacheEntry Name)
  | miss

structure DnsCache (Name : Type) where
  inner : ExpiringStore CacheKey (CacheEntry Name)
  maxCapacity : Nat
  expiry : TtlExpiry

namespace DnsCache

def newMetric (size : Nat) (minTtl maxTtl : UInt32) (keepTtl : Bool) : DnsCache Name where
  inner := .empty
  maxCapacity := size
  expiry :=
    { minTtl := Duration.fromSecs minTtl.toNat
      maxTtl := Duration.fromSecs maxTtl.toNat
      keepTtl := keepTtl }

/-- The `keep_ttl` of the cache is the one of its expiry policy. -/
def keepTtl (self : DnsCache Name) : Bool := self.expiry.keepTtl

def getCached (self : DnsCache Name) (now : Nat) (key : CacheKey) : CacheResult Name :=
  match self.inner.get now key with
  | some entry => .fresh entry
  | none => .miss

def put (self : DnsCache Name) (now : Nat) (key : CacheKey)
    (records : List (CacheRecord Name)) (ttl : UInt32) : Option (DnsCache Name) :=
  let entry : CacheEntry Name := { records := records, createdAt := now, ttl := ttl }
  (self.expiry.durationFor entry).map fun lifetime =>
    { self with inner := self.inner.insert now key entry lifetime }

/-- moka may drop an entry at any time to stay within its capacity. -/
def evict (self : DnsCache Name) (key : CacheKey) : DnsCache Name :=
  { self with inner := self.inner.evict key }

theorem getCached_eq_fresh_iff {self : DnsCache Name} {now : Nat} {key : CacheKey}
    {entry : CacheEntry Name} :
    self.getCached now key = .fresh entry ↔
      ∃ deadline, self.inner.slot key = some ⟨entry, deadline⟩ ∧ now < deadline := by
  rw [← ExpiringStore.get_eq_some_iff, getCached]
  split
  · next stored found => simp [found]
  · next missed => simp [missed]

end DnsCache

end Rsdns.Plugins
