import Rsdns.Plugins.Util
import Rsdns.Query

/-!
# The cache stage (`plugins/cache.rs`)

`lookup` answers from a fresh entry; `writeBack` stores a response whose action
starts with `forward`.
-/

namespace Rsdns.Plugins

open Dns

structure CacheConfig where
  size : Option Nat
  minTtl : Option UInt32
  maxTtl : Option UInt32
  keepTtl : Option Bool
  skipBalance : Option Bool
  deriving DecidableEq

structure Cache (Name : Type) where
  cache : DnsCache Name
  skipBalanceOnHit : Bool

namespace Cache

variable {Name : Type}

def init (cfg : CacheConfig) : Cache Name where
  cache :=
    .newMetric (cfg.size.getD 4096) (cfg.minTtl.getD 60) (cfg.maxTtl.getD 3600)
      (cfg.keepTtl.getD false)
  skipBalanceOnHit := cfg.skipBalance.getD true

variable [NameApi Name]

/-- What a hit serves: the rebuilt response, or SERVFAIL if it cannot be rebuilt. -/
def respond (self : Cache Name) (now : Nat) (msg : Message Name) (entry : CacheEntry Name) :
    Message Name :=
  match buildResponseFromCache msg entry self.cache.keepTtl now with
  | .ok resp => resp
  | .error _ => buildServfail msg

def lookup (self : Cache Name) (now : Nat) (ctx : QueryContext Name) :
    Step × QueryContext Name :=
  if ctx.skipCache then (.continue, ctx)
  else
    match self.cache.getCached now ctx.key with
    | .fresh entry =>
        (.respond,
          { ctx with
            skipBalance := self.skipBalanceOnHit
            response := some (self.respond now ctx.msg entry)
            action := entry.actionName })
    | .miss => (.continue, ctx)

/-- All that a lookup can do. -/
inductive LookupOutcome (self : Cache Name) (now : Nat) (ctx : QueryContext Name) :
    Step × QueryContext Name → Prop where
  | skips (skipped : ctx.skipCache = true) : LookupOutcome self now ctx (.continue, ctx)
  | misses (asks : ctx.skipCache = false) (missed : self.cache.getCached now ctx.key = .miss) :
      LookupOutcome self now ctx (.continue, ctx)
  | hits (asks : ctx.skipCache = false) (entry : CacheEntry Name)
      (found : self.cache.getCached now ctx.key = .fresh entry) :
      LookupOutcome self now ctx
        (.respond,
          { ctx with
            skipBalance := self.skipBalanceOnHit
            response := some (self.respond now ctx.msg entry)
            action := entry.actionName })

theorem outcome_lookup (self : Cache Name) (now : Nat) (ctx : QueryContext Name) :
    LookupOutcome self now ctx (self.lookup now ctx) := by
  unfold lookup
  split
  · next skipped => exact .skips skipped
  · next asks =>
      have asks : ctx.skipCache = false := by simpa using asks
      split
      · next entry found => exact .hits asks entry found
      · next missed => exact .misses asks missed

/-- The cache after a query; `none` is an abort. -/
def writeBack (self : Cache Name) (now : Nat) (ctx : QueryContext Name) :
    Option (Cache Name) :=
  if ctx.skipCache then some self
  else
    match ctx.response with
    | some response =>
        if "forward".toList.isPrefixOf ctx.action then
          (cacheUpstreamResponse self.cache now ctx.key response none).map fun cache =>
            { self with cache := cache }
        else some self
    | none => some self

end Cache

end Rsdns.Plugins
