import Rsdns.Library.Machine
import Rsdns.Server.Pipeline

/-!
# Runs of the server

Queries are handled concurrently.  A query is received, which takes it through
the cache lookup, and completed later, which takes it through the rules, the
balancing and the write-back; between the two other queries may do either, time
may pass, tables may be reloaded and entries evicted.
-/

namespace Rsdns.Server

open Dns Plugins

variable {Name : Type} [NameApi Name]

/-- A query between its lookup and its completion, with the entry it was answered
from. -/
structure Pending (Name : Type) where
  ctx : QueryContext Name
  step : Step
  hit : Option (CacheEntry Name)

/-- A response that was fetched from upstream and written back. -/
structure WriteBack (Name : Type) where
  time : Nat
  key : CacheKey
  response : Message Name

/-- `fetched` is not part of the server: it records what was written back. -/
structure State (Name : Type) where
  now : Nat
  hosts : HostsTrie
  groups : List GroupState
  cache : Cache Name
  pending : List (Pending Name)
  fetched : List (WriteBack Name)

inductive Event (Name : Type) where
  | tick (elapsed : Nat)
  | receive (msg : Message Name)
  | complete (index : Nat) (world : World Name)
  | reloadHosts (hosts : HostsTrie)
  | reloadGroups (groups : List GroupState)
  | evict (key : CacheKey)

def hitEntry (state : State Name) (ctx : QueryContext Name) : Option (CacheEntry Name) :=
  match Hosts.handle state.hosts ctx with
  | (.respond, _) => none
  | (.continue, ctx) =>
      let ctx := (Groups.handle state.groups ctx).2
      if ctx.skipCache then none
      else
        match state.cache.cache.getCached state.now ctx.key with
        | .fresh entry => some entry
        | .miss => none

def answeredByUpstream (self : Pipeline) (world : World Name) (ctx : QueryContext Name) : Bool :=
  match self.rules.route ctx with
  | none => false
  | some (idx, routed) =>
      match (self.rules.rules.get idx).action with
      | .Forward upstream _ denyQtypes _ subnet _ =>
          !denyQtypes.contains routed.qtype &&
            (world.upstream 0 upstream (withSubnet routed.msg subnet)).isSome
      | _ => false

def written (self : Pipeline) (world : World Name) (now : Nat) (query : Pending Name)
    (final : QueryContext Name) : List (WriteBack Name) :=
  match final.response with
  | none => []
  | some response =>
      if query.step = .continue ∧ answeredByUpstream self world query.ctx = true ∧
          final.skipCache = false ∧ (cacheable response none).isSome then
        [{ time := now, key := final.key, response := response }]
      else []

/-- A refused event is one that cannot happen: a message that asks nothing, a query
that is not pending, or an abort. -/
def step (self : Pipeline) (state : State Name) : Event Name → Option (State Name)
  | .tick elapsed => some { state with now := state.now + elapsed }
  | .receive msg =>
      match openContext msg with
      | .error _ => none
      | .ok ctx =>
          let (step, looked) := lookupStages state.hosts state.groups state.cache state.now ctx
          some { state with
            pending := state.pending ++
              [{ ctx := looked, step := step, hit := hitEntry state ctx }] }
  | .complete index world => do
      let query ← state.pending[index]?
      let final := answerStages self world query.step query.ctx
      let cache ← state.cache.writeBack state.now final
      return { state with
        cache := cache
        pending := state.pending.eraseIdx index
        fetched := state.fetched ++ written self world state.now query final }
  | .reloadHosts hosts => some { state with hosts := hosts }
  | .reloadGroups groups => some { state with groups := groups }
  | .evict key =>
      some { state with cache := { state.cache with cache := state.cache.cache.evict key } }

def machine (self : Pipeline) : Machine (State Name) (Event Name) where
  step := step self

def start (now : Nat) (hosts : HostsTrie) (groups : List GroupState) (cfg : CacheConfig) :
    State Name where
  now := now
  hosts := hosts
  groups := groups
  cache := Cache.init cfg
  pending := []
  fetched := []

end Rsdns.Server
