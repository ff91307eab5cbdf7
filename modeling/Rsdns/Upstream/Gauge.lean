import Mathlib.Algebra.BigOperators.Group.List.Basic
import Rsdns.Library.Slots
import Rsdns.Upstream.Idle

/-!
# What the pools say about their connections (`upstream/pool.rs`)

The pools of all servers share two families of series: a gauge for every upstream name and
protocol, and a counter of checkouts for every upstream name and result.  A pool that has no
name yet says nothing.  The gauge is set to the number of idle connections of one pool when a
connection has come back to it, but not when one is taken, and other calls may come between a
return and the setting.
-/

namespace Rsdns.Upstream

variable {Conn : Type}

/-- The series of all pools, by upstream and protocol and by upstream and result.  The
counters are counted without their greatest value. -/
structure PoolMetrics where
  poolConnections : Text × Text → Option Nat
  poolCheckoutTotal : Text × Text → Nat

/-- Not part of the code.  It records where the connections of one pool came from and where
they went, what was counted before it had a name, how many returns have not set the gauge yet,
and what its last setting of the gauge has not seen. -/
structure PoolFlow where
  created : Nat
  cached : Nat
  unnamedCreated : Nat
  unnamedCached : Nat
  returned : Nat
  discarded : Nat
  expired : Nat
  unset : Nat
  takenSince : Nat
  putSince : Nat

structure MeteredPool (Conn : Type) where
  state : PoolState Conn
  identity : Option Text
  flow : PoolFlow

/-- `setBy` is not part of the code: it records which pool set a gauge last. -/
structure MeteredPools (Conn : Type) where
  pools : List (MeteredPool Conn)
  metrics : PoolMetrics
  setBy : Text × Text → Option Nat

/-- Something happens to a pool, a pool gets its name, or one sets the gauge that it owes. -/
inductive MeteredEvent (Conn : Type) where
  | pool (index : Nat) (event : PoolEvent Conn)
  | setPoolIdentity (index : Nat) (name : Text)
  | updateConnectionGauge (index : Nat)

/-! ### Counting -/

def PoolState.idle (state : PoolState Conn) : Option Conn :=
  (ConnectionPool.popIdle state.now state.pool.config.idleTimeout state.pool.cache).1

/-- The result of a checkout that ends with this event. -/
def PoolState.result (state : PoolState Conn) : PoolEvent Conn → Option Text
  | .checkout => if state.idle.isSome then some "cached".toList else none
  | .connect _ (some _) => some "created".toList
  | _ => none

def PoolMetrics.recordCheckout (self : PoolMetrics) (identity result : Option Text) :
    PoolMetrics :=
  match identity, result with
  | some name, some result =>
      { self with
        poolCheckoutTotal := Function.update self.poolCheckoutTotal (name, result)
          (self.poolCheckoutTotal (name, result) + 1) }
  | _, _ => self

def PoolFlow.note (self : PoolFlow) (state next : PoolState Conn) : PoolEvent Conn → PoolFlow
  | .checkout =>
      let hit := if state.idle.isSome then 1 else 0
      let gone := state.pool.cache.length - next.pool.cache.length
      { self with
        cached := self.cached + hit
        expired := self.expired + (gone - hit)
        takenSince := self.takenSince + gone }
  | .connect _ (some _) => { self with created := self.created + 1 }
  | .record _ _ | .drop _ =>
      let back := next.pool.cache.length - state.pool.cache.length
      { self with
        returned := self.returned + back
        discarded := self.discarded + (1 - back)
        unset := self.unset + back
        putSince := self.putSince + back }
  | _ => self

namespace MeteredPool

def start (pool : ConnectionPool Conn) : MeteredPool Conn where
  state := .start pool
  identity := none
  flow :=
    { created := 0, cached := 0, unnamedCreated := 0, unnamedCached := 0, returned := 0,
      discarded := 0, expired := 0, unset := 0, takenSince := 0, putSince := 0 }

def labels (self : MeteredPool Conn) : Option (Text × Text) :=
  self.identity.map fun name => (name, self.state.pool.proto)

def moved (self : MeteredPool Conn) (event : PoolEvent Conn) (next : PoolState Conn) :
    MeteredPool Conn :=
  { self with state := next, flow := self.flow.note self.state next event }

/-- A pool with a name owes a setting of the gauge. -/
def named (self : MeteredPool Conn) (name : Text) : MeteredPool Conn :=
  { self with
    identity := some name
    flow := { self.flow with
      unnamedCreated := self.flow.created
      unnamedCached := self.flow.cached
      unset := self.flow.unset + 1 } }

def gaugeSet (self : MeteredPool Conn) : MeteredPool Conn :=
  { self with
    flow := { self.flow with unset := self.flow.unset - 1, takenSince := 0, putSince := 0 } }

/-- Without a name there is no gauge to set. -/
def gaugeSkipped (self : MeteredPool Conn) : MeteredPool Conn :=
  { self with flow := { self.flow with unset := self.flow.unset - 1 } }

end MeteredPool

namespace MeteredPools

def start (pools : List (ConnectionPool Conn)) : MeteredPools Conn where
  pools := pools.map .start
  metrics := { poolConnections := fun _ => none, poolCheckoutTotal := fun _ => 0 }
  setBy := fun _ => none

/-- Reading the number and setting the gauge are done under one lock. -/
def updateConnectionGauge (self : MeteredPools Conn) (index : Nat) (pool : MeteredPool Conn) :
    MeteredPools Conn :=
  match pool.labels with
  | none => { self with pools := self.pools.set index pool.gaugeSkipped }
  | some labels =>
      { pools := self.pools.set index pool.gaugeSet
        metrics := { self.metrics with
          poolConnections := Function.update self.metrics.poolConnections labels
            (some pool.state.pool.cache.length) }
        setBy := Function.update self.setBy labels (some index) }

/-- A pool gets one name, when it is assigned to its group. -/
def step (self : MeteredPools Conn) : MeteredEvent Conn → Option (MeteredPools Conn)
  | .pool index event => do
      let pool ← self.pools[index]?
      let next ← pool.state.step event
      return { self with
        pools := self.pools.set index (pool.moved event next)
        metrics := self.metrics.recordCheckout pool.identity (pool.state.result event) }
  | .setPoolIdentity index name => do
      let pool ← self.pools[index]?
      if pool.identity.isNone then
        return { self with pools := self.pools.set index (pool.named name) }
      else none
  | .updateConnectionGauge index => do
      let pool ← self.pools[index]?
      if 0 < pool.flow.unset then return self.updateConnectionGauge index pool else none

end MeteredPools

def meteredPoolsMachine (Conn : Type) : Machine (MeteredPools Conn) (MeteredEvent Conn) :=
  ⟨MeteredPools.step⟩

/-! ### How many connections a step moves -/

namespace PoolState

theorem length_popIdle_le (now idleTimeout : Nat) (cache : List (CachedConn Conn)) :
    (ConnectionPool.popIdle now idleTimeout cache).2.length +
      (if (ConnectionPool.popIdle now idleTimeout cache).1.isSome then 1 else 0) ≤
        cache.length := by
  induction cache with
  | nil => exact Nat.le_refl 0
  | cons conn rest inductionHypothesis =>
      rw [ConnectionPool.popIdle]
      split
      · exact inductionHypothesis.trans (Nat.le_succ _)
      · exact Nat.le_refl _

theorem sizes_checkout (state : PoolState Conn) :
    state.checkout.guards.length =
        state.guards.length + (if state.idle.isSome then 1 else 0) ∧
      state.checkout.pool.cache.length + (if state.idle.isSome then 1 else 0) ≤
        state.pool.cache.length := by
  have popped := length_popIdle_le state.now state.pool.config.idleTimeout state.pool.cache
  unfold checkout idle
  cases found : ConnectionPool.popIdle state.now state.pool.config.idleTimeout
      state.pool.cache with
  | mk idle rest =>
      rw [found] at popped
      cases idle with
      | none => exact ⟨rfl, popped⟩
      | some sender => exact ⟨List.length_append, popped⟩

theorem sizes_report {state : PoolState Conn} {index : Nat} {guard : CheckoutGuard Conn}
    (found : state.guards[index]? = some guard) (success : Bool) :
    (state.guards.eraseIdx index).length + 1 = state.guards.length ∧
      ((guard.report state.pool state.now success).2.cache.length = state.pool.cache.length ∨
        (guard.report state.pool state.now success).2.cache.length =
          state.pool.cache.length + 1) := by
  obtain ⟨inside, _⟩ := List.getElem?_eq_some_iff.mp found
  refine ⟨?_, ?_⟩
  · rw [List.length_eraseIdx_of_lt inside]
    omega
  · rcases cache_report guard state.pool state.now success with same | ⟨sender, put⟩
    · exact .inl (congrArg List.length same)
    · exact .inr (congrArg List.length put)

theorem proto_report (guard : CheckoutGuard Conn) (pool : ConnectionPool Conn) (now : Nat)
    (success : Bool) : (guard.report pool now success).2.proto = pool.proto := by
  unfold CheckoutGuard.report
  split
  · rfl
  · split
    · cases success <;> rfl
    · rfl

theorem proto_checkout (state : PoolState Conn) :
    state.checkout.pool.proto = state.pool.proto := by
  unfold checkout
  cases ConnectionPool.popIdle state.now state.pool.config.idleTimeout state.pool.cache with
  | mk idle rest => cases idle <;> rfl

theorem proto_take {state next : PoolState Conn} {index : Nat} {call : Call}
    (taken : state.take index call = some next) : next.pool.proto = state.pool.proto := by
  unfold take ConnectionPool.nextAddr at taken
  split at taken
  · split at taken
    · cases taken
      rfl
    · next moved =>
        obtain ⟨address, _, same⟩ := Option.map_eq_some_iff.mp moved
        cases taken
        cases same
        rfl
  · cases taken

theorem proto_of_step {state next : PoolState Conn} {event : PoolEvent Conn}
    (stepped : state.step event = some next) : next.pool.proto = state.pool.proto := by
  cases event with
  | checkout =>
      cases stepped
      exact state.proto_checkout
  | record index success =>
      obtain ⟨guard, _, same⟩ := Option.bind_eq_some_iff.mp stepped
      cases same
      rw [CheckoutGuard.record_eq_report]
      exact proto_report guard state.pool state.now success
  | drop index =>
      obtain ⟨guard, _, same⟩ := Option.bind_eq_some_iff.mp stepped
      cases same
      exact proto_report guard state.pool state.now true
  | tick elapsed =>
      cases stepped
      rfl
  | take index =>
      obtain ⟨call, _, taken⟩ := Option.bind_eq_some_iff.mp stepped
      exact proto_take taken
  | connect index result =>
      obtain ⟨call, _, connected⟩ := Option.bind_eq_some_iff.mp stepped
      unfold connect at connected
      split at connected
      · cases result <;> cases connected <;> rfl
      · cases connected

end PoolState

/-! ### One pool -/

/-- Every checkout of a pool has a guard or has ended, and what came back is idle, in use again
or expired. -/
structure MeteredPool.Balanced (pool : MeteredPool Conn) : Prop where
  checkouts : pool.flow.cached + pool.flow.created =
    pool.state.guards.length + pool.flow.returned + pool.flow.discarded
  returns : pool.flow.returned =
    pool.state.pool.cache.length + pool.flow.cached + pool.flow.expired

/-- A step of a pool leaves it its name and its gauge.  What it changes of the idle connections
is what the gauge has not seen of it, and a checkout that it ends is counted. -/
structure MeteredPool.Follows (result : Option Text) (before after : MeteredPool Conn) :
    Prop where
  identity : after.identity = before.identity
  labels : after.labels = before.labels
  idle : after.state.pool.cache.length + after.flow.takenSince + before.flow.putSince =
    before.state.pool.cache.length + before.flow.takenSince + after.flow.putSince
  unset : after.flow.unset + before.flow.putSince = before.flow.unset + after.flow.putSince
  put : before.flow.putSince ≤ after.flow.putSince
  created : after.flow.created =
    before.flow.created + if result = some "created".toList then 1 else 0
  cached : after.flow.cached =
    before.flow.cached + if result = some "cached".toList then 1 else 0
  unnamedCreated : after.flow.unnamedCreated = before.flow.unnamedCreated
  unnamedCached : after.flow.unnamedCached = before.flow.unnamedCached
  balanced : before.Balanced → after.Balanced

namespace MeteredPool

theorem labels_moved {self : MeteredPool Conn} {event : PoolEvent Conn} {next : PoolState Conn}
    (proto : next.pool.proto = self.state.pool.proto) :
    (self.moved event next).labels = self.labels := by
  unfold labels moved
  rw [proto]

theorem follows_of_rest {self : MeteredPool Conn} {event : PoolEvent Conn}
    {next : PoolState Conn} (result : self.state.result event = none)
    (noted : self.flow.note self.state next event = self.flow)
    (proto : next.pool.proto = self.state.pool.proto)
    (cache : next.pool.cache = self.state.pool.cache)
    (guards : next.guards = self.state.guards) :
    self.Follows (self.state.result event) (self.moved event next) := by
  have labels : (self.moved event next).labels = self.labels := labels_moved proto
  rw [result]
  unfold moved at labels ⊢
  rw [noted] at labels ⊢
  refine ⟨rfl, labels, ?_, rfl, Nat.le_refl _, rfl, rfl, rfl, rfl, fun balanced => ?_⟩
  · rw [cache]
  · exact ⟨guards ▸ balanced.checkouts, cache ▸ balanced.returns⟩

theorem follows_checkout (self : MeteredPool Conn) :
    self.Follows (self.state.result .checkout) (self.moved .checkout self.state.checkout) := by
  have labels : (self.moved .checkout self.state.checkout).labels = self.labels :=
    labels_moved self.state.proto_checkout
  obtain ⟨guards, cache⟩ := self.state.sizes_checkout
  have different : some "cached".toList ≠ some "created".toList := by decide
  cases found : self.state.idle.isSome with
  | false =>
      simp only [found, Bool.false_eq_true, if_false] at guards cache
      refine ⟨rfl, labels, ?_, ?_, ?_, ?_, ?_, rfl, rfl, fun ⟨checkouts, returns⟩ => ⟨?_, ?_⟩⟩ <;>
        simp only [moved, PoolFlow.note, PoolState.result, found, Bool.false_eq_true,
          if_false, reduceCtorEq] <;> omega
  | true =>
      simp only [found, if_true] at guards cache
      refine ⟨rfl, labels, ?_, ?_, ?_, ?_, ?_, rfl, rfl, fun ⟨checkouts, returns⟩ => ⟨?_, ?_⟩⟩ <;>
        simp only [moved, PoolFlow.note, PoolState.result, found, if_true, different,
          if_false] <;> omega

theorem follows_report {self : MeteredPool Conn} {event : PoolEvent Conn} {index : Nat}
    {pool : ConnectionPool Conn}
    (ends : event = .drop index ∨ ∃ success, event = .record index success)
    (proto : pool.proto = self.state.pool.proto)
    (guards : (self.state.guards.eraseIdx index).length + 1 = self.state.guards.length)
    (cache : pool.cache.length = self.state.pool.cache.length ∨
      pool.cache.length = self.state.pool.cache.length + 1) :
    let next := { self.state with pool := pool, guards := self.state.guards.eraseIdx index }
    self.Follows (self.state.result event) (self.moved event next) := by
  intro next
  have labels : (self.moved event next).labels = self.labels := labels_moved proto
  rcases ends with rfl | ⟨success, rfl⟩ <;>
    refine ⟨rfl, labels, ?_, ?_, ?_, rfl, rfl, rfl, rfl, fun ⟨checkouts, returns⟩ => ⟨?_, ?_⟩⟩ <;>
      simp only [moved, next, PoolFlow.note] <;> omega

theorem follows_of_step {self : MeteredPool Conn} {event : PoolEvent Conn}
    {next : PoolState Conn} (stepped : self.state.step event = some next) :
    self.Follows (self.state.result event) (self.moved event next) := by
  have proto := PoolState.proto_of_step stepped
  cases event with
  | tick elapsed =>
      cases stepped
      exact follows_of_rest rfl rfl rfl rfl rfl
  | checkout =>
      cases stepped
      exact self.follows_checkout
  | take index =>
      obtain ⟨call, _, taken⟩ := Option.bind_eq_some_iff.mp stepped
      obtain ⟨_, cache, guards⟩ := PoolState.take_spec taken
      exact follows_of_rest rfl rfl proto cache guards
  | connect index result =>
      obtain ⟨call, _, connected⟩ := Option.bind_eq_some_iff.mp stepped
      obtain ⟨_, cache, guards⟩ := PoolState.connect_spec connected
      cases result with
      | none => exact follows_of_rest rfl rfl proto cache (guards.trans (List.append_nil _))
      | some sender =>
          have more : next.guards.length = self.state.guards.length + 1 := by
            rw [guards]
            exact List.length_append
          have different : some "created".toList ≠ some "cached".toList := by decide
          refine ⟨rfl, labels_moved proto, ?_, rfl, Nat.le_refl _, ?_, ?_, rfl, rfl,
            fun ⟨checkouts, returns⟩ => ⟨?_, cache ▸ returns⟩⟩
          · simp only [moved, PoolFlow.note]
            rw [cache]
          · simp only [moved, PoolFlow.note, PoolState.result, if_true]
          · simp only [moved, PoolFlow.note, PoolState.result, different, if_false, Nat.add_zero]
          · simp only [moved, PoolFlow.note]
            omega
  | record index success =>
      obtain ⟨guard, found, same⟩ := Option.bind_eq_some_iff.mp stepped
      cases same
      obtain ⟨guards, cache⟩ := PoolState.sizes_report found success
      rw [← CheckoutGuard.record_eq_report] at cache
      exact follows_report (.inr ⟨success, rfl⟩) proto guards cache
  | drop index =>
      obtain ⟨guard, found, same⟩ := Option.bind_eq_some_iff.mp stepped
      cases same
      obtain ⟨guards, cache⟩ := PoolState.sizes_report found true
      exact follows_report (.inl rfl) proto guards cache

end MeteredPool

/-! ### All pools -/

def namedSum (pools : List (MeteredPool Conn)) (name : Text) (count : MeteredPool Conn → Nat) :
    Nat :=
  (pools.map fun pool => if pool.identity = some name then count pool else 0).sum

/-- The gauge shows what the pool had idle when it set it. -/
structure MeteredPool.Shows (pool : MeteredPool Conn) (shown : Nat) : Prop where
  unseen : pool.flow.putSince ≤ pool.flow.unset
  idle : pool.state.pool.cache.length + pool.flow.takenSince = shown + pool.flow.putSince

/-- The counter has the checkouts of this kind of all pools of a name, but for those before
they had it. -/
def MeteredPools.Counted (metered : MeteredPools Conn) (kind : Text)
    (total unnamed : PoolFlow → Nat) : Prop :=
  ∀ name, namedSum metered.pools name (fun pool => total pool.flow) =
    metered.metrics.poolCheckoutTotal (name, kind) +
      namedSum metered.pools name (fun pool => unnamed pool.flow)

/-- Each pool is balanced, the counters have the checkouts, and a gauge is that of the pool that
set it last. -/
structure MeteredPools.Accounted (metered : MeteredPools Conn) : Prop where
  balanced : ∀ pool ∈ metered.pools, pool.Balanced
  created : metered.Counted "created".toList PoolFlow.created PoolFlow.unnamedCreated
  cached : metered.Counted "cached".toList PoolFlow.cached PoolFlow.unnamedCached
  shown : ∀ labels index, metered.setBy labels = some index →
    ∃ pool shown, metered.pools[index]? = some pool ∧ pool.labels = some labels ∧
      metered.metrics.poolConnections labels = some shown ∧ pool.Shows shown
  set : ∀ pool ∈ metered.pools, ∀ labels, pool.labels = some labels → pool.flow.unset = 0 →
    (metered.setBy labels).isSome

theorem namedSum_congr {pools : List (MeteredPool Conn)} {name : Text}
    {count other : MeteredPool Conn → Nat} (same : ∀ pool ∈ pools, count pool = other pool) :
    namedSum pools name count = namedSum pools name other := by
  refine congrArg List.sum (List.map_congr_left fun pool member => ?_)
  rw [same pool member]

theorem namedSum_add (pools : List (MeteredPool Conn)) (name : Text)
    (count other : MeteredPool Conn → Nat) :
    namedSum pools name (fun pool => count pool + other pool) =
      namedSum pools name count + namedSum pools name other := by
  unfold namedSum
  rw [← List.sum_map_add]
  refine congrArg List.sum (List.map_congr_left fun pool _ => ?_)
  split <;> rfl

theorem namedSum_set {pools : List (MeteredPool Conn)} {index : Nat}
    {pool next : MeteredPool Conn} (here : pools[index]? = some pool)
    (identity : next.identity = pool.identity) (name : Text) (count : MeteredPool Conn → Nat)
    {added : Nat} (grown : count next = count pool + added) :
    namedSum (pools.set index next) name count =
      namedSum pools name count + if pool.identity = some name then added else 0 := by
  refine Slots.sum_map_set here _ ?_
  rw [identity, grown]
  split <;> rfl

theorem namedSum_named {pools : List (MeteredPool Conn)} {index : Nat}
    {pool next : MeteredPool Conn} (here : pools[index]? = some pool)
    (unnamed : pool.identity = none) (name : Text) (count : MeteredPool Conn → Nat) :
    namedSum (pools.set index next) name count =
      namedSum pools name count + if next.identity = some name then count next else 0 := by
  refine Slots.sum_map_set here _ ?_
  simp [unnamed]

namespace PoolMetrics

theorem poolCheckoutTotal_recordCheckout (self : PoolMetrics) (identity result : Option Text)
    (name kind : Text) :
    (self.recordCheckout identity result).poolCheckoutTotal (name, kind) =
      self.poolCheckoutTotal (name, kind) +
        if identity = some name then if result = some kind then 1 else 0 else 0 := by
  cases identity with
  | none => rfl
  | some owner =>
      cases result with
      | none =>
          rw [if_neg (nofun : none ≠ some kind), ite_self]
          rfl
      | some counted =>
          simp only [recordCheckout, Function.update_apply, Prod.mk.injEq, Option.some.injEq]
          by_cases sameName : owner = name <;> by_cases sameKind : counted = kind <;>
            simp [sameName, sameKind, Ne.symm]

theorem poolConnections_recordCheckout (self : PoolMetrics) (identity result : Option Text) :
    (self.recordCheckout identity result).poolConnections = self.poolConnections := by
  unfold recordCheckout
  split <;> rfl

end PoolMetrics

namespace MeteredPools

/-- What a pool with a name counts more, the counter of that name has more. -/
theorem Counted.set {self next : MeteredPools Conn} {kind : Text} {total unnamed : PoolFlow → Nat}
    (counted : self.Counted kind total unnamed) {index : Nat} {pool after : MeteredPool Conn}
    (here : self.pools[index]? = some pool) (pools : next.pools = self.pools.set index after)
    (identity : after.identity = pool.identity) {added : Nat}
    (grown : total after.flow = total pool.flow + added)
    (same : unnamed after.flow = unnamed pool.flow)
    (more : ∀ name, next.metrics.poolCheckoutTotal (name, kind) =
      self.metrics.poolCheckoutTotal (name, kind) +
        if pool.identity = some name then added else 0) :
    next.Counted kind total unnamed := by
  intro name
  have kept : unnamed after.flow = unnamed pool.flow + 0 := same
  rw [pools, more name, namedSum_set here identity name (fun pool => total pool.flow) grown,
    namedSum_set here identity name (fun pool => unnamed pool.flow) kept, counted name, ite_self]
  omega

theorem Counted.named {self next : MeteredPools Conn} {kind : Text}
    {total unnamed : PoolFlow → Nat} (counted : self.Counted kind total unnamed) {index : Nat}
    {pool after : MeteredPool Conn} (here : self.pools[index]? = some pool)
    (pools : next.pools = self.pools.set index after) (metrics : next.metrics = self.metrics)
    (without : pool.identity = none) (same : unnamed after.flow = total after.flow) :
    next.Counted kind total unnamed := by
  intro name
  rw [pools, metrics, namedSum_named here without name fun pool => total pool.flow,
    namedSum_named here without name fun pool => unnamed pool.flow, counted name, same]
  omega

theorem Accounted.balanced_set {self : MeteredPools Conn} (accounted : self.Accounted)
    {index : Nat} {after : MeteredPool Conn} (kept : after.Balanced) :
    ∀ pool ∈ self.pools.set index after, pool.Balanced := by
  intro pool member
  rcases List.mem_or_eq_of_mem_set member with before | rfl
  · exact accounted.balanced pool before
  · exact kept

theorem Accounted.pool {self : MeteredPools Conn} (accounted : self.Accounted) {index : Nat}
    {pool : MeteredPool Conn} (here : self.pools[index]? = some pool)
    {event : PoolEvent Conn} {next : PoolState Conn}
    (stepped : pool.state.step event = some next) :
    Accounted { self with
      pools := self.pools.set index (pool.moved event next)
      metrics := self.metrics.recordCheckout pool.identity (pool.state.result event) } := by
  have follows := MeteredPool.follows_of_step stepped
  have recorded := self.metrics.poolCheckoutTotal_recordCheckout pool.identity
    (pool.state.result event)
  have balanced := follows.balanced (accounted.balanced pool (List.mem_of_getElem? here))
  refine { balanced := accounted.balanced_set balanced, created := ?_, cached := ?_,
           shown := fun labels owner set => ?_, set := fun other member labels labelled all => ?_ }
  · exact accounted.created.set here rfl follows.identity follows.created follows.unnamedCreated
      fun name => recorded name _
  · exact accounted.cached.set here rfl follows.identity follows.cached follows.unnamedCached
      fun name => recorded name _
  · obtain ⟨shownPool, shown, isOwner, labelled, gauge, shows⟩ := accounted.shown labels owner set
    rw [← PoolMetrics.poolConnections_recordCheckout] at gauge
    by_cases same : index = owner
    · subst same
      cases here.symm.trans isOwner
      have inside := (List.getElem?_eq_some_iff.mp here).1
      refine ⟨_, shown, List.getElem?_set_self inside, follows.labels.trans labelled, gauge, ?_⟩
      obtain ⟨unseen, idle⟩ := shows
      have moved := follows.idle
      have owed := follows.unset
      exact ⟨by omega, by omega⟩
    · exact ⟨shownPool, shown, (List.getElem?_set_ne same).trans isOwner, labelled, gauge, shows⟩
  · rcases List.mem_or_eq_of_mem_set member with before | rfl
    · exact accounted.set other before labels labelled all
    · have owed := follows.unset
      have put := follows.put
      exact accounted.set pool (List.mem_of_getElem? here) labels
        (follows.labels.symm.trans labelled) (by omega)

theorem Accounted.shown_set {self : MeteredPools Conn} (accounted : self.Accounted)
    {index : Nat} {pool : MeteredPool Conn} (here : self.pools[index]? = some pool)
    (after : MeteredPool Conn) {labels : Text × Text} (other : pool.labels ≠ some labels)
    {owner : Nat} (set : self.setBy labels = some owner) :
    ∃ pool shown, (self.pools.set index after)[owner]? = some pool ∧
      pool.labels = some labels ∧ self.metrics.poolConnections labels = some shown ∧
        pool.Shows shown := by
  obtain ⟨shownPool, shown, isOwner, labelled, gauge, shows⟩ := accounted.shown labels owner set
  have apart : index ≠ owner := by
    rintro rfl
    cases here.symm.trans isOwner
    exact other labelled
  exact ⟨shownPool, shown, (List.getElem?_set_ne apart).trans isOwner, labelled, gauge, shows⟩

theorem Accounted.named {self : MeteredPools Conn} (accounted : self.Accounted)
    {index : Nat} {pool : MeteredPool Conn} (here : self.pools[index]? = some pool)
    (without : pool.identity = none) (name : Text) :
    Accounted { self with pools := self.pools.set index (pool.named name) } := by
  have unlabelled : ∀ labels, pool.labels ≠ some labels := by
    intro labels
    simp [MeteredPool.labels, without]
  obtain ⟨checkouts, returns⟩ := accounted.balanced pool (List.mem_of_getElem? here)
  refine { balanced := accounted.balanced_set ⟨checkouts, returns⟩, created := ?_, cached := ?_,
           shown := fun labels owner set => ?_, set := fun other member labels labelled all => ?_ }
  · exact accounted.created.named here rfl rfl without rfl
  · exact accounted.cached.named here rfl rfl without rfl
  · exact accounted.shown_set here _ (unlabelled labels) set
  · rcases List.mem_or_eq_of_mem_set member with before | rfl
    · exact accounted.set other before labels labelled all
    · exact absurd all (Nat.succ_ne_zero _)

theorem Accounted.gaugeSkipped {self : MeteredPools Conn} (accounted : self.Accounted)
    {index : Nat} {pool : MeteredPool Conn} (here : self.pools[index]? = some pool)
    (unlabelled : pool.labels = none) :
    Accounted { self with pools := self.pools.set index pool.gaugeSkipped } := by
  obtain ⟨checkouts, returns⟩ := accounted.balanced pool (List.mem_of_getElem? here)
  refine { balanced := accounted.balanced_set ⟨checkouts, returns⟩, created := ?_, cached := ?_,
           shown := fun labels owner set => ?_, set := fun other member labels labelled all => ?_ }
  · exact accounted.created.set here rfl rfl rfl rfl fun name => by rw [ite_self]; rfl
  · exact accounted.cached.set here rfl rfl rfl rfl fun name => by rw [ite_self]; rfl
  · exact accounted.shown_set here _ (by simp [unlabelled]) set
  · rcases List.mem_or_eq_of_mem_set member with before | rfl
    · exact accounted.set other before labels labelled all
    · cases unlabelled.symm.trans labelled

theorem Accounted.gaugeSet {self : MeteredPools Conn} (accounted : self.Accounted)
    {index : Nat} {pool : MeteredPool Conn} (here : self.pools[index]? = some pool)
    {own : Text × Text} (isOwn : pool.labels = some own) :
    Accounted
      { pools := self.pools.set index pool.gaugeSet
        metrics := { self.metrics with
          poolConnections := Function.update self.metrics.poolConnections own
            (some pool.state.pool.cache.length) }
        setBy := Function.update self.setBy own (some index) } := by
  obtain ⟨checkouts, returns⟩ := accounted.balanced pool (List.mem_of_getElem? here)
  have inside := (List.getElem?_eq_some_iff.mp here).1
  refine { balanced := accounted.balanced_set ⟨checkouts, returns⟩, created := ?_, cached := ?_,
           shown := fun labels owner set => ?_, set := fun other member labels labelled all => ?_ }
  · exact accounted.created.set here rfl rfl rfl rfl fun name => by rw [ite_self]; rfl
  · exact accounted.cached.set here rfl rfl rfl rfl fun name => by rw [ite_self]; rfl
  · dsimp only at set ⊢
    rw [Function.update_apply] at set ⊢
    split at set
    · next same =>
        cases set
        subst same
        exact ⟨pool.gaugeSet, _, List.getElem?_set_self inside, isOwn, if_pos rfl,
          ⟨Nat.zero_le _, rfl⟩⟩
    · next apart =>
        rw [if_neg apart]
        refine accounted.shown_set here pool.gaugeSet (fun labelled => apart ?_) set
        exact Option.some.inj (labelled.symm.trans isOwn)
  · dsimp only
    rw [Function.update_apply]
    split
    · rfl
    · next apart =>
        rcases List.mem_or_eq_of_mem_set member with before | rfl
        · exact accounted.set other before labels labelled all
        · exact absurd (Option.some.inj (labelled.symm.trans isOwn)) apart

theorem accounted_step {self next : MeteredPools Conn} {event : MeteredEvent Conn}
    (accounted : self.Accounted) (stepped : self.step event = some next) : next.Accounted := by
  cases event with
  | pool index event =>
      obtain ⟨pool, here, taken⟩ := Option.bind_eq_some_iff.mp stepped
      obtain ⟨after, moved, same⟩ := Option.bind_eq_some_iff.mp taken
      cases same
      exact accounted.pool here moved
  | setPoolIdentity index name =>
      obtain ⟨pool, here, taken⟩ := Option.bind_eq_some_iff.mp stepped
      obtain ⟨without, same⟩ := Option.ite_none_right_eq_some.mp taken
      cases same
      exact accounted.named here (Option.isNone_iff_eq_none.mp without) name
  | updateConnectionGauge index =>
      obtain ⟨pool, here, taken⟩ := Option.bind_eq_some_iff.mp stepped
      obtain ⟨_, same⟩ := Option.ite_none_right_eq_some.mp taken
      cases same
      unfold updateConnectionGauge
      cases labelled : pool.labels with
      | none => exact accounted.gaugeSkipped here labelled
      | some own => exact accounted.gaugeSet here labelled

theorem accounted_start {pools : List (ConnectionPool Conn)}
    (new : ∀ pool ∈ pools, pool.cache = []) : (start pools).Accounted := by
  have nothing : ∀ (name : Text) (count : PoolFlow → Nat),
      (∀ pool : ConnectionPool Conn, count (MeteredPool.start pool).flow = 0) →
        namedSum (start pools).pools name (fun pool => count pool.flow) = 0 := by
    intro name count zero
    refine List.sum_eq_zero fun value member => ?_
    obtain ⟨pool, started, same⟩ := List.mem_map.mp member
    obtain ⟨before, _, rfl⟩ := List.mem_map.mp started
    rw [← same]
    exact if_neg nofun
  refine { balanced := fun pool member => ?_, created := fun name => ?_,
           cached := fun name => ?_, shown := fun labels index set => ?_,
           set := fun pool member labels labelled => ?_ }
  · obtain ⟨before, isNew, rfl⟩ := List.mem_map.mp member
    refine ⟨rfl, ?_⟩
    show 0 = before.cache.length + 0 + 0
    rw [new before isNew]
    rfl
  · rw [nothing name _ fun _ => rfl, nothing name _ fun _ => rfl]
    rfl
  · rw [nothing name _ fun _ => rfl, nothing name _ fun _ => rfl]
    rfl
  · cases set
  · obtain ⟨before, _, rfl⟩ := List.mem_map.mp member
    cases labelled

/-- No other pool sets the gauge. -/
def Alone (self : MeteredPools Conn) (index : Nat) (labels : Text × Text) : Prop :=
  ∀ other pool, self.pools[other]? = some pool → pool.labels = some labels → other = index

end MeteredPools

end Rsdns.Upstream
