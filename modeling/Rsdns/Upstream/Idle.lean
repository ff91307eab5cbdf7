import Rsdns.Upstream.Ownership

/-!
# Connections left behind by a checkout

A checkout looks at the idle connections from the newest on and stops at the first that
has not expired.  The older ones behind it stay where they are, expired or not.
-/

namespace Rsdns.Upstream

open Plugins

variable {Conn : Type}

/-- No idle connection has expired. -/
def PoolState.Fresh (state : PoolState Conn) : Prop :=
  ∀ conn ∈ state.pool.cache, conn.isExpired state.now state.pool.config.idleTimeout = false

/-- The newest idle connection has expired, or the oldest one has not. -/
def PoolState.Uniform (state : PoolState Conn) : Prop :=
  (∀ newest, state.pool.cache.head? = some newest →
    newest.isExpired state.now state.pool.config.idleTimeout = true) ∨
  ∀ oldest, state.pool.cache.getLast? = some oldest →
    oldest.isExpired state.now state.pool.config.idleTimeout = false

/-! ### The cache stays ordered -/

namespace PoolState

theorem cache_report (guard : CheckoutGuard Conn) (pool : ConnectionPool Conn) (now : Nat)
    (success : Bool) :
    (guard.report pool now success).2.cache = pool.cache ∨
      ∃ sender, (guard.report pool now success).2.cache =
        { sender := sender, lastUsed := now } :: pool.cache := by
  unfold CheckoutGuard.report
  split
  · exact .inl rfl
  · cases guard.sender with
    | none => exact .inl rfl
    | some sender =>
        cases success with
        | true => exact .inr ⟨sender, rfl⟩
        | false => exact .inl rfl

theorem cache_checkout (state : PoolState Conn) :
    state.checkout.now = state.now ∧ state.checkout.pool.config = state.pool.config ∧
      state.checkout.pool.cache = (ConnectionPool.popIdle state.now
        state.pool.config.idleTimeout state.pool.cache).2 := by
  unfold checkout
  cases ConnectionPool.popIdle state.now state.pool.config.idleTimeout state.pool.cache with
  | mk idle rest => cases idle <;> exact ⟨rfl, rfl, rfl⟩

theorem popIdle_sublist (now idleTimeout : Nat) (cache : List (CachedConn Conn)) :
    (ConnectionPool.popIdle now idleTimeout cache).2.Sublist cache := by
  induction cache with
  | nil => exact .slnil
  | cons conn rest inductionHypothesis =>
      unfold ConnectionPool.popIdle
      split
      · exact inductionHypothesis.cons conn
      · exact List.sublist_cons_self conn rest

end PoolState

/-- A step forgets idle connections or puts one in front that was used right now. -/
theorem cache_of_step {state next : PoolState Conn} {event : PoolEvent Conn}
    (stepped : state.step event = some next) :
    (state.now ≤ next.now ∧ next.pool.cache.Sublist state.pool.cache) ∨
      next.now = state.now ∧
        ∃ sender, next.pool.cache =
          { sender := sender, lastUsed := state.now } :: state.pool.cache := by
  have reported : ∀ (guard : CheckoutGuard Conn) (success : Bool),
      let pool := (guard.report state.pool state.now success).2
      pool.cache.Sublist state.pool.cache ∨
        ∃ sender, pool.cache =
          { sender := sender, lastUsed := state.now } :: state.pool.cache := by
    intro guard success
    rcases PoolState.cache_report guard state.pool state.now success with same | put
    · exact .inl (same ▸ .refl _)
    · exact .inr put
  cases event with
  | tick elapsed =>
      cases stepped
      exact .inl ⟨Nat.le_add_right _ _, .refl _⟩
  | checkout =>
      cases stepped
      obtain ⟨now, _, cache⟩ := state.cache_checkout
      rw [now, cache]
      exact .inl ⟨Nat.le_refl _, PoolState.popIdle_sublist _ _ _⟩
  | take index =>
      obtain ⟨call, _, taken⟩ := Option.bind_eq_some_iff.mp stepped
      obtain ⟨now, cache, _⟩ := PoolState.take_spec taken
      exact .inl ⟨now.ge, cache ▸ .refl _⟩
  | connect index result =>
      obtain ⟨call, _, connected⟩ := Option.bind_eq_some_iff.mp stepped
      obtain ⟨now, cache, _⟩ := PoolState.connect_spec connected
      exact .inl ⟨now.ge, cache ▸ .refl _⟩
  | record index success =>
      obtain ⟨guard, _, same⟩ := Option.bind_eq_some_iff.mp stepped
      cases same
      rw [CheckoutGuard.record_eq_report]
      exact (reported guard success).imp (fun kept => ⟨Nat.le_refl _, kept⟩) fun put => ⟨rfl, put⟩
  | drop index =>
      obtain ⟨guard, _, same⟩ := Option.bind_eq_some_iff.mp stepped
      cases same
      exact (reported guard true).imp (fun kept => ⟨Nat.le_refl _, kept⟩) fun put => ⟨rfl, put⟩

theorem ordered_of_step {state next : PoolState Conn} {event : PoolEvent Conn}
    (ordered : Ordered state) (stepped : state.step event = some next) : Ordered next := by
  rcases cache_of_step stepped with ⟨later, sublist⟩ | ⟨now, sender, cache⟩
  · exact ordered.sublist later sublist
  · refine ⟨?_, ?_⟩
    · rw [cache]
      exact .cons ordered.past ordered.newestFirst
    · intro conn member
      rw [cache] at member
      rw [now]
      rcases List.mem_cons.mp member with rfl | before
      · exact Nat.le_refl _
      · exact ordered.past conn before

/-! ### What a checkout leaves -/

theorem CachedConn.isExpired_mono {newer older : CachedConn Conn} {now idleTimeout : Nat}
    (before : older.lastUsed ≤ newer.lastUsed) (expired : newer.isExpired now idleTimeout = true) :
    older.isExpired now idleTimeout = true := by
  simp only [CachedConn.isExpired, gt_iff_lt, decide_eq_true_eq] at expired ⊢
  omega

theorem popIdle_of_expired {now idleTimeout : Nat} {cache : List (CachedConn Conn)}
    (expired : ∀ conn ∈ cache, conn.isExpired now idleTimeout = true) :
    ConnectionPool.popIdle now idleTimeout cache = (none, []) := by
  induction cache with
  | nil => rfl
  | cons conn rest inductionHypothesis =>
      obtain ⟨first, others⟩ := List.forall_mem_cons.mp expired
      rw [ConnectionPool.popIdle, if_pos first]
      exact inductionHypothesis others

theorem fresh_checkout_iff {state : PoolState Conn} (ordered : Ordered state) :
    state.checkout.Fresh ↔ state.Uniform := by
  obtain ⟨now, config, left⟩ := state.cache_checkout
  have newestFirst := ordered.newestFirst
  unfold PoolState.Fresh PoolState.Uniform
  rw [now, config, left]
  generalize state.pool.cache = cache at newestFirst ⊢
  generalize state.pool.config.idleTimeout = idleTimeout
  generalize state.now = now
  cases cache with
  | nil => simp [ConnectionPool.popIdle]
  | cons newest rest =>
      obtain ⟨later, _⟩ := List.pairwise_cons.mp newestFirst
      cases first : newest.isExpired now idleTimeout with
      | true =>
          have all : ∀ conn ∈ newest :: rest, conn.isExpired now idleTimeout = true := by
            intro conn member
            rcases List.mem_cons.mp member with rfl | older
            · exact first
            · exact CachedConn.isExpired_mono (later conn older) first
          rw [popIdle_of_expired all]
          simp [first]
      | false =>
          have taken : ConnectionPool.popIdle now idleTimeout (newest :: rest) =
              (some newest.sender, rest) := by
            rw [ConnectionPool.popIdle, first]
            rfl
          rw [taken]
          simp only [List.head?_cons, Option.some.injEq, forall_eq', first, Bool.false_eq_true,
            false_or]
          constructor
          · intro fresh oldest isLast
            rcases List.mem_cons.mp (List.mem_of_getLast? isLast) with rfl | behind
            · exact first
            · exact fresh oldest behind
          · intro oldestFresh conn member
            have nonempty : newest :: rest ≠ [] := List.cons_ne_nil _ _
            have oldest := oldestFresh _ (List.getLast?_eq_some_getLast nonempty)
            have older : ((newest :: rest).getLast nonempty).lastUsed ≤ conn.lastUsed :=
              newestFirst.rel_getLast_of_rel_getLast_getLast (List.mem_cons_of_mem _ member)
                (Nat.le_refl _)
            by_contra expired
            rw [CachedConn.isExpired_mono older (by simpa using expired)] at oldest
            cases oldest

/-- In every run of a new pool a checkout leaves no expired connection exactly if the
newest idle one has expired or the oldest one has not. -/
theorem expired_dropped_iff {addresses : List SocketAddr} {bounded : addresses.length < usizeBound}
    {config : PoolConfig} {proto : Text} {state next : PoolState Conn}
    (run : (poolMachine Conn).Run (.start (.withProto addresses bounded config proto)) state)
    (checked : (poolMachine Conn).step state .checkout = some next) :
    next.Fresh ↔ state.Uniform := by
  have ordered : Ordered state :=
    run.invariant (owned_start rfl).ordered fun before _ stepped => ordered_of_step before stepped
  cases checked
  exact fresh_checkout_iff ordered

/-- Two connections come back at once and expire. -/
theorem expired_dropped_of_pause :
    ∃ state next : PoolState Nat, (poolMachine Nat).Run (.start oneAddress) state ∧
      (poolMachine Nat).step state .checkout = some next ∧ state.pool.cache.length = 2 ∧
      (next.Fresh ↔ state.Uniform) := by
  let events : List (PoolEvent Nat) :=
    [.checkout, .take 0, .connect 0 (some 1), .checkout, .take 1, .connect 1 (some 2),
      .record 0 true, .record 0 true, .tick (Duration.fromSecs 31)]
  have checked : ((poolMachine Nat).execWhile (fun _ _ => True) (.start oneAddress)
      events).any (fun state => state.pool.cache.length = 2) = true := by
    decide +kernel
  obtain ⟨state, executed, ends⟩ := (Option.any_eq_true _ _).mp checked
  have run := Machine.GuardedRun.of_execWhile .refl executed
  exact ⟨state, _, run, rfl, of_decide_eq_true ends, expired_dropped_iff run rfl⟩

/-- A connection unused for 40 seconds stays behind one unused for 20 seconds. -/
theorem expired_left_behind :
    ∃ state next : PoolState Nat, (poolMachine Nat).Run (.start oneAddress) state ∧
      (poolMachine Nat).step state .checkout = some next ∧
      state.now = Duration.fromSecs 40 ∧
      next.pool.cache = [{ sender := 1, lastUsed := 0 }] ∧ ¬ next.Fresh := by
  let events : List (PoolEvent Nat) :=
    [.checkout, .take 0, .connect 0 (some 1), .checkout, .take 1, .connect 1 (some 2),
      .record 0 true, .tick (Duration.fromSecs 20), .record 0 true, .tick (Duration.fromSecs 20)]
  have checked : ((poolMachine Nat).execWhile (fun _ _ => True) (.start oneAddress)
      events).any (fun state => state.now = Duration.fromSecs 40 ∧
        state.checkout.now = Duration.fromSecs 40 ∧
        state.checkout.pool.config.idleTimeout = Duration.fromSecs 30 ∧
        state.checkout.pool.cache = [{ sender := 1, lastUsed := 0 }]) = true := by
    decide +kernel
  obtain ⟨state, executed, ends⟩ := (Option.any_eq_true _ _).mp checked
  obtain ⟨now, later, timeout, left⟩ := of_decide_eq_true ends
  have run := Machine.GuardedRun.of_execWhile .refl executed
  refine ⟨state, _, run, rfl, now, left, fun fresh => ?_⟩
  have kept := fresh _ (left ▸ List.mem_cons_self)
  rw [later, timeout] at kept
  revert kept
  decide

end Rsdns.Upstream
