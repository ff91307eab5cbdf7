import Rsdns.Upstream.Checkout

/-!
# Who owns a connection

Every connection that the factory has made is idle in the cache, held by one
guard, discarded after a failure or discarded because it expired.  A run keeps
a record of all this beside the pool, and numbers the guards.  A guard that has
reported does nothing when it is dropped, whatever has become of the pool, so
a report and the drop after it are one step.
-/

namespace Rsdns.Upstream

open Dns Plugins

variable {Conn : Type}

def PoolState.stale (state : PoolState Conn) : List (CachedConn Conn) :=
  state.pool.cache.takeWhile (CachedConn.isExpired · state.now state.pool.config.idleTimeout)

/-- The connections that were made and those that are gone; the guards handed out,
those that are live and those that have put a connection back. -/
structure Custody (Conn : Type) where
  made : List Conn
  failed : List Conn
  expired : List Conn
  issued : Nat
  holders : List Nat
  returned : List Nat

namespace Custody

def start : Custody Conn where
  made := []
  failed := []
  expired := []
  issued := 0
  holders := []
  returned := []

/-- New guards are numbered on. -/
def issue (custody : Custody Conn) (count : Nat) : Custody Conn :=
  { custody with
    issued := custody.issued + count
    holders := custody.holders ++ List.range' custody.issued count }

/-- A guard is gone, and has put so many connections into the cache. -/
def settle (custody : Custody Conn) (index puts : Nat) : Custody Conn :=
  { custody with
    holders := custody.holders.eraseIdx index
    returned := custody.returned ++
      custody.holders[index]?.toList.flatMap fun holder => List.replicate puts holder }

def note (state : PoolState Conn) (event : PoolEvent Conn) (next : PoolState Conn)
    (custody : Custody Conn) : Custody Conn :=
  let handed := next.guards.length - state.guards.length
  let puts := next.pool.cache.length - state.pool.cache.length
  match event with
  | .tick _ | .take _ => custody
  | .checkout =>
      { custody with
        expired := custody.expired ++ state.stale.map CachedConn.sender }.issue handed
  | .connect _ result => { custody with made := custody.made ++ result.toList }.issue handed
  | .record index success =>
      { custody with
        failed := custody.failed ++
          if success then []
          else (state.guards[index]?.bind CheckoutGuard.sender).toList }.settle index puts
  | .drop index => custody.settle index puts

theorem issue_zero (custody : Custody Conn) : custody.issue 0 = custody := by
  simp [issue]

end Custody

def custodyMachine (Conn : Type) : Machine (PoolState Conn × Custody Conn) (PoolEvent Conn) :=
  (poolMachine Conn).recording Custody.note

/-- The factory makes no connection twice. -/
def MakesNew (recorded : PoolState Conn × Custody Conn) : PoolEvent Conn → Prop
  | .connect _ (some sender) => sender ∉ recorded.2.made
  | _ => True

instance [DecidableEq Conn] (recorded : PoolState Conn × Custody Conn)
    (event : PoolEvent Conn) : Decidable (MakesNew recorded event) :=
  match event with
  | .connect _ (some sender) => inferInstanceAs (Decidable (sender ∉ recorded.2.made))
  | .connect _ none | .tick _ | .take _ | .checkout | .record _ _ | .drop _ =>
      inferInstanceAs (Decidable True)

/-- The places where connections are: the cache and the live guards. -/
def PoolState.places (state : PoolState Conn) : List Conn :=
  state.pool.cache.map CachedConn.sender ++ state.guards.filterMap CheckoutGuard.sender

namespace ConnectionPool

theorem popIdle_eq (now idleTimeout : Nat) (cache : List (CachedConn Conn)) :
    cache = cache.takeWhile (CachedConn.isExpired · now idleTimeout) ++
        cache.dropWhile (CachedConn.isExpired · now idleTimeout) ∧
      popIdle now idleTimeout cache =
        match cache.dropWhile (CachedConn.isExpired · now idleTimeout) with
        | [] => (none, [])
        | conn :: rest => (some conn.sender, rest) := by
  refine ⟨List.takeWhile_append_dropWhile.symm, ?_⟩
  induction cache with
  | nil => rfl
  | cons conn rest inductionHypothesis =>
      rw [popIdle, List.dropWhile_cons]
      cases conn.isExpired now idleTimeout with
      | true => exact inductionHypothesis
      | false => rfl

end ConnectionPool

namespace CheckoutGuard

theorem report_reported (guard : CheckoutGuard Conn) (pool later : ConnectionPool Conn)
    (now dropped : Nat) (success again : Bool) :
    (guard.report pool now success).1.report later dropped again =
      ((guard.report pool now success).1, later) := by
  have reported : (guard.report pool now success).1.reported = true := by
    unfold report
    split
    · assumption
    · split <;> rfl
  rw [report, if_pos reported]

theorem record_eq_report (guard : CheckoutGuard Conn) (pool : ConnectionPool Conn) (now : Nat)
    (success : Bool) : guard.record pool now success = (guard.report pool now success).2 :=
  congrArg Prod.snd (report_reported guard pool _ now now success true)

end CheckoutGuard

/-- All that one step can do to the connections and to their record. -/
inductive Transfer (state : PoolState Conn) (custody : Custody Conn) :
    PoolState Conn → Custody Conn → Prop where
  | rests (next) (later : state.now ≤ next.now) (cache : next.pool.cache = state.pool.cache)
      (guards : next.guards = state.guards) :
      Transfer state custody next custody
  | empties (next) (now : next.now = state.now) (split : state.pool.cache = state.stale)
      (cache : next.pool.cache = []) (guards : next.guards = state.guards) :
      Transfer state custody next
        { custody with expired := custody.expired ++ state.stale.map CachedConn.sender }
  | reuses (next conn) (now : next.now = state.now)
      (split : state.pool.cache = state.stale ++ conn :: next.pool.cache)
      (guards : next.guards =
        state.guards ++ [{ sender := some conn.sender, reported := false }]) :
      Transfer state custody next
        ({ custody with
          expired := custody.expired ++ state.stale.map CachedConn.sender }.issue 1)
  | makes (next sender) (now : next.now = state.now) (new : sender ∉ custody.made)
      (cache : next.pool.cache = state.pool.cache)
      (guards : next.guards = state.guards ++ [{ sender := some sender, reported := false }]) :
      Transfer state custody next ({ custody with made := custody.made ++ [sender] }.issue 1)
  | returns (next index sender) (now : next.now = state.now)
      (found : state.guards[index]? = some { sender := some sender, reported := false })
      (cache : next.pool.cache = { sender := sender, lastUsed := state.now } :: state.pool.cache)
      (guards : next.guards = state.guards.eraseIdx index) :
      Transfer state custody next (custody.settle index 1)
  | discards (next index sender) (now : next.now = state.now)
      (found : state.guards[index]? = some { sender := some sender, reported := false })
      (cache : next.pool.cache = state.pool.cache)
      (guards : next.guards = state.guards.eraseIdx index) :
      Transfer state custody next
        ({ custody with failed := custody.failed ++ [sender] }.settle index 0)

/-- No live guard has reported. -/
def AllHolding (state : PoolState Conn) : Prop :=
  ∀ guard ∈ state.guards, ∃ sender, guard = { sender := some sender, reported := false }

theorem transfer_checkout (state : PoolState Conn) (custody : Custody Conn) :
    Transfer state custody state.checkout
      (custody.note state .checkout state.checkout) := by
  obtain ⟨split, popped⟩ :=
    ConnectionPool.popIdle_eq state.now state.pool.config.idleTimeout state.pool.cache
  cases kept : state.pool.cache.dropWhile
      (CachedConn.isExpired · state.now state.pool.config.idleTimeout) with
  | nil =>
      rw [kept] at split popped
      have emptied : state.checkout = { state with
          pool := { state.pool with cache := [] }
          calls := state.calls ++
            [{ phase := .attempting (max state.pool.addresses.length 1), failed := [] }] } := by
        simp only [PoolState.checkout, popped]
      rw [emptied]
      simp only [Custody.note, Nat.sub_self, Custody.issue_zero]
      exact .empties _ rfl (split.trans (List.append_nil _)) rfl rfl
  | cons conn rest =>
      rw [kept] at split popped
      have reused : state.checkout = { state with
          pool := { state.pool with cache := rest }
          calls := state.calls ++ [{ phase := .handedOut, failed := [] }]
          guards := state.guards ++ [{ sender := some conn.sender, reported := false }] } := by
        simp only [PoolState.checkout, popped]
      rw [reused]
      simp only [Custody.note, List.length_append, List.length_singleton, Nat.add_sub_cancel_left]
      exact .reuses _ conn rfl split rfl

theorem transfer_take {state next : PoolState Conn} {index : Nat} {call : Call}
    (custody : Custody Conn) (taken : state.take index call = some next) :
    Transfer state custody next custody := by
  obtain ⟨now, cache, guards⟩ := PoolState.take_spec taken
  exact .rests _ now.ge cache guards

theorem transfer_connect {state next : PoolState Conn} {index : Nat} {call : Call}
    {result : Option Conn} {custody : Custody Conn}
    (new : MakesNew (state, custody) (.connect index result))
    (connected : state.connect index call result = some next) :
    Transfer state custody next (custody.note state (.connect index result) next) := by
  obtain ⟨now, cache, guards⟩ := PoolState.connect_spec connected
  cases result with
  | some sender =>
      simp only [Custody.note, guards, List.length_append, Option.toList_some, List.length_map,
        List.length_singleton, Nat.add_sub_cancel_left]
      exact .makes _ sender now new cache guards
  | none =>
      rw [Option.toList_none, List.map_nil, List.append_nil] at guards
      simp only [Custody.note, guards, Nat.sub_self, Custody.issue_zero, Option.toList_none,
        List.append_nil]
      exact .rests _ now.ge cache guards

theorem transfer_of_step {recorded after : PoolState Conn × Custody Conn}
    {event : PoolEvent Conn} (holding : AllHolding recorded.1)
    (new : MakesNew recorded event)
    (stepped : (custodyMachine Conn).step recorded event = some after) :
    Transfer recorded.1 recorded.2 after.1 after.2 := by
  obtain ⟨state, custody⟩ := recorded
  obtain ⟨next, noted⟩ := after
  obtain ⟨moved, same⟩ := Machine.recording_step_eq_some.mp stepped
  dsimp only at moved same holding
  subst same
  cases event with
  | tick elapsed =>
      cases moved
      exact .rests _ (Nat.le_add_right _ _) rfl rfl
  | checkout =>
      cases moved
      exact transfer_checkout state custody
  | take index =>
      obtain ⟨call, _, taken⟩ := Option.bind_eq_some_iff.mp moved
      exact transfer_take custody taken
  | connect index result =>
      obtain ⟨call, _, connected⟩ := Option.bind_eq_some_iff.mp moved
      exact transfer_connect new connected
  | record index success =>
      obtain ⟨guard, found, recorded⟩ := Option.bind_eq_some_iff.mp moved
      obtain ⟨sender, held⟩ := holding guard (List.mem_of_getElem? found)
      subst held
      cases recorded
      rw [CheckoutGuard.record_eq_report]
      cases success with
      | true =>
          simp only [Custody.note, CheckoutGuard.report, ConnectionPool.release, if_true,
            Bool.false_eq_true, if_false, List.append_nil, List.length_cons,
            Nat.add_sub_cancel_left]
          exact .returns _ index sender rfl found rfl rfl
      | false =>
          simp only [Custody.note, CheckoutGuard.report, ConnectionPool.release,
            Bool.false_eq_true, if_false, found, Option.bind_some, Option.toList_some,
            Nat.sub_self]
          exact .discards _ index sender rfl found rfl rfl
  | drop index =>
      obtain ⟨guard, found, dropped⟩ := Option.bind_eq_some_iff.mp moved
      obtain ⟨sender, held⟩ := holding guard (List.mem_of_getElem? found)
      subst held
      cases dropped
      simp only [Custody.note, CheckoutGuard.drop, CheckoutGuard.report, ConnectionPool.release,
        if_true, Bool.false_eq_true, if_false, List.length_cons, Nat.add_sub_cancel_left]
      exact .returns _ index sender rfl found rfl rfl

/-! ### What every step keeps -/

theorem allHolding_step {state next : PoolState Conn} {custody noted : Custody Conn}
    (holding : AllHolding state) (transfer : Transfer state custody next noted) :
    AllHolding next := by
  have handedOut : ∀ {sender : Conn},
      next.guards = state.guards ++ [{ sender := some sender, reported := false }] →
      AllHolding next := by
    intro sender guards guard member
    rw [guards] at member
    rcases List.mem_append.mp member with before | new
    · exact holding guard before
    · exact ⟨sender, List.mem_singleton.mp new⟩
  have erased : ∀ {index : Nat}, next.guards = state.guards.eraseIdx index → AllHolding next := by
    intro index guards guard member
    rw [guards] at member
    exact holding guard (List.mem_of_mem_eraseIdx member)
  cases transfer with
  | rests later cache guards => exact fun guard member => holding guard (guards ▸ member)
  | empties now split cache guards => exact fun guard member => holding guard (guards ▸ member)
  | reuses conn now split guards => exact handedOut guards
  | makes sender now new cache guards => exact handedOut guards
  | returns index sender now found cache guards => exact erased guards
  | discards index sender now found cache guards => exact erased guards

/-- Every connection that was made, and no other, is in one place or gone. -/
structure Accounted (state : PoolState Conn) (custody : Custody Conn) : Prop where
  distinct : custody.made.Nodup
  balanced : (state.places ++ custody.failed ++ custody.expired).Perm custody.made

theorem filterMap_eraseIdx_perm {guards : List (CheckoutGuard Conn)} {index : Nat} {sender : Conn}
    (found : guards[index]? = some { sender := some sender, reported := false }) :
    (guards.filterMap CheckoutGuard.sender).Perm
      (sender :: (guards.eraseIdx index).filterMap CheckoutGuard.sender) := by
  obtain ⟨within, same⟩ := List.getElem?_eq_some_iff.mp found
  have moved := (List.getElem_cons_eraseIdx_perm within).symm.filterMap CheckoutGuard.sender
  rwa [same] at moved

theorem accounted_step {state next : PoolState Conn} {custody noted : Custody Conn}
    (accounted : Accounted state custody) (transfer : Transfer state custody next noted) :
    Accounted next noted := by
  classical
  obtain ⟨distinct, balanced⟩ := accounted
  rw [PoolState.places, List.perm_iff_count] at balanced
  simp only [List.count_append] at balanced
  cases transfer with
  | rests later cache guards =>
      refine ⟨distinct, List.perm_iff_count.mpr fun conn => ?_⟩
      simp only [PoolState.places, cache, guards, List.count_append]
      exact balanced conn
  | empties now split cache guards =>
      refine ⟨distinct, List.perm_iff_count.mpr fun conn => ?_⟩
      have before := balanced conn
      rw [split] at before
      simp only [PoolState.places, cache, guards, List.map_nil, List.count_append, List.count_nil]
      omega
  | reuses conn now split guards =>
      refine ⟨distinct, List.perm_iff_count.mpr fun other => ?_⟩
      have before := balanced other
      rw [split, List.map_append, List.map_cons] at before
      simp only [PoolState.places, Custody.issue, guards, List.filterMap_append,
        List.filterMap_cons, List.filterMap_nil, List.count_append, List.count_cons,
        List.count_nil] at before ⊢
      omega
  | makes sender now new cache guards =>
      refine ⟨?_, List.perm_iff_count.mpr fun other => ?_⟩
      · have apart : List.Disjoint custody.made [sender] :=
          List.disjoint_singleton.mpr new
        exact distinct.append (List.nodup_singleton sender) apart
      · have before := balanced other
        simp only [PoolState.places, Custody.issue, cache, guards, List.filterMap_append,
          List.filterMap_cons, List.filterMap_nil, List.count_append]
        omega
  | returns index sender now found cache guards =>
      refine ⟨distinct, List.perm_iff_count.mpr fun other => ?_⟩
      have before := balanced other
      rw [(filterMap_eraseIdx_perm found).count_eq] at before
      simp only [PoolState.places, Custody.settle, cache, guards, List.map_cons,
        List.count_append, List.count_cons] at before ⊢
      omega
  | discards index sender now found cache guards =>
      refine ⟨distinct, List.perm_iff_count.mpr fun other => ?_⟩
      have before := balanced other
      rw [(filterMap_eraseIdx_perm found).count_eq] at before
      simp only [PoolState.places, Custody.settle, cache, guards, List.count_append,
        List.count_cons, List.count_nil] at before ⊢
      omega

/-- The guards have numbers of their own, and each has returned at most once. -/
structure Numbered (state : PoolState Conn) (custody : Custody Conn) : Prop where
  live : custody.holders.length = state.guards.length
  distinct : (custody.holders ++ custody.returned).Nodup
  issued : ∀ holder ∈ custody.holders ++ custody.returned, holder < custody.issued

theorem numbered_issue {state next : PoolState Conn} {custody : Custody Conn}
    (numbered : Numbered state custody)
    (handed : next.guards.length = state.guards.length + 1) :
    Numbered next (custody.issue 1) := by
  have apart : custody.issued ∉ custody.holders ++ custody.returned :=
    fun member => absurd (numbered.issued _ member) (lt_irrefl _)
  have moved : (custody.holders ++ [custody.issued] ++ custody.returned).Perm
      (custody.issued :: (custody.holders ++ custody.returned)) := by
    rw [List.append_assoc]
    exact List.perm_middle
  refine ⟨?_, ?_, ?_⟩
  · rw [handed, ← numbered.live]
    exact List.length_append
  · exact moved.nodup_iff.mpr (List.nodup_cons.mpr ⟨apart, numbered.distinct⟩)
  · intro holder member
    rcases List.mem_cons.mp (moved.subset member) with rfl | before
    · exact Nat.lt_succ_self _
    · exact Nat.lt_succ_of_lt (numbered.issued holder before)

theorem numbered_settle {state next : PoolState Conn} {custody : Custody Conn} {index puts : Nat}
    (numbered : Numbered state custody) (within : index < state.guards.length)
    (guards : next.guards = state.guards.eraseIdx index) (once : puts ≤ 1) :
    Numbered next (custody.settle index puts) := by
  have bound : index < custody.holders.length := numbered.live ▸ within
  have settled : (custody.holders.eraseIdx index ++ (custody.returned ++
      List.replicate puts custody.holders[index])).Subperm
        (custody.holders ++ custody.returned) := by
    rcases Nat.le_one_iff_eq_zero_or_eq_one.mp once with rfl | rfl
    · rw [List.replicate_zero, List.append_nil]
      exact ((List.eraseIdx_sublist _ _).append_right _).subperm
    · have moved := List.getElem_cons_eraseIdx_perm bound
      rw [List.replicate_one, ← List.append_assoc]
      exact ((List.perm_append_singleton _ _).trans (moved.append_right _)).subperm
  have same : custody.settle index puts = { custody with
      holders := custody.holders.eraseIdx index
      returned := custody.returned ++ List.replicate puts custody.holders[index] } := by
    simp [Custody.settle, bound]
  rw [same]
  refine ⟨?_, ?_, ?_⟩
  · rw [guards, List.length_eraseIdx_of_lt bound, List.length_eraseIdx_of_lt within,
      numbered.live]
  · obtain ⟨kept, permuted, sublist⟩ := settled
    exact permuted.nodup_iff.mp (numbered.distinct.sublist sublist)
  · exact fun holder member => numbered.issued holder (settled.subset member)

theorem numbered_step {state next : PoolState Conn} {custody noted : Custody Conn}
    (numbered : Numbered state custody) (transfer : Transfer state custody next noted) :
    Numbered next noted := by
  have unchanged : next.guards = state.guards → Numbered next custody := by
    intro guards
    refine ⟨?_, numbered.distinct, numbered.issued⟩
    rw [guards]
    exact numbered.live
  cases transfer with
  | rests later cache guards => exact unchanged guards
  | empties now split cache guards =>
      obtain ⟨live, distinct, issued⟩ := unchanged guards
      exact ⟨live, distinct, issued⟩
  | reuses conn now split guards =>
      refine numbered_issue ⟨numbered.live, numbered.distinct, numbered.issued⟩ ?_
      rw [guards, List.length_append, List.length_singleton]
  | makes sender now new cache guards =>
      refine numbered_issue ⟨numbered.live, numbered.distinct, numbered.issued⟩ ?_
      rw [guards, List.length_append, List.length_singleton]
  | returns index sender now found cache guards =>
      exact numbered_settle numbered (List.getElem?_eq_some_iff.mp found).1 guards le_rfl
  | discards index sender now found cache guards =>
      exact numbered_settle ⟨numbered.live, numbered.distinct, numbered.issued⟩
        (List.getElem?_eq_some_iff.mp found).1 guards (Nat.zero_le 1)

/-- The cache is ordered by the last use, newest first. -/
def NewestFirst (cache : List (CachedConn Conn)) : Prop :=
  cache.Pairwise fun newer older => older.lastUsed ≤ newer.lastUsed

structure Ordered (state : PoolState Conn) : Prop where
  newestFirst : NewestFirst state.pool.cache
  past : ∀ conn ∈ state.pool.cache, conn.lastUsed ≤ state.now

theorem Ordered.sublist {state next : PoolState Conn} (ordered : Ordered state)
    (later : state.now ≤ next.now) (sublist : next.pool.cache.Sublist state.pool.cache) :
    Ordered next := by
  refine ⟨List.Pairwise.sublist sublist ordered.newestFirst, ?_⟩
  intro conn member
  exact (ordered.past conn (sublist.subset member)).trans later

theorem ordered_step {state next : PoolState Conn} {custody noted : Custody Conn}
    (ordered : Ordered state) (transfer : Transfer state custody next noted) :
    Ordered next := by
  cases transfer with
  | rests later cache guards => exact ordered.sublist later (cache ▸ .refl _)
  | empties now split cache guards =>
      exact ordered.sublist now.ge (cache ▸ List.nil_sublist _)
  | reuses conn now split guards =>
      apply ordered.sublist now.ge
      rw [split]
      exact (List.sublist_cons_self _ _).trans (List.sublist_append_right _ _)
  | makes sender now new cache guards => exact ordered.sublist now.ge (cache ▸ .refl _)
  | returns index sender now found cache guards =>
      refine ⟨?_, ?_⟩
      · rw [cache]
        exact .cons ordered.past ordered.newestFirst
      · intro conn member
        rw [cache] at member
        rw [now]
        rcases List.mem_cons.mp member with rfl | before
        · exact le_rfl
        · exact ordered.past conn before
  | discards index sender now found cache guards => exact ordered.sublist now.ge (cache ▸ .refl _)

/-- What holds of a pool and its record in every state of a run. -/
structure Owned (recorded : PoolState Conn × Custody Conn) : Prop where
  holding : AllHolding recorded.1
  accounted : Accounted recorded.1 recorded.2
  numbered : Numbered recorded.1 recorded.2
  ordered : Ordered recorded.1

theorem owned_start {pool : ConnectionPool Conn} (idle : pool.cache = []) :
    Owned (PoolState.start pool, Custody.start) where
  holding _ member := absurd member List.not_mem_nil
  accounted := by
    refine ⟨.nil, ?_⟩
    rw [PoolState.places, PoolState.start, idle]
    exact .nil
  numbered := ⟨rfl, .nil, fun _ member => absurd member List.not_mem_nil⟩
  ordered := by
    unfold PoolState.start
    refine ⟨?_, ?_⟩
    · rw [idle]
      exact .nil
    · rw [idle]
      exact fun _ member => absurd member List.not_mem_nil

theorem owned_step {recorded next : PoolState Conn × Custody Conn} {event : PoolEvent Conn}
    (owned : Owned recorded) (new : MakesNew recorded event)
    (stepped : (custodyMachine Conn).step recorded event = some next) : Owned next := by
  have transfer := transfer_of_step owned.holding new stepped
  exact ⟨allHolding_step owned.holding transfer, accounted_step owned.accounted transfer,
    numbered_step owned.numbered transfer, ordered_step owned.ordered transfer⟩

/-- In every run of a new pool a connection is in at most one place, a guard puts its
connection back at most once, a connection reported failed or found expired is neither
cached nor held, and the cache is ordered by the last use. -/
theorem connections_linear {addresses : List SocketAddr} {bounded : addresses.length < usizeBound}
    {config : PoolConfig} {proto : Text} {state : PoolState Conn} {custody : Custody Conn}
    (run : (custodyMachine Conn).GuardedRun MakesNew
      (.start (.withProto addresses bounded config proto), .start) (state, custody)) :
    state.places.Nodup ∧ custody.returned.Nodup ∧
      (∀ sender ∈ custody.failed ++ custody.expired, sender ∉ state.places) ∧
      NewestFirst state.pool.cache := by
  have owned : Owned (state, custody) := run.invariant (owned_start rfl) owned_step
  have apart := owned.accounted.balanced.nodup_iff.mpr owned.accounted.distinct
  rw [List.append_assoc] at apart
  refine ⟨apart.of_append_left, owned.numbered.distinct.of_append_right, ?_,
    owned.ordered.newestFirst⟩
  intro sender gone placed
  exact List.disjoint_of_nodup_append apart placed gone

def oneAddress : ConnectionPool Nat :=
  .withProto [⟨.v4 0x0A000001#32, 53⟩] (by decide) .default "tcp".toList

/-- Two connections come back; one fails when it is used again, the other expires. -/
theorem reused_connections_linear :
    ∃ state custody, (custodyMachine Nat).GuardedRun MakesNew (.start oneAddress, .start)
        (state, custody) ∧
      custody.failed = [2] ∧ custody.expired = [1] ∧ custody.returned = [0, 1] ∧
      state.places.Nodup ∧ custody.returned.Nodup ∧
      (∀ sender ∈ custody.failed ++ custody.expired, sender ∉ state.places) ∧
      NewestFirst state.pool.cache := by
  let events : List (PoolEvent Nat) :=
    [.checkout, .take 0, .connect 0 (some 1), .checkout, .take 1, .connect 1 (some 2),
      .record 0 true, .tick (Duration.fromSecs 10), .drop 0, .checkout, .record 0 false,
      .tick (Duration.fromSecs 30), .checkout, .take 3, .connect 3 (some 3)]
  have checked : ((custodyMachine Nat).execWhile MakesNew (.start oneAddress, .start)
      events).any (fun recorded => recorded.2.failed = [2] ∧ recorded.2.expired = [1] ∧
        recorded.2.returned = [0, 1]) = true := by
    decide +kernel
  obtain ⟨⟨state, custody⟩, executed, ends⟩ := (Option.any_eq_true _ _).mp checked
  obtain ⟨failed, expired, returned⟩ := of_decide_eq_true ends
  have run := Machine.GuardedRun.of_execWhile .refl executed
  exact ⟨state, custody, run, failed, expired, returned, connections_linear run⟩

end Rsdns.Upstream
