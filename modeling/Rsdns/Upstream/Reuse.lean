import Rsdns.Upstream.Idle

/-!
# Connections used again

A query holds one connection and reports how it went, unless it is dropped before it
ends: the losers of a race are.  A dropped query puts its connection back too.
-/

namespace Rsdns.Upstream

open Plugins

variable {Conn Response Error : Type}

/-- How the exchange of a query ends. -/
inductive Ending (Response Error : Type) where
  | answered (message : Response)
  | failed (error : Error)
  | timedOut
  | cancelled
  deriving DecidableEq

inductive ClientError (Error : Type) where
  | notConnected
  | timedOut
  | other (error : Error)
  deriving DecidableEq

/-- What a query returns; one that is cancelled never does. -/
def Ending.result : Ending Response Error → Option (Except (ClientError Error) Response)
  | .answered message => some (.ok message)
  | .failed error => some (.error (.other error))
  | .timedOut => some (.error .timedOut)
  | .cancelled => none

/-- The connection goes back. -/
def Ending.Returns : Ending Response Error → Prop
  | .answered _ => True
  | .failed _ => False
  | .timedOut => False
  | .cancelled => True

instance (ending : Ending Response Error) : Decidable ending.Returns :=
  match ending with
  | .answered _ | .cancelled => inferInstanceAs (Decidable True)
  | .failed _ | .timedOut => inferInstanceAs (Decidable False)

namespace UpstreamClient

/-- What is left to do when the checkout has given a connection or none. -/
def query (checkedOut : Option (CheckoutGuard Conn)) (pool : ConnectionPool Conn) (now : Nat)
    (ending : Ending Response Error) :
    Option (Except (ClientError Error) Response) × ConnectionPool Conn :=
  match checkedOut with
  | none => (some (.error .notConnected), pool)
  | some guard =>
      match ending.result with
      | some (.ok message) => (some (.ok message), guard.record pool now true)
      | some (.error error) => (some (.error error), guard.record pool now false)
      | none => (none, guard.drop pool now)

end UpstreamClient

/-- The steps of all queries of a pool; a checkout without a guard ends its query. -/
inductive ClientEvent (Conn Response Error : Type) where
  | tick (elapsed : Nat)
  | checkout
  | take (index : Nat)
  | connect (index : Nat) (result : Option Conn)
  | finish (index : Nat) (ending : Ending Response Error)

/-- What the pool sees of it. -/
def ClientEvent.onPool : ClientEvent Conn Response Error → PoolEvent Conn
  | .tick elapsed => .tick elapsed
  | .checkout => .checkout
  | .take index => .take index
  | .connect index result => .connect index result
  | .finish index (.answered _) => .record index true
  | .finish index (.failed _) => .record index false
  | .finish index .timedOut => .record index false
  | .finish index .cancelled => .drop index

theorem step_finish (state : PoolState Conn) (index : Nat) (ending : Ending Response Error) :
    state.step (ClientEvent.finish index ending).onPool =
      (state.guards[index]?).map fun guard =>
        { state with
          pool := (UpstreamClient.query (some guard) state.pool state.now ending).2
          guards := state.guards.eraseIdx index } := by
  cases ending <;> cases found : state.guards[index]? <;>
    simp [ClientEvent.onPool, PoolState.step, UpstreamClient.query, Ending.result, found]

/-- The connections handed out, and those whose queries have ended and how. -/
structure Usage (Conn Response Error : Type) where
  handed : List Conn
  uses : List (Conn × Ending Response Error)

namespace Usage

def start : Usage Conn Response Error where
  handed := []
  uses := []

def note (recorded : PoolState Conn × Custody Conn) (event : ClientEvent Conn Response Error)
    (next : PoolState Conn × Custody Conn) (usage : Usage Conn Response Error) :
    Usage Conn Response Error :=
  match event with
  | .finish index ending =>
      { usage with
        uses := usage.uses ++
          (recorded.1.guards[index]?.bind CheckoutGuard.sender).toList.map (·, ending) }
  | _ =>
      { usage with
        handed := usage.handed ++
          (next.1.guards.drop recorded.1.guards.length).filterMap CheckoutGuard.sender }

end Usage

/-- The queries of a pool, and the record of its connections and their uses. -/
def clientMachine (Conn Response Error : Type) :
    Machine ((PoolState Conn × Custody Conn) × Usage Conn Response Error)
      (ClientEvent Conn Response Error) :=
  ((custodyMachine Conn).translate ClientEvent.onPool).recording Usage.note

/-- The factory makes no connection twice. -/
def ConnectsNew (recorded : (PoolState Conn × Custody Conn) × Usage Conn Response Error)
    (event : ClientEvent Conn Response Error) : Prop :=
  MakesNew recorded.1 event.onPool

instance [DecidableEq Conn]
    (recorded : (PoolState Conn × Custody Conn) × Usage Conn Response Error)
    (event : ClientEvent Conn Response Error) : Decidable (ConnectsNew recorded event) :=
  inferInstanceAs (Decidable (MakesNew recorded.1 event.onPool))

/-- The last use of a connection put it back. -/
def LastReturned (uses : List (Conn × Ending Response Error)) (conn : Conn) : Prop :=
  ∃ earlier ending later, uses = earlier ++ (conn, ending) :: later ∧
    (∀ use ∈ later, use.1 ≠ conn) ∧ ending.Returns

/-! ### The record of the uses -/

/-- The guard of a connection that has just been handed out. -/
def CheckoutGuard.holding (sender : Conn) : CheckoutGuard Conn :=
  { sender := some sender, reported := false }

theorem filterMap_sender_holding (senders : List Conn) :
    (senders.map CheckoutGuard.holding).filterMap CheckoutGuard.sender = senders := by
  rw [List.filterMap_map]
  exact List.filterMap_some

/-- A step that ends no query forgets idle connections and hands some out. -/
theorem hands_out {state next : PoolState Conn} {event : ClientEvent Conn Response Error}
    (unfinished : ∀ index ending, event ≠ .finish index ending)
    (stepped : state.step event.onPool = some next) :
    next.pool.cache.Sublist state.pool.cache ∧
      ∃ senders : List Conn, next.guards = state.guards ++ senders.map CheckoutGuard.holding := by
  cases event with
  | finish index ending => exact absurd rfl (unfinished index ending)
  | tick elapsed =>
      cases stepped
      exact ⟨.refl _, [], (List.append_nil _).symm⟩
  | checkout =>
      cases stepped
      refine ⟨?_, ?_⟩
      · rw [state.cache_checkout.2.2]
        exact PoolState.popIdle_sublist _ _ _
      · unfold PoolState.checkout
        cases ConnectionPool.popIdle state.now state.pool.config.idleTimeout
            state.pool.cache with
        | mk idle rest =>
            cases idle with
            | none => exact ⟨[], (List.append_nil _).symm⟩
            | some sender => exact ⟨[sender], rfl⟩
  | take index =>
      obtain ⟨call, _, taken⟩ := Option.bind_eq_some_iff.mp stepped
      obtain ⟨_, cache, guards⟩ := PoolState.take_spec taken
      exact ⟨cache ▸ .refl _, [], guards.trans (List.append_nil _).symm⟩
  | connect index result =>
      obtain ⟨call, _, connected⟩ := Option.bind_eq_some_iff.mp stepped
      obtain ⟨_, cache, guards⟩ := PoolState.connect_spec connected
      exact ⟨cache ▸ .refl _, result.toList, guards⟩

theorem finish_step {state next : PoolState Conn} (holding : AllHolding state) {index : Nat}
    {ending : Ending Response Error}
    (stepped : state.step (ClientEvent.finish index ending).onPool = some next) :
    ∃ sender, state.guards[index]? = some { sender := some sender, reported := false } ∧
      next.guards = state.guards.eraseIdx index ∧
      next.pool.cache =
        if ending.Returns then { sender := sender, lastUsed := state.now } :: state.pool.cache
        else state.pool.cache := by
  rw [step_finish] at stepped
  obtain ⟨guard, found, same⟩ := Option.map_eq_some_iff.mp stepped
  obtain ⟨sender, held⟩ := holding guard (List.mem_of_getElem? found)
  subst held
  cases same
  refine ⟨sender, found, rfl, ?_⟩
  cases ending with
  | answered message =>
      simp [UpstreamClient.query, Ending.result, Ending.Returns, CheckoutGuard.record_eq_report,
        CheckoutGuard.report, ConnectionPool.release]
  | failed error =>
      simp [UpstreamClient.query, Ending.result, Ending.Returns, CheckoutGuard.record_eq_report,
        CheckoutGuard.report, ConnectionPool.release]
  | timedOut =>
      simp [UpstreamClient.query, Ending.result, Ending.Returns, CheckoutGuard.record_eq_report,
        CheckoutGuard.report, ConnectionPool.release]
  | cancelled =>
      simp [UpstreamClient.query, Ending.result, Ending.Returns, CheckoutGuard.drop,
        CheckoutGuard.report, ConnectionPool.release]

/-- A connection is handed out once for every use that has ended and every guard that holds
it, the failed uses are those of the connections given up, and an idle one came back. -/
structure Used (recorded : (PoolState Conn × Custody Conn) × Usage Conn Response Error) :
    Prop where
  owned : Owned recorded.1
  handed : recorded.2.handed.Perm
    (recorded.2.uses.map Prod.fst ++ recorded.1.1.guards.filterMap CheckoutGuard.sender)
  failed : recorded.1.2.failed =
    (recorded.2.uses.filter fun use => ¬ use.2.Returns).map Prod.fst
  returned : ∀ conn ∈ recorded.1.1.pool.cache, LastReturned recorded.2.uses conn.sender

theorem used_start {pool : ConnectionPool Conn} (idle : pool.cache = []) :
    Used (((PoolState.start pool, Custody.start), Usage.start) :
      (PoolState Conn × Custody Conn) × Usage Conn Response Error) where
  owned := owned_start idle
  handed := .nil
  failed := rfl
  returned conn member := by
    rw [PoolState.start, idle] at member
    cases member

theorem lastReturned_append {uses : List (Conn × Ending Response Error)} {conn other : Conn}
    (returned : LastReturned uses conn) (different : other ≠ conn)
    (ending : Ending Response Error) : LastReturned (uses ++ [(other, ending)]) conn := by
  obtain ⟨earlier, last, later, rfl, after, returns⟩ := returned
  refine ⟨earlier, last, later ++ [(other, ending)], by simp, fun use member => ?_, returns⟩
  rcases List.mem_append.mp member with before | isLast
  · exact after use before
  · rw [List.mem_singleton.mp isLast]
    exact different

theorem sender_ne_of_held {state : PoolState Conn} {custody : Custody Conn}
    (accounted : Accounted state custody) {index : Nat} {sender : Conn}
    (found : state.guards[index]? = some { sender := some sender, reported := false })
    {conn : CachedConn Conn} (member : conn ∈ state.pool.cache) : sender ≠ conn.sender := by
  have apart := accounted.balanced.nodup_iff.mpr accounted.distinct
  have places : state.places.Nodup := apart.of_append_left.of_append_left
  have held : sender ∈ state.guards.filterMap CheckoutGuard.sender :=
    List.mem_filterMap.mpr ⟨_, List.mem_of_getElem? found, rfl⟩
  rintro rfl
  exact List.disjoint_of_nodup_append places (List.mem_map_of_mem member) held

theorem used_hands_out {recorded next : (PoolState Conn × Custody Conn) × Usage Conn Response Error}
    {event : ClientEvent Conn Response Error} (used : Used recorded) (owned : Owned next.1)
    (unfinished : ∀ index ending, event ≠ .finish index ending)
    (stepped : (custodyMachine Conn).step recorded.1 event.onPool = some next.1)
    (noted : next.2 = Usage.note recorded.1 event next.1 recorded.2) : Used next := by
  obtain ⟨moved, kept⟩ := Machine.recording_step_eq_some.mp stepped
  obtain ⟨sublist, senders, guards⟩ := hands_out unfinished moved
  have uses : next.2.uses = recorded.2.uses := by
    rw [noted]
    cases event with
    | finish index ending => exact absurd rfl (unfinished index ending)
    | _ => rfl
  have failed : next.1.2.failed = recorded.1.2.failed := by
    rw [kept]
    cases event with
    | finish index ending => exact absurd rfl (unfinished index ending)
    | _ => rfl
  have new : (next.1.1.guards.drop recorded.1.1.guards.length).filterMap CheckoutGuard.sender =
      senders := by
    rw [guards, List.drop_left, filterMap_sender_holding]
  have handed : next.2.handed = recorded.2.handed ++ senders := by
    rw [noted, ← new]
    cases event with
    | finish index ending => exact absurd rfl (unfinished index ending)
    | _ => rfl
  refine ⟨owned, ?_, ?_, ?_⟩
  · rw [handed, uses, guards, List.filterMap_append, filterMap_sender_holding,
      ← List.append_assoc]
    exact used.handed.append_right senders
  · rw [failed, uses]
    exact used.failed
  · intro conn member
    rw [uses]
    exact used.returned conn (sublist.subset member)

theorem used_finish {recorded next : (PoolState Conn × Custody Conn) × Usage Conn Response Error}
    {index : Nat} {ending : Ending Response Error} (used : Used recorded) (owned : Owned next.1)
    (stepped : (custodyMachine Conn).step recorded.1 (ClientEvent.finish index ending).onPool =
      some next.1)
    (noted : next.2 = Usage.note recorded.1 (.finish index ending) next.1 recorded.2) :
    Used next := by
  obtain ⟨moved, kept⟩ := Machine.recording_step_eq_some.mp stepped
  obtain ⟨sender, found, guards, cache⟩ := finish_step used.owned.holding moved
  have handed : next.2.handed = recorded.2.handed := by
    rw [noted]
    rfl
  have uses : next.2.uses = recorded.2.uses ++ [(sender, ending)] := by
    rw [noted, Usage.note, found]
    rfl
  have failed : next.1.2.failed =
      recorded.1.2.failed ++ if ending.Returns then [] else [sender] := by
    rw [kept]
    cases ending <;>
      simp [ClientEvent.onPool, Custody.note, Custody.settle, Ending.Returns, found]
  have others : ∀ conn ∈ recorded.1.1.pool.cache, LastReturned next.2.uses conn.sender := by
    intro conn member
    rw [uses]
    exact lastReturned_append (used.returned conn member)
      (sender_ne_of_held used.owned.accounted found member) ending
  refine ⟨owned, ?_, ?_, ?_⟩
  · rw [handed, uses, guards, List.map_append, List.append_assoc]
    refine used.handed.trans (List.Perm.append_left _ ?_)
    exact filterMap_eraseIdx_perm found
  · rw [failed, uses, List.filter_append, List.map_append, used.failed]
    by_cases returns : ending.Returns <;> simp [returns]
  · intro conn member
    rw [cache] at member
    by_cases returns : ending.Returns
    · rw [if_pos returns] at member
      rcases List.mem_cons.mp member with rfl | before
      · rw [uses]
        exact ⟨_, ending, [], rfl, fun _ later => (List.not_mem_nil later).elim, returns⟩
      · exact others conn before
    · rw [if_neg returns] at member
      exact others conn member

theorem used_step {recorded next : (PoolState Conn × Custody Conn) × Usage Conn Response Error}
    {event : ClientEvent Conn Response Error} (used : Used recorded)
    (new : ConnectsNew recorded event)
    (stepped : (clientMachine Conn Response Error).step recorded event = some next) :
    Used next := by
  obtain ⟨translated, noted⟩ := Machine.recording_step_eq_some.mp stepped
  have moved : (custodyMachine Conn).step recorded.1 event.onPool = some next.1 := translated
  have owned : Owned next.1 := owned_step used.owned new moved
  cases event with
  | finish index ending => exact used_finish used owned moved noted
  | tick elapsed => exact used_hands_out used owned (by simp) moved noted
  | checkout => exact used_hands_out used owned (by simp) moved noted
  | take index => exact used_hands_out used owned (by simp) moved noted
  | connect index result => exact used_hands_out used owned (by simp) moved noted

/-- A connection has been handed out once more, at most, than it came back. -/
theorem Used.handed_le [DecidableEq Conn]
    {recorded : (PoolState Conn × Custody Conn) × Usage Conn Response Error}
    (used : Used recorded) (conn : Conn) :
    recorded.2.handed.count conn ≤
      ((recorded.2.uses.filter fun use => use.2.Returns).map Prod.fst).count conn + 1 := by
  have apart := used.owned.accounted.balanced.nodup_iff.mpr used.owned.accounted.distinct
  have once := List.nodup_iff_count_le_one.mp apart.of_append_left conn
  have split : (recorded.2.uses.map Prod.fst).count conn =
      ((recorded.2.uses.filter fun use => use.2.Returns).map Prod.fst).count conn +
        ((recorded.2.uses.filter fun use => ¬ use.2.Returns).map Prod.fst).count conn := by
    rw [← List.count_append, ← List.map_append]
    have parted := List.filter_append_perm
      (fun use : Conn × Ending Response Error => decide use.2.Returns) recorded.2.uses
    simp only [decide_not]
    exact ((parted.map Prod.fst).count_eq conn).symm
  rw [used.handed.count_eq, List.count_append, split, ← used.failed]
  rw [PoolState.places, List.count_append, List.count_append] at once
  omega

/-- In every run of the queries of a new pool the last query of an idle connection was
answered or cancelled, a connection whose query failed or timed out is nowhere, and none is
handed out again but for a query of it that was answered or cancelled. -/
theorem idle_connections_returned [DecidableEq Conn] {addresses : List SocketAddr}
    {bounded : addresses.length < usizeBound} {config : PoolConfig} {proto : Text}
    {state : PoolState Conn} {custody : Custody Conn} {usage : Usage Conn Response Error}
    (run : (clientMachine Conn Response Error).GuardedRun ConnectsNew
      ((.start (.withProto addresses bounded config proto), .start), .start)
      ((state, custody), usage)) :
    (∀ conn ∈ state.pool.cache, LastReturned usage.uses conn.sender) ∧
      (∀ conn ending, (conn, ending) ∈ usage.uses → ¬ ending.Returns → conn ∉ state.places) ∧
      ∀ conn, usage.handed.count conn ≤
        ((usage.uses.filter fun use => use.2.Returns).map Prod.fst).count conn + 1 := by
  have used : Used ((state, custody), usage) := run.invariant (used_start rfl) used_step
  refine ⟨used.returned, fun conn ending member fails placed => ?_, used.handed_le⟩
  have givenUp : conn ∈ custody.failed := by
    rw [used.failed]
    exact List.mem_map.mpr ⟨_, List.mem_filter.mpr ⟨member, by simpa using fails⟩, rfl⟩
  have apart := used.owned.accounted.balanced.nodup_iff.mpr used.owned.accounted.distinct
  exact List.disjoint_of_nodup_append apart.of_append_left placed givenUp

/-- One query is answered, the next on its connection times out. -/
theorem idle_connections_returned_of_timeout :
    ∃ (state : PoolState Nat) (custody : Custody Nat) (usage : Usage Nat Unit Unit),
      (clientMachine Nat Unit Unit).GuardedRun ConnectsNew ((.start oneAddress, .start), .start)
        ((state, custody), usage) ∧
      usage.uses = [(1, .answered ()), (1, .timedOut)] ∧
      (∀ conn ∈ state.pool.cache, LastReturned usage.uses conn.sender) ∧
      (∀ conn ending, (conn, ending) ∈ usage.uses → ¬ ending.Returns → conn ∉ state.places) ∧
      ∀ conn, usage.handed.count conn ≤
        ((usage.uses.filter fun use => use.2.Returns).map Prod.fst).count conn + 1 := by
  let events : List (ClientEvent Nat Unit Unit) :=
    [.checkout, .take 0, .connect 0 (some 1), .finish 0 (.answered ()), .checkout,
      .tick (Duration.fromSecs 5), .finish 0 .timedOut, .checkout]
  have checked : ((clientMachine Nat Unit Unit).execWhile ConnectsNew
      ((.start oneAddress, .start), .start) events).any
        (fun recorded => recorded.2.uses = [(1, .answered ()), (1, .timedOut)]) = true := by
    decide +kernel
  obtain ⟨⟨⟨state, custody⟩, usage⟩, executed, ends⟩ := (Option.any_eq_true _ _).mp checked
  have run := Machine.GuardedRun.of_execWhile .refl executed
  exact ⟨state, custody, usage, run, of_decide_eq_true ends, idle_connections_returned run⟩

/-- A connection whose only query was cancelled is idle, and handed out again. -/
theorem cancelled_connection_reused :
    ∃ idle again : (PoolState Nat × Custody Nat) × Usage Nat Unit Unit,
      (clientMachine Nat Unit Unit).GuardedRun ConnectsNew
        ((.start oneAddress, .start), .start) idle ∧
      idle.1.1.pool.cache = [{ sender := 1, lastUsed := 0 }] ∧
      idle.2.uses = [(1, .cancelled)] ∧
      (clientMachine Nat Unit Unit).step idle .checkout = some again ∧
      again.2.handed = [1, 1] ∧ again.2.uses = [(1, .cancelled)] := by
  let events : List (ClientEvent Nat Unit Unit) :=
    [.checkout, .take 0, .connect 0 (some 1), .finish 0 .cancelled]
  have checked : ((clientMachine Nat Unit Unit).execWhile ConnectsNew
      ((.start oneAddress, .start), .start) events).any
        (fun idle => idle.1.1.pool.cache = [{ sender := 1, lastUsed := 0 }] ∧
          idle.2.uses = [(1, .cancelled)] ∧
          ((clientMachine Nat Unit Unit).step idle .checkout).any (fun again =>
            again.2.handed = [1, 1] ∧ again.2.uses = [(1, .cancelled)])) = true := by
    decide +kernel
  obtain ⟨idle, executed, ends⟩ := (Option.any_eq_true _ _).mp checked
  obtain ⟨cache, uses, reused⟩ := of_decide_eq_true ends
  obtain ⟨again, stepped, handed⟩ := (Option.any_eq_true _ _).mp reused
  obtain ⟨twice, unchanged⟩ := of_decide_eq_true handed
  have run := Machine.GuardedRun.of_execWhile .refl executed
  exact ⟨idle, again, run, cache, uses, stepped, twice, unchanged⟩

end Rsdns.Upstream
