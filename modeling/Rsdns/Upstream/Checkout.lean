import Rsdns.Library.Machine
import Rsdns.Upstream.Pool

/-!
# Concurrent checkouts of one pool

A checkout takes an idle connection or tries as many addresses as the pool has,
each from the shared cursor.  Anything may happen between its steps: other
checkouts move the cursor on.
-/

namespace Rsdns.Upstream

open Dns Plugins

variable {Conn : Type}

structure CheckoutGuard (Conn : Type) where
  sender : Option Conn
  reported : Bool
  deriving DecidableEq

namespace CheckoutGuard

/-- The connection goes back at most once. -/
def report (self : CheckoutGuard Conn) (pool : ConnectionPool Conn) (now : Nat)
    (success : Bool) : CheckoutGuard Conn × ConnectionPool Conn :=
  if self.reported then (self, pool)
  else
    match self.sender with
    | some sender => ({ sender := none, reported := true }, pool.release now sender success)
    | none => ({ self with reported := true }, pool)

/-- Dropping a guard counts as a success. -/
def drop (self : CheckoutGuard Conn) (pool : ConnectionPool Conn) (now : Nat) :
    ConnectionPool Conn :=
  (self.report pool now true).2

/-- `record_success` and `record_failure` report and then drop the guard. -/
def record (self : CheckoutGuard Conn) (pool : ConnectionPool Conn) (now : Nat)
    (success : Bool) : ConnectionPool Conn :=
  let (self, pool) := self.report pool now success
  self.drop pool now

end CheckoutGuard

inductive Phase where
  | attempting (remaining : Nat)
  | connecting (address : SocketAddr) (remaining : Nat)
  | handedOut
  | gaveUp
  deriving DecidableEq

/-- `failed` is not part of the code: it records the attempts of the call that failed. -/
structure Call where
  phase : Phase
  failed : List SocketAddr
  deriving DecidableEq

/-- `attempted` is not part of the code: it records all attempts. -/
structure PoolState (Conn : Type) where
  now : Nat
  pool : ConnectionPool Conn
  calls : List Call
  guards : List (CheckoutGuard Conn)
  attempted : List SocketAddr

inductive PoolEvent (Conn : Type) where
  | tick (elapsed : Nat)
  | checkout
  | take (index : Nat)
  | connect (index : Nat) (result : Option Conn)
  | record (index : Nat) (success : Bool)
  | drop (index : Nat)

namespace PoolState

def start (pool : ConnectionPool Conn) : PoolState Conn where
  now := 0
  pool := pool
  calls := []
  guards := []
  attempted := []

def checkout (state : PoolState Conn) : PoolState Conn :=
  let (idle, rest) :=
    ConnectionPool.popIdle state.now state.pool.config.idleTimeout state.pool.cache
  let pool := { state.pool with cache := rest }
  match idle with
  | some sender =>
      { state with
        pool := pool
        calls := state.calls ++ [{ phase := .handedOut, failed := [] }]
        guards := state.guards ++ [{ sender := some sender, reported := false }] }
  | none =>
      { state with
        pool := pool
        calls := state.calls ++
          [{ phase := .attempting (max pool.addresses.length 1), failed := [] }] }

def take (state : PoolState Conn) (index : Nat) (call : Call) : Option (PoolState Conn) :=
  match call.phase with
  | .attempting (remaining + 1) =>
      match state.pool.nextAddr with
      | none => some { state with calls := state.calls.set index { call with phase := .gaveUp } }
      | some (address, pool) =>
          some { state with
            pool := pool
            calls := state.calls.set index { call with phase := .connecting address remaining }
            attempted := state.attempted ++ [address] }
  | _ => none

def connect (state : PoolState Conn) (index : Nat) (call : Call) (result : Option Conn) :
    Option (PoolState Conn) :=
  match call.phase with
  | .connecting address remaining =>
      match result with
      | some sender =>
          some { state with
            calls := state.calls.set index { call with phase := .handedOut }
            guards := state.guards ++ [{ sender := some sender, reported := false }] }
      | none =>
          some { state with
            calls := state.calls.set index
              { phase := if remaining = 0 then .gaveUp else .attempting remaining
                failed := call.failed ++ [address] } }
  | _ => none

def step (state : PoolState Conn) : PoolEvent Conn → Option (PoolState Conn)
  | .tick elapsed => some { state with now := state.now + elapsed }
  | .checkout => some state.checkout
  | .take index => do
      let call ← state.calls[index]?
      state.take index call
  | .connect index result => do
      let call ← state.calls[index]?
      state.connect index call result
  | .record index success => do
      let guard ← state.guards[index]?
      return { state with
        pool := guard.record state.pool state.now success
        guards := state.guards.eraseIdx index }
  | .drop index => do
      let guard ← state.guards[index]?
      return { state with
        pool := guard.drop state.pool state.now
        guards := state.guards.eraseIdx index }

end PoolState

def poolMachine (Conn : Type) : Machine (PoolState Conn) (PoolEvent Conn) := ⟨PoolState.step⟩

namespace PoolState

/-! ### What a step can do -/

/-- All that one step can do to the addresses, the cursor and the calls. -/
inductive Moves (state : PoolState Conn) : PoolEvent Conn → PoolState Conn → Prop where
  | aside (event now pool guards) (addresses : pool.addresses = state.pool.addresses)
      (cursor : pool.cursor = state.pool.cursor) :
      Moves state event { state with now := now, pool := pool, guards := guards }
  | begins (pool guards phase) (addresses : pool.addresses = state.pool.addresses)
      (cursor : pool.cursor = state.pool.cursor)
      (begun : phase = .handedOut ∨ phase = .attempting (max pool.addresses.length 1)) :
      Moves state .checkout
        { state with
          pool := pool
          calls := state.calls ++ [{ phase := phase, failed := [] }]
          guards := guards }
  | takes (index call remaining address) (found : state.calls[index]? = some call)
      (phase : call.phase = .attempting (remaining + 1))
      (under : state.pool.addresses[state.pool.cursor % state.pool.addresses.length]? =
        some address) :
      Moves state (.take index)
        { state with
          pool := { state.pool with cursor := (state.pool.cursor + 1) % usizeBound }
          calls := state.calls.set index { call with phase := .connecting address remaining }
          attempted := state.attempted ++ [address] }
  | exhausts (index call) (found : state.calls[index]? = some call)
      (empty : state.pool.addresses = []) :
      Moves state (.take index)
        { state with calls := state.calls.set index { call with phase := .gaveUp } }
  | connects (index call sender guards) (found : state.calls[index]? = some call) :
      Moves state (.connect index (some sender))
        { state with
          calls := state.calls.set index { call with phase := .handedOut }
          guards := guards }
  | fails (index call address remaining) (found : state.calls[index]? = some call)
      (phase : call.phase = .connecting address remaining) :
      Moves state (.connect index none)
        { state with
          calls := state.calls.set index
            { phase := if remaining = 0 then .gaveUp else .attempting remaining
              failed := call.failed ++ [address] } }

theorem release_addresses (pool : ConnectionPool Conn) (now : Nat) (sender : Conn)
    (success : Bool) :
    (pool.release now sender success).addresses = pool.addresses ∧
      (pool.release now sender success).cursor = pool.cursor := by
  cases success <;> exact ⟨rfl, rfl⟩

theorem report_addresses (guard : CheckoutGuard Conn) (pool : ConnectionPool Conn) (now : Nat)
    (success : Bool) :
    (guard.report pool now success).2.addresses = pool.addresses ∧
      (guard.report pool now success).2.cursor = pool.cursor := by
  unfold CheckoutGuard.report
  split
  · exact ⟨rfl, rfl⟩
  · split
    · exact release_addresses pool now _ success
    · exact ⟨rfl, rfl⟩

theorem record_addresses (guard : CheckoutGuard Conn) (pool : ConnectionPool Conn) (now : Nat)
    (success : Bool) :
    (guard.record pool now success).addresses = pool.addresses ∧
      (guard.record pool now success).cursor = pool.cursor := by
  have first := report_addresses guard pool now success
  have second := report_addresses (guard.report pool now success).1
    (guard.report pool now success).2 now true
  exact ⟨second.1.trans first.1, second.2.trans first.2⟩

theorem take_spec {state next : PoolState Conn} {index : Nat} {call : Call}
    (taken : state.take index call = some next) :
    next.now = state.now ∧ next.pool.cache = state.pool.cache ∧ next.guards = state.guards := by
  unfold take ConnectionPool.nextAddr at taken
  split at taken
  · split at taken
    · cases taken
      exact ⟨rfl, rfl, rfl⟩
    · next moved =>
        obtain ⟨address, _, same⟩ := Option.map_eq_some_iff.mp moved
        cases taken
        cases same
        exact ⟨rfl, rfl, rfl⟩
  · cases taken

theorem connect_spec {state next : PoolState Conn} {index : Nat} {call : Call}
    {result : Option Conn} (connected : state.connect index call result = some next) :
    next.now = state.now ∧ next.pool.cache = state.pool.cache ∧
      next.guards = state.guards ++
        result.toList.map fun sender => { sender := some sender, reported := false } := by
  unfold connect at connected
  split at connected
  · cases result with
    | some sender =>
        cases connected
        exact ⟨rfl, rfl, rfl⟩
    | none =>
        cases connected
        exact ⟨rfl, rfl, (List.append_nil _).symm⟩
  · cases connected

theorem moves_checkout (state : PoolState Conn) : Moves state .checkout state.checkout := by
  unfold checkout
  cases ConnectionPool.popIdle state.now state.pool.config.idleTimeout state.pool.cache with
  | mk idle rest =>
      cases idle with
      | none => exact .begins _ state.guards _ rfl rfl (.inr rfl)
      | some sender => exact .begins _ _ _ rfl rfl (.inl rfl)

theorem moves_take {state next : PoolState Conn} {index : Nat} {call : Call}
    (found : state.calls[index]? = some call) (taken : state.take index call = some next) :
    Moves state (.take index) next := by
  unfold take at taken
  split at taken
  · next remaining phase =>
      cases under : state.pool.addresses[state.pool.cursor % state.pool.addresses.length]? with
      | none =>
          simp only [ConnectionPool.nextAddr, under, Option.map_none] at taken
          cases taken
          refine .exhausts index call found ?_
          rw [List.getElem?_eq_none_iff] at under
          by_contra nonempty
          exact absurd (Nat.mod_lt _ (List.length_pos_iff.mpr nonempty)) (Nat.not_lt.mpr under)
      | some address =>
          simp only [ConnectionPool.nextAddr, under, Option.map_some] at taken
          cases taken
          exact .takes index call remaining address found phase under
  · cases taken

theorem moves_connect {state next : PoolState Conn} {index : Nat} {call : Call}
    {result : Option Conn} (found : state.calls[index]? = some call)
    (connected : state.connect index call result = some next) :
    Moves state (.connect index result) next := by
  unfold connect at connected
  split at connected
  · next address remaining phase =>
      cases result with
      | some sender =>
          cases connected
          exact .connects index call sender _ found
      | none =>
          cases connected
          exact .fails index call address remaining found phase
  · cases connected

theorem moves_of_step {state next : PoolState Conn} {event : PoolEvent Conn}
    (stepped : state.step event = some next) : Moves state event next := by
  cases event with
  | tick elapsed =>
      cases stepped
      exact .aside _ _ state.pool state.guards rfl rfl
  | checkout =>
      cases stepped
      exact moves_checkout state
  | take index =>
      obtain ⟨call, found, taken⟩ := Option.bind_eq_some_iff.mp stepped
      exact moves_take found taken
  | connect index result =>
      obtain ⟨call, found, connected⟩ := Option.bind_eq_some_iff.mp stepped
      exact moves_connect found connected
  | record index success =>
      obtain ⟨guard, _, same⟩ := Option.bind_eq_some_iff.mp stepped
      cases same
      have kept := record_addresses guard state.pool state.now success
      exact .aside _ state.now _ _ kept.1 kept.2
  | drop index =>
      obtain ⟨guard, _, same⟩ := Option.bind_eq_some_iff.mp stepped
      cases same
      have kept := report_addresses guard state.pool state.now true
      exact .aside _ state.now _ _ kept.1 kept.2

/-! ### Calls that try no address twice -/

/-- The address that a call takes is none that the call has tried in vain. -/
def TriesNew (state : PoolState Conn) : PoolEvent Conn → Prop
  | .take index =>
      match state.calls[index]?, state.pool.nextAddr with
      | some call, some (address, _) => address ∉ call.failed
      | _, _ => True
  | _ => True

instance (state : PoolState Conn) (event : PoolEvent Conn) : Decidable (TriesNew state event) := by
  unfold TriesNew
  split
  · split <;> infer_instance
  · infer_instance

/-- The attempts so far are at different addresses, and those left make up the rest. -/
def Covering (addresses : List SocketAddr) (call : Call) : Prop :=
  match call.phase with
  | .attempting remaining =>
      call.failed.Nodup ∧ call.failed ⊆ addresses ∧
        call.failed.length + remaining = max addresses.length 1
  | .connecting address remaining =>
      (call.failed ++ [address]).Nodup ∧ call.failed ++ [address] ⊆ addresses ∧
        call.failed.length + 1 + remaining = max addresses.length 1
  | .handedOut => True
  | .gaveUp => addresses ⊆ call.failed

theorem subset_of_length_eq {addresses tried : List SocketAddr} (distinct : tried.Nodup)
    (inside : tried ⊆ addresses) (all : addresses.length ≤ tried.length) :
    addresses ⊆ tried :=
  ((List.subperm_of_subset distinct inside).perm_of_length_le all).symm.subset

theorem covering_begun {addresses : List SocketAddr} {phase : Phase}
    (begun : phase = .handedOut ∨ phase = .attempting (max addresses.length 1)) :
    Covering addresses { phase := phase, failed := [] } := by
  rcases begun with rfl | rfl
  · trivial
  · exact ⟨.nil, List.nil_subset _, Nat.zero_add _⟩

theorem covering_taken {addresses : List SocketAddr} {call : Call} {remaining : Nat}
    {address : SocketAddr} (covering : Covering addresses call)
    (phase : call.phase = .attempting (remaining + 1)) (member : address ∈ addresses)
    (untried : address ∉ call.failed) :
    Covering addresses { call with phase := .connecting address remaining } := by
  unfold Covering at covering
  rw [phase] at covering
  obtain ⟨distinct, inside, counted⟩ := covering
  refine ⟨?_, ?_, ?_⟩
  · rw [List.nodup_append]
    refine ⟨distinct, List.nodup_singleton address, ?_⟩
    intro other tried last isLast same
    rw [List.mem_singleton] at isLast
    exact untried (isLast ▸ same ▸ tried)
  · exact List.append_subset.mpr ⟨inside, by simpa using member⟩
  · dsimp only
    omega

theorem covering_failed {addresses : List SocketAddr} {call : Call} {remaining : Nat}
    {address : SocketAddr} (covering : Covering addresses call)
    (phase : call.phase = .connecting address remaining) :
    Covering addresses
      { phase := if remaining = 0 then .gaveUp else .attempting remaining
        failed := call.failed ++ [address] } := by
  unfold Covering at covering
  rw [phase] at covering
  obtain ⟨distinct, inside, counted⟩ := covering
  have length : (call.failed ++ [address]).length = call.failed.length + 1 := by simp
  by_cases last : remaining = 0
  · rw [if_pos last]
    apply subset_of_length_eq distinct inside
    have nonempty : 0 < addresses.length :=
      List.length_pos_of_mem (inside (List.mem_append_right _ (List.mem_singleton_self address)))
    rw [length]
    omega
  · rw [if_neg last]
    refine ⟨distinct, inside, ?_⟩
    rw [length]
    exact counted

def AllCovering (state : PoolState Conn) : Prop :=
  ∀ call ∈ state.calls, Covering state.pool.addresses call

theorem allCovering_step {state next : PoolState Conn} {event : PoolEvent Conn}
    (covering : AllCovering state) (triesNew : TriesNew state event)
    (stepped : state.step event = some next) : AllCovering next := by
  have replaced : ∀ {index : Nat} {call' : Call}, Covering state.pool.addresses call' →
      ∀ call ∈ state.calls.set index call', Covering state.pool.addresses call := by
    intro index call' covers call member
    rcases List.mem_or_eq_of_mem_set member with before | rfl
    · exact covering call before
    · exact covers
  cases moves_of_step stepped with
  | aside event now pool guards addresses cursor =>
      unfold AllCovering
      dsimp only
      rwa [addresses]
  | begins pool guards phase addresses cursor begun =>
      rw [addresses] at begun
      unfold AllCovering
      dsimp only
      rw [addresses]
      intro call member
      rcases List.mem_append.mp member with before | new
      · exact covering call before
      · rw [List.mem_singleton] at new
        subst new
        exact covering_begun begun
  | takes index call remaining address found phase under =>
      have untried : address ∉ call.failed := by
        simpa only [TriesNew, found, ConnectionPool.nextAddr, under, Option.map_some] using triesNew
      exact replaced (covering_taken (covering call (List.mem_of_getElem? found)) phase
        (List.mem_of_getElem? under) untried)
  | exhausts index call found empty =>
      apply replaced
      change state.pool.addresses ⊆ call.failed
      rw [empty]
      exact List.nil_subset _
  | connects index call sender guards found => exact replaced trivial
  | fails index call address remaining found phase =>
      exact replaced (covering_failed (covering call (List.mem_of_getElem? found)) phase)

/-! ### The order of the attempts -/

/-- All attempts went through the addresses in turn. -/
structure Logged (addresses : List SocketAddr) (state : PoolState Conn) : Prop where
  same : state.pool.addresses = addresses
  cursor : state.pool.cursor = state.attempted.length % usizeBound
  inTurn : ∀ i < state.attempted.length,
    state.attempted[i]? = addresses[i % usizeBound % addresses.length]?

theorem logged_start {pool : ConnectionPool Conn} (fresh : pool.cursor = 0) :
    Logged pool.addresses (start pool) :=
  ⟨rfl, fresh, fun _ none => absurd none (Nat.not_lt_zero _)⟩

theorem logged_step {addresses : List SocketAddr} {state next : PoolState Conn}
    {event : PoolEvent Conn} (logged : Logged addresses state)
    (stepped : state.step event = some next) : Logged addresses next := by
  cases moves_of_step stepped with
  | aside event now pool guards same cursor =>
      exact ⟨same.trans logged.same, cursor.trans logged.cursor, logged.inTurn⟩
  | begins pool guards phase same cursor begun =>
      exact ⟨same.trans logged.same, cursor.trans logged.cursor, logged.inTurn⟩
  | takes index call remaining address found phase under =>
      refine ⟨logged.same, ?_, fun i within => ?_⟩
      · dsimp only
        rw [List.length_append, List.length_singleton, logged.cursor, Nat.mod_add_mod]
      · dsimp only at within ⊢
        rw [List.length_append, List.length_singleton] at within
        rcases Nat.lt_succ_iff_lt_or_eq.mp within with before | last
        · rw [List.getElem?_append_left before]
          exact logged.inTurn i before
        · subst last
          rw [List.getElem?_concat_length, ← under, logged.same, logged.cursor]
  | exhausts index call found empty =>
      exact ⟨logged.same, logged.cursor, logged.inTurn⟩
  | connects index call sender guards found =>
      exact ⟨logged.same, logged.cursor, logged.inTurn⟩
  | fails index call address remaining found phase =>
      exact ⟨logged.same, logged.cursor, logged.inTurn⟩

theorem exists_attempt {pool : ConnectionPool Conn} {state : PoolState Conn}
    (run : (poolMachine Conn).Run (start pool) state) (idle : state.pool.cache = [])
    (nonempty : state.pool.addresses ≠ []) :
    ∃ next, (poolMachine Conn).Run (start pool) next ∧ next.pool.cache = [] ∧
      next.pool.addresses = state.pool.addresses ∧
      next.attempted.length = state.attempted.length + 1 := by
  have size := List.length_pos_iff.mpr nonempty
  obtain ⟨address, under⟩ : ∃ address,
      state.pool.addresses[state.pool.cursor % state.pool.addresses.length]? = some address :=
    ⟨_, List.getElem?_eq_getElem (Nat.mod_lt _ size)⟩
  obtain ⟨remaining, budget⟩ : ∃ remaining, max state.pool.addresses.length 1 = remaining + 1 :=
    ⟨max state.pool.addresses.length 1 - 1, by omega⟩
  let call : Call := { phase := .attempting (remaining + 1), failed := [] }
  have opened : state.checkout = { state with calls := state.calls ++ [call] } := by
    cases state with
    | mk now pool calls guards attempted =>
        cases pool with
        | mk cache addresses distinct bounded proto config cursor =>
            cases idle
            simp only [checkout, ConnectionPool.popIdle, call, ← budget]
  have begins : (poolMachine Conn).step state .checkout =
      some { state with calls := state.calls ++ [call] } := congrArg some opened
  have takes : (poolMachine Conn).step { state with calls := state.calls ++ [call] }
      (.take state.calls.length) = some
        { state with
          pool := { state.pool with cursor := (state.pool.cursor + 1) % usizeBound }
          calls := (state.calls ++ [call]).set state.calls.length
            { call with phase := .connecting address remaining }
          attempted := state.attempted ++ [address] } := by
    simp [poolMachine, step, take, ConnectionPool.nextAddr, under, call]
  exact ⟨_, (run.step trivial begins).step trivial takes, idle, rfl, by simp⟩

theorem exists_attempts {pool : ConnectionPool Conn} (idle : pool.cache = [])
    (nonempty : pool.addresses ≠ []) (count : Nat) :
    ∃ state, (poolMachine Conn).Run (start pool) state ∧ state.attempted.length = count := by
  have reached : ∃ state, (poolMachine Conn).Run (start pool) state ∧ state.pool.cache = [] ∧
      state.pool.addresses = pool.addresses ∧ state.attempted.length = count := by
    induction count with
    | zero => exact ⟨start pool, .refl, idle, rfl, rfl⟩
    | succ count inductionHypothesis =>
        obtain ⟨state, run, stillIdle, same, counted⟩ := inductionHypothesis
        obtain ⟨next, further, nextIdle, nextSame, length⟩ :=
          exists_attempt run stillIdle (same ▸ nonempty)
        exact ⟨next, further, nextIdle, nextSame.trans same, length.trans (by rw [counted])⟩
  obtain ⟨state, run, _, _, counted⟩ := reached
  exact ⟨state, run, counted⟩

end PoolState

/-- In a run whose calls take no address they have already tried, a call that gives up has
tried every address of the pool in vain. -/
theorem gaveUp_tried_all {pool : ConnectionPool Conn} {state : PoolState Conn}
    (run : (poolMachine Conn).GuardedRun PoolState.TriesNew (.start pool) state) :
    ∀ call ∈ state.calls, call.phase = .gaveUp →
      ∀ address ∈ state.pool.addresses, address ∈ call.failed := by
  have covering : PoolState.AllCovering state := by
    apply run.invariant
    · exact fun _ member => absurd member List.not_mem_nil
    · exact PoolState.allCovering_step
  intro call member gaveUp
  have covers := covering call member
  unfold PoolState.Covering at covers
  rw [gaveUp] at covers
  exact covers

def twoAddresses : ConnectionPool Unit :=
  .withProto [⟨.v4 0x0A000001#32, 53⟩, ⟨.v4 0x0A000002#32, 53⟩] (by decide) .default
    "udp".toList

/-- One checkout alone, whose attempts all fail. -/
theorem lone_checkout_tries_all :
    ∃ state, (poolMachine Unit).GuardedRun PoolState.TriesNew (.start twoAddresses) state ∧
      ∃ call ∈ state.calls, call.phase = .gaveUp ∧
        ∀ address ∈ state.pool.addresses, address ∈ call.failed := by
  let events : List (PoolEvent Unit) :=
    [.checkout, .take 0, .connect 0 none, .take 0, .connect 0 none]
  have checked : ((poolMachine Unit).execWhile PoolState.TriesNew (.start twoAddresses)
      events).any (fun state => state.calls.any fun call => call.phase = .gaveUp) = true := by
    decide +kernel
  obtain ⟨state, executed, gives⟩ := (Option.any_eq_true _ _).mp checked
  obtain ⟨call, member, gaveUp⟩ := List.any_eq_true.mp gives
  have run := Machine.GuardedRun.of_execWhile .refl executed
  have gaveUp := of_decide_eq_true gaveUp
  exact ⟨state, run, call, member, gaveUp, gaveUp_tried_all run call member gaveUp⟩

/-- Another checkout takes the second address, and connects; the first one comes to the
first address again and gives up. -/
theorem overlapping_checkout_misses_address :
    ∃ state, (poolMachine Unit).Run (.start twoAddresses) state ∧
      ∃ call ∈ state.calls, call.phase = .gaveUp ∧
        ∃ address ∈ state.pool.addresses, address ∉ call.failed := by
  let events : List (PoolEvent Unit) :=
    [.checkout, .checkout, .take 0, .take 1, .connect 0 none, .connect 1 (some ()), .take 0,
      .connect 0 none]
  have checked : ((poolMachine Unit).execWhile (fun _ _ => True) (.start twoAddresses)
      events).any (fun state => state.calls.any fun call => call.phase = .gaveUp ∧
        ∃ address ∈ state.pool.addresses, address ∉ call.failed) = true := by
    decide +kernel
  obtain ⟨state, executed, gives⟩ := (Option.any_eq_true _ _).mp checked
  obtain ⟨call, member, missed⟩ := List.any_eq_true.mp gives
  obtain ⟨gaveUp, address, held, untried⟩ := of_decide_eq_true missed
  exact ⟨state, Machine.GuardedRun.of_execWhile .refl executed, call, member, gaveUp, address,
    held, untried⟩

end Rsdns.Upstream
