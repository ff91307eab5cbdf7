import Rsdns.Library.RoundRobin
import Rsdns.Upstream.Checkout
import Rsdns.Upstream.GroupCalls

/-!
# How the round robins spread the load

A group in round-robin mode lets its queries start at the clients in turn, and a pool lets
its attempts go to the addresses in turn, whatever happens between two of them.
-/

namespace Rsdns.Upstream

open Plugins

variable {Client Response Error Conn : Type}

theorem usizeBound_pos : 0 < usizeBound := Nat.two_pow_pos 64

/-! ### The clients that the queries of a group start at -/

def noteStart (state : GroupState Client Response Error) (event : GroupEvent Response Error)
    (_ : GroupState Client Response Error) (starts : List Nat) : List Nat :=
  match event with
  | .query _ _ => starts ++ state.group.roundRobinOrder.1.head?.toList
  | _ => starts

/-- The queries so far started at the clients in turn, and the cursor counts them. -/
structure InTurn (clients : List Client)
    (recorded : GroupState Client Response Error × List Nat) : Prop where
  kept : recorded.1.group.clients = clients
  mode : recorded.1.group.mode = .RoundRobin
  cursor : recorded.1.group.rrCursor = recorded.2.length % usizeBound
  starts : recorded.2 = RoundRobin.turns usizeBound clients.length recorded.2.length

theorem UpstreamGroup.roundRobinOrder_spec (self : UpstreamGroup Client)
    (nonempty : self.clients ≠ []) :
    self.roundRobinOrder.1.head? = some (self.rrCursor % self.clients.length) ∧
      self.roundRobinOrder.2 = { self with rrCursor := (self.rrCursor + 1) % usizeBound } := by
  obtain ⟨count, length⟩ := Nat.exists_eq_succ_of_ne_zero
    (List.length_pos_iff.mpr nonempty).ne'
  unfold roundRobinOrder
  dsimp only
  rw [if_neg (by omega)]
  refine ⟨?_, rfl⟩
  rw [length, List.range_succ_eq_map]
  simp

theorem InTurn.step {last : Nat} {clients : List Client} (nonempty : clients ≠ [])
    {recorded next : GroupState Client Response Error × List Nat}
    {event : GroupEvent Response Error} (inTurn : InTurn clients recorded)
    (stepped : ((groupMachine last Client Response Error).recording noteStart).step recorded event =
      some next) : InTurn clients next := by
  obtain ⟨state, starts⟩ := recorded
  obtain ⟨after, later⟩ := next
  obtain ⟨taken, noted⟩ := Machine.recording_step_eq_some.mp stepped
  obtain ⟨kept, mode, cursor, turns⟩ := inTurn
  dsimp only at taken noted kept mode cursor turns
  cases GroupState.moves_of_step taken with
  | begins now shuffled phase group opened =>
      obtain ⟨head, moved⟩ :=
        state.group.roundRobinOrder_spec (fun empty => nonempty (kept ▸ empty))
      have opens : group = state.group.roundRobinOrder.2 := by
        unfold UpstreamGroup.firstPhase at opened
        rw [mode] at opened
        cases opened
        rfl
      have grown : later = starts ++ [starts.length % usizeBound % clients.length] := by
        simp only [noted, noteStart, head, Option.toList_some, cursor, kept]
      rw [opens, moved, grown]
      refine ⟨kept, mode, ?_, ?_⟩
      · simp only [cursor, List.length_append, List.length_singleton, Nat.mod_add_mod]
      · dsimp only
        rw [List.length_append, List.length_singleton, RoundRobin.turns_succ, ← turns]
  | looks index call changed found looked =>
      cases noted
      exact ⟨kept, mode, cursor, turns⟩
  | answers index idx result told call changed group found answered reported =>
      cases noted
      have same := UpstreamGroup.told_of_report reported
      exact ⟨same.clients.trans kept, same.mode.trans mode, same.cursor.trans cursor, turns⟩
  | drops index call found =>
      cases noted
      exact ⟨kept, mode, cursor, turns⟩

/-- The attempts are the turns of the addresses. -/
theorem PoolState.Logged.attempted_eq {addresses : List SocketAddr} {state : PoolState Conn}
    (logged : Logged addresses state) :
    state.attempted.map some = (RoundRobin.turns usizeBound addresses.length
      state.attempted.length).map fun place => addresses[place]? := by
  apply List.ext_getElem?
  intro turn
  by_cases before : turn < state.attempted.length
  · have under := logged.inTurn turn before
    rw [List.getElem?_eq_getElem before] at under
    rw [List.getElem?_map, List.getElem?_map, RoundRobin.turns, List.getElem?_map,
      List.getElem?_range before, List.getElem?_eq_getElem before]
    exact congrArg some under
  · rw [List.getElem?_eq_none, List.getElem?_eq_none]
    · simpa using before
    · simpa using before

theorem PoolState.Logged.count_attempted {addresses : List SocketAddr} {state : PoolState Conn}
    (logged : Logged addresses state) (distinct : addresses.Nodup) {place : Nat}
    {address : SocketAddr} (held : addresses[place]? = some address) :
    state.attempted.count address =
      (RoundRobin.turns usizeBound addresses.length state.attempted.length).count place := by
  obtain ⟨inside, _⟩ := List.getElem?_eq_some_iff.mp held
  have injective : Function.Injective (some : SocketAddr → Option SocketAddr) :=
    fun _ _ same => Option.some.inj same
  rw [← List.count_map_of_injective state.attempted some injective, logged.attempted_eq,
    List.count, List.countP_map, List.count]
  apply List.countP_congr
  intro other among
  have otherInside := RoundRobin.mem_turns_lt (Nat.zero_lt_of_lt inside) among
  simp only [Function.comp_apply, beq_iff_eq]
  constructor
  · intro same
    exact (List.getElem?_inj otherInside distinct).mp (same.trans held.symm)
  · rintro rfl
    exact held

/-- However the checkouts of a pool interleave and whichever attempts fail: the attempts
have gone to the addresses in turn, so that two addresses differ by one at most, and by one
more for each time the cursor has wrapped around. -/
theorem pool_attempts_in_turn (pool : ConnectionPool Conn) (fresh : pool.cursor = 0)
    (state : PoolState Conn) (run : (poolMachine Conn).Run (.start pool) state) :
    state.attempted ⊆ pool.addresses ∧
      ∀ one ∈ pool.addresses, ∀ other ∈ pool.addresses,
        state.attempted.count one ≤
          state.attempted.count other + state.attempted.length / usizeBound + 1 := by
  have logged : PoolState.Logged pool.addresses state := by
    apply run.invariant
    · exact PoolState.logged_start fresh
    · exact fun logged _ stepped => PoolState.logged_step logged stepped
  constructor
  · intro address attempted
    have among : some address ∈ state.attempted.map some := List.mem_map_of_mem attempted
    rw [logged.attempted_eq] at among
    obtain ⟨place, _, held⟩ := List.mem_map.mp among
    exact List.mem_of_getElem? held
  · intro one oneHeld other otherHeld
    obtain ⟨onePlace, oneAt⟩ := List.mem_iff_getElem?.mp oneHeld
    obtain ⟨otherPlace, otherAt⟩ := List.mem_iff_getElem?.mp otherHeld
    rw [logged.count_attempted pool.distinct oneAt, logged.count_attempted pool.distinct otherAt]
    exact RoundRobin.count_turns_le state.attempted.length usizeBound_pos
      (List.getElem?_eq_some_iff.mp oneAt).1 (List.getElem?_eq_some_iff.mp otherAt).1

/-- Two checkouts that attempt three addresses of a pool of two. -/
theorem overlapping_attempts_in_turn :
    ∃ state : PoolState Unit, state.attempted.length = 3 ∧
      state.attempted ⊆ twoAddresses.addresses ∧
      ∀ one ∈ twoAddresses.addresses, ∀ other ∈ twoAddresses.addresses,
        state.attempted.count one ≤
          state.attempted.count other + state.attempted.length / usizeBound + 1 := by
  let events : List (PoolEvent Unit) :=
    [.checkout, .checkout, .take 0, .take 1, .connect 0 none, .connect 1 (some ()), .take 0]
  have checked : ((poolMachine Unit).execWhile (fun _ _ => True) (.start twoAddresses)
      events).any (fun state => decide (state.attempted.length = 3)) = true := by
    decide +kernel
  obtain ⟨state, executed, three⟩ := (Option.any_eq_true _ _).mp checked
  have run := Machine.GuardedRun.of_execWhile .refl executed
  exact ⟨state, of_decide_eq_true three, pool_attempts_in_turn twoAddresses rfl state run⟩

end Rsdns.Upstream
