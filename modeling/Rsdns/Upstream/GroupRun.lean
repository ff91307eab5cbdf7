import Mathlib.Data.List.Perm.Subperm
import Rsdns.Library.Machine
import Rsdns.Upstream.Failover

/-!
# Concurrent queries to one group

The queries to a group share its cursor and its breakers, and between two steps of one
anything may happen to the others.  A call reads the clock once, at its start, and looks at
each breaker when it comes to that client.  What the call itself did is recorded beside its
phase and is not part of the code.
-/

namespace Rsdns.Upstream

variable {Client Response Error : Type}

/-- How far a call has come.  The ordered modes try one client after the other; the
parallel mode gathers the clients that it asks and then waits for all of them. -/
inductive GroupPhase (Response Error : Type) where
  | trying (order : List Nat) (firstErr : Option Error) (triedAny : Bool)
  | awaiting (idx : Nat) (order : List Nat) (firstErr : Option Error)
  | gathering (order indices : List Nat)
  | racing (inFlight : List Nat) (firstErr : Option Error)
  | finished (result : Except (GroupError Error) Response)
  | dropped
  deriving DecidableEq

/-- Beside the phase: the clients passed over, those taken, those that answered with an
error, and the one that answered well. -/
structure GroupCall (Response Error : Type) where
  now : Nat
  phase : GroupPhase Response Error
  passed : List Nat
  taken : List Nat
  failed : List (Nat × Error)
  answered : Option (Nat × Response)

structure GroupState (Client Response Error : Type) where
  group : UpstreamGroup Client
  calls : List (GroupCall Response Error)

/-- What comes from outside: the time a call reads and the order it draws, when it goes on,
what a client answers and the time that is read for the report. -/
inductive GroupEvent (Response Error : Type) where
  | query (now : Nat) (shuffled : List Nat)
  | look (index : Nat)
  | answer (index idx : Nat) (result : Except Error Response) (told : Nat)
  | drop (index : Nat)

namespace GroupCall

def fresh (now : Nat) (phase : GroupPhase Response Error) : GroupCall Response Error where
  now := now
  phase := phase
  passed := []
  taken := []
  failed := []
  answered := none

def exhausted (firstErr : Option Error) (triedAny : Bool) : Except (GroupError Error) Response :=
  if !triedAny then .error .allCooling else .error (firstErr.elim .noUpstreams .client)

def look (self : GroupCall Response Error) (group : UpstreamGroup Client) :
    Option (GroupCall Response Error) :=
  match self.phase with
  | .trying [] firstErr triedAny =>
      some { self with phase := .finished (exhausted firstErr triedAny) }
  | .trying (idx :: order) firstErr triedAny =>
      if group.eligible self.now idx then
        some { self with phase := .awaiting idx order firstErr, taken := self.taken ++ [idx] }
      else
        some { self with
          phase := .trying order firstErr triedAny, passed := self.passed ++ [idx] }
  | .gathering [] indices =>
      if indices = [] then some { self with phase := .finished (.error .allCooling) }
      else some { self with phase := .racing indices none }
  | .gathering (idx :: order) indices =>
      if group.eligible self.now idx then
        some { self with
          phase := .gathering order (indices ++ [idx]), taken := self.taken ++ [idx] }
      else
        some { self with phase := .gathering order indices, passed := self.passed ++ [idx] }
  | .racing [] firstErr =>
      some { self with phase := .finished (.error (firstErr.elim .noUpstreams .client)) }
  | _ => none

def answer (self : GroupCall Response Error) (idx : Nat) :
    Except Error Response → Option (GroupCall Response Error)
  | .ok response =>
      match self.phase with
      | .awaiting asked _ _ =>
          if asked = idx then
            some { self with
              phase := .finished (.ok response), answered := some (idx, response) }
          else none
      | .racing inFlight _ =>
          if idx ∈ inFlight then
            some { self with
              phase := .finished (.ok response), answered := some (idx, response) }
          else none
      | _ => none
  | .error error =>
      match self.phase with
      | .awaiting asked order firstErr =>
          if asked = idx then
            some { self with
              phase := .trying order (firstErr.or (some error)) true
              failed := self.failed ++ [(idx, error)] }
          else none
      | .racing inFlight firstErr =>
          if idx ∈ inFlight then
            some { self with
              phase := .racing (inFlight.erase idx) (firstErr.or (some error))
              failed := self.failed ++ [(idx, error)] }
          else none
      | _ => none

/-- A call that still runs is no longer wanted. -/
def drop (self : GroupCall Response Error) : Option (GroupCall Response Error) :=
  match self.phase with
  | .finished _ => none
  | _ => some { self with phase := .dropped }

end GroupCall

namespace UpstreamGroup

/-- What an answer means for the breaker of the client. -/
def report (last : Nat) (self : UpstreamGroup Client) (idx : Nat)
    (result : Except Error Response) (told : Nat) : Option (UpstreamGroup Client) :=
  match result with
  | .ok _ => some (self.recordSuccess idx)
  | .error _ => self.recordFailure last idx told

/-- The phase in which a call starts.  The round-robin order moves the cursor. -/
def firstPhase (self : UpstreamGroup Client) (shuffled : List Nat) :
    Option (GroupPhase Response Error × UpstreamGroup Client) :=
  match self.mode with
  | .Serial => some (.trying self.serialOrder none false, self)
  | .Random =>
      if shuffled.Perm (List.range self.clients.length) then
        some (.trying shuffled none false, self)
      else none
  | .RoundRobin => some (.trying self.roundRobinOrder.1 none false, self.roundRobinOrder.2)
  | .Parallel => some (.gathering (List.range self.clients.length) [], self)

end UpstreamGroup

namespace GroupState

def start (group : UpstreamGroup Client) : GroupState Client Response Error where
  group := group
  calls := []

/-- There is no step from a report that panics: it ends the process. -/
def step (last : Nat) (state : GroupState Client Response Error) :
    GroupEvent Response Error → Option (GroupState Client Response Error)
  | .query now shuffled => do
      let (phase, group) ← state.group.firstPhase shuffled
      return { group := group, calls := state.calls ++ [GroupCall.fresh now phase] }
  | .look index => do
      let call ← state.calls[index]?
      let next ← call.look state.group
      return { state with calls := state.calls.set index next }
  | .answer index idx result told => do
      let call ← state.calls[index]?
      let next ← call.answer idx result
      let group ← state.group.report last idx result told
      return { group := group, calls := state.calls.set index next }
  | .drop index => do
      let call ← state.calls[index]?
      let next ← call.drop
      return { state with calls := state.calls.set index next }

end GroupState

def groupMachine (last : Nat) (Client Response Error : Type) :
    Machine (GroupState Client Response Error) (GroupEvent Response Error) :=
  ⟨GroupState.step last⟩

namespace GroupCall

/-! ### What a call can do -/

/-- All that a call does when it goes on. -/
inductive Looks (group : UpstreamGroup Client) (call : GroupCall Response Error) :
    GroupCall Response Error → Prop where
  | ends (firstErr triedAny) (phase : call.phase = .trying [] firstErr triedAny) :
      Looks group call { call with phase := .finished (exhausted firstErr triedAny) }
  | tries (idx order firstErr triedAny)
      (phase : call.phase = .trying (idx :: order) firstErr triedAny)
      (eligible : group.eligible call.now idx = true) :
      Looks group call
        { call with phase := .awaiting idx order firstErr, taken := call.taken ++ [idx] }
  | passes (idx order firstErr triedAny)
      (phase : call.phase = .trying (idx :: order) firstErr triedAny)
      (cools : group.eligible call.now idx = false) :
      Looks group call
        { call with phase := .trying order firstErr triedAny, passed := call.passed ++ [idx] }
  | sendsNone (phase : call.phase = .gathering [] []) :
      Looks group call { call with phase := .finished (.error .allCooling) }
  | sends (first indices) (phase : call.phase = .gathering [] (first :: indices)) :
      Looks group call { call with phase := .racing (first :: indices) none }
  | gathers (idx order indices) (phase : call.phase = .gathering (idx :: order) indices)
      (eligible : group.eligible call.now idx = true) :
      Looks group call
        { call with phase := .gathering order (indices ++ [idx]), taken := call.taken ++ [idx] }
  | leavesOut (idx order indices) (phase : call.phase = .gathering (idx :: order) indices)
      (cools : group.eligible call.now idx = false) :
      Looks group call
        { call with phase := .gathering order indices, passed := call.passed ++ [idx] }
  | loses (firstErr) (phase : call.phase = .racing [] firstErr) :
      Looks group call
        { call with phase := .finished (.error (firstErr.elim .noUpstreams .client)) }

theorem looks_of_look {group : UpstreamGroup Client} {call next : GroupCall Response Error}
    (looked : call.look group = some next) : Looks group call next := by
  unfold look at looked
  split at looked
  · next firstErr triedAny phase =>
      cases looked
      exact .ends firstErr triedAny phase
  · next idx order firstErr triedAny phase =>
      split at looked
      · next eligible =>
          cases looked
          exact .tries idx order firstErr triedAny phase eligible
      · next cools =>
          cases looked
          exact .passes idx order firstErr triedAny phase (Bool.eq_false_iff.mpr cools)
  · next indices phase =>
      cases indices with
      | nil =>
          cases looked
          exact .sendsNone phase
      | cons first indices =>
          cases looked
          exact .sends first indices phase
  · next idx order indices phase =>
      split at looked
      · next eligible =>
          cases looked
          exact .gathers idx order indices phase eligible
      · next cools =>
          cases looked
          exact .leavesOut idx order indices phase (Bool.eq_false_iff.mpr cools)
  · next firstErr phase =>
      cases looked
      exact .loses firstErr phase
  · cases looked

/-- All that an answer does to the call. -/
inductive Answers (call : GroupCall Response Error) (idx : Nat) :
    Except Error Response → GroupCall Response Error → Prop where
  | tried (order firstErr response) (phase : call.phase = .awaiting idx order firstErr) :
      Answers call idx (.ok response)
        { call with phase := .finished (.ok response), answered := some (idx, response) }
  | raced (inFlight firstErr response) (phase : call.phase = .racing inFlight firstErr)
      (member : idx ∈ inFlight) :
      Answers call idx (.ok response)
        { call with phase := .finished (.ok response), answered := some (idx, response) }
  | failsOver (order firstErr error) (phase : call.phase = .awaiting idx order firstErr) :
      Answers call idx (.error error)
        { call with
          phase := .trying order (firstErr.or (some error)) true
          failed := call.failed ++ [(idx, error)] }
  | dropsOut (inFlight firstErr error) (phase : call.phase = .racing inFlight firstErr)
      (member : idx ∈ inFlight) :
      Answers call idx (.error error)
        { call with
          phase := .racing (inFlight.erase idx) (firstErr.or (some error))
          failed := call.failed ++ [(idx, error)] }

theorem answers_of_answer {call next : GroupCall Response Error} {idx : Nat}
    {result : Except Error Response} (answered : call.answer idx result = some next) :
    Answers call idx result next := by
  cases result with
  | ok response =>
      unfold answer at answered
      dsimp only at answered
      split at answered
      · next asked order firstErr phase =>
          obtain ⟨rfl, same⟩ := Option.ite_none_right_eq_some.mp answered
          cases same
          exact .tried order firstErr response phase
      · next inFlight firstErr phase =>
          obtain ⟨member, same⟩ := Option.ite_none_right_eq_some.mp answered
          cases same
          exact .raced inFlight firstErr response phase member
      · cases answered
  | error error =>
      unfold answer at answered
      dsimp only at answered
      split at answered
      · next asked order firstErr phase =>
          obtain ⟨rfl, same⟩ := Option.ite_none_right_eq_some.mp answered
          cases same
          exact .failsOver order firstErr error phase
      · next inFlight firstErr phase =>
          obtain ⟨member, same⟩ := Option.ite_none_right_eq_some.mp answered
          cases same
          exact .dropsOut inFlight firstErr error phase member
      · cases answered

theorem drop_eq_some {call next : GroupCall Response Error} (dropped : call.drop = some next) :
    next = { call with phase := .dropped } := by
  unfold drop at dropped
  split at dropped
  · cases dropped
  · cases dropped
    rfl

end GroupCall

namespace GroupState

/-- All that one step does to the calls and the group. -/
inductive Moves (last : Nat) (state : GroupState Client Response Error) :
    GroupEvent Response Error → GroupState Client Response Error → Prop where
  | begins (now shuffled phase group)
      (opened : state.group.firstPhase shuffled = some (phase, group)) :
      Moves last state (.query now shuffled)
        { group := group, calls := state.calls ++ [GroupCall.fresh now phase] }
  | looks (index call next) (found : state.calls[index]? = some call)
      (looked : call.Looks state.group next) :
      Moves last state (.look index) { state with calls := state.calls.set index next }
  | answers (index idx result told call next group) (found : state.calls[index]? = some call)
      (answered : call.Answers idx result next)
      (reported : state.group.report last idx result told = some group) :
      Moves last state (.answer index idx result told)
        { group := group, calls := state.calls.set index next }
  | drops (index call) (found : state.calls[index]? = some call) :
      Moves last state (.drop index)
        { state with calls := state.calls.set index { call with phase := .dropped } }

theorem moves_of_step {last : Nat} {state next : GroupState Client Response Error}
    {event : GroupEvent Response Error} (stepped : state.step last event = some next) :
    Moves last state event next := by
  cases event with
  | query now shuffled =>
      obtain ⟨⟨phase, group⟩, opened, same⟩ := Option.bind_eq_some_iff.mp stepped
      cases same
      exact .begins now shuffled phase group opened
  | look index =>
      obtain ⟨call, found, rest⟩ := Option.bind_eq_some_iff.mp stepped
      obtain ⟨next, looked, same⟩ := Option.bind_eq_some_iff.mp rest
      cases same
      exact .looks index call next found (GroupCall.looks_of_look looked)
  | answer index idx result told =>
      obtain ⟨call, found, rest⟩ := Option.bind_eq_some_iff.mp stepped
      obtain ⟨next, answered, rest⟩ := Option.bind_eq_some_iff.mp rest
      obtain ⟨group, reported, same⟩ := Option.bind_eq_some_iff.mp rest
      cases same
      exact .answers index idx result told call next group found
        (GroupCall.answers_of_answer answered) reported
  | drop index =>
      obtain ⟨call, found, rest⟩ := Option.bind_eq_some_iff.mp stepped
      obtain ⟨next, dropped, same⟩ := Option.bind_eq_some_iff.mp rest
      cases same
      cases GroupCall.drop_eq_some dropped
      exact .drops index call found

end GroupState

end Rsdns.Upstream
