import Rsdns.Dns.LabelName
import Rsdns.Library.Machine
import Rsdns.Rules.Requests

/-!
# Queries that pass the rules at the same time

Each query goes through the rules in its own steps, and all of them share the cache of ECH
templates, which belongs to no rule and to no upstream in particular.
-/

namespace Rsdns.Plugins

open Common Dns

variable {Name : Type} [NameApi Name]

/-- A query at the rules, with what it exchanged so far and what is left to do. -/
structure RuleCall (Name : Type) where
  ctx : QueryContext Name
  transcript : List (RuleExchange Name)
  rest : RuleTalk Name (Step × QueryContext Name)

structure RulesState (Name : Type) where
  now : Nat
  echCache : DnsCache Name
  calls : List (RuleCall Name)

inductive RulesEvent (Name : Type) where
  | tick (elapsed : Nat)
  | query (ctx : QueryContext Name)
  | reply (index : Nat) (told : Option (Message Name))
  | access (index : Nat)
  | evict (key : CacheKey)

namespace RuleCall

omit [NameApi Name] in
def reply (self : RuleCall Name) (told : Option (Message Name)) : Option (RuleCall Name) :=
  match self.rest with
  | .ask (.query upstream msg) proceed =>
      some { self with
        transcript := self.transcript ++ [.query upstream msg told], rest := proceed told }
  | _ => none

/-- The cache is read or written.  A write may abort. -/
def access (self : RuleCall Name) (now : Nat) (cache : DnsCache Name) :
    Option (RuleCall Name × DnsCache Name) :=
  match self.rest with
  | .ask (.getCached key) proceed =>
      let found := cache.getCached now key
      some ({ self with
        transcript := self.transcript ++ [.getCached key found], rest := proceed found }, cache)
  | .ask (.store key resp) proceed =>
      (cacheUpstreamResponse cache now key resp none).map fun cache =>
        ({ self with
          transcript := self.transcript ++ [⟨.store key resp, ()⟩], rest := proceed () }, cache)
  | _ => none

end RuleCall

namespace RulesState

/-- The cache of templates as the rules make it. -/
def start (Name : Type) : RulesState Name where
  now := 0
  echCache := .newMetric 64 60 3600 false
  calls := []

def step (self : Rules) (state : RulesState Name) : RulesEvent Name → Option (RulesState Name)
  | .tick elapsed => some { state with now := state.now + elapsed }
  | .query ctx =>
      some { state with
        calls := state.calls ++ [{ ctx := ctx, transcript := [], rest := self.askHandle ctx }] }
  | .reply index told => do
      let call ← state.calls[index]?
      let next ← call.reply told
      return { state with calls := state.calls.set index next }
  | .access index => do
      let call ← state.calls[index]?
      let (next, cache) ← call.access state.now state.echCache
      return { state with echCache := cache, calls := state.calls.set index next }
  | .evict key => some { state with echCache := state.echCache.evict key }

end RulesState

def rulesMachine (Name : Type) [NameApi Name] (self : Rules) :
    Machine (RulesState Name) (RulesEvent Name) :=
  ⟨RulesState.step self⟩

/-! ### What a step can do -/

/-- The call made the request, behind these exchanges. -/
def RuleCall.Made (call : RuleCall Name) (earlier : List (RuleExchange Name))
    (request : RuleRequest Name) : Prop :=
  (∃ reply later, call.transcript = earlier ++ ⟨request, reply⟩ :: later) ∨
    earlier = call.transcript ∧ ∃ proceed, call.rest = .ask request proceed

def RuleCall.Stored (call : RuleCall Name) (key : CacheKey) (resp : Message Name) : Prop :=
  ⟨.store key resp, ()⟩ ∈ call.transcript

structure RuleCall.Follows (call next : RuleCall Name) (exchange : RuleExchange Name) : Prop where
  ctx : next.ctx = call.ctx
  transcript : next.transcript = call.transcript ++ [exchange]
  rest : ∃ proceed, call.rest = .ask exchange.1 proceed ∧ next.rest = proceed exchange.2

namespace RulesState

/-- All that one step can do: begin a call, take one exchange further, or something that no
call is aware of. -/
inductive Moves (self : Rules) (state : RulesState Name) : RulesState Name → Prop where
  | waits (elapsed) : Moves self state { state with now := state.now + elapsed }
  | begins (ctx) :
      Moves self state
        { state with
          calls := state.calls ++ [{ ctx := ctx, transcript := [], rest := self.askHandle ctx }] }
  | hears (index call next upstream msg told) (found : state.calls[index]? = some call)
      (follows : call.Follows next (.query upstream msg told)) :
      Moves self state { state with calls := state.calls.set index next }
  | reads (index call next key) (found : state.calls[index]? = some call)
      (follows : call.Follows next (.getCached key (state.echCache.getCached state.now key))) :
      Moves self state { state with calls := state.calls.set index next }
  | stores (index call next key resp cache) (found : state.calls[index]? = some call)
      (follows : call.Follows next ⟨.store key resp, ()⟩)
      (stored : cacheUpstreamResponse state.echCache state.now key resp none = some cache) :
      Moves self state { state with echCache := cache, calls := state.calls.set index next }
  | evicts (key) : Moves self state { state with echCache := state.echCache.evict key }

theorem moves_of_step {self : Rules} {state next : RulesState Name} {event : RulesEvent Name}
    (stepped : state.step self event = some next) : Moves self state next := by
  cases event with
  | tick elapsed =>
      cases stepped
      exact .waits elapsed
  | query ctx =>
      cases stepped
      exact .begins ctx
  | reply index told =>
      obtain ⟨call, found, rest⟩ := Option.bind_eq_some_iff.mp stepped
      obtain ⟨after, replied, same⟩ := Option.bind_eq_some_iff.mp rest
      cases same
      unfold RuleCall.reply at replied
      split at replied
      · next upstream msg proceed asks =>
          cases replied
          exact .hears index call _ upstream msg told found ⟨rfl, rfl, proceed, asks, rfl⟩
      · cases replied
  | access index =>
      obtain ⟨call, found, rest⟩ := Option.bind_eq_some_iff.mp stepped
      obtain ⟨⟨after, cache⟩, accessed, same⟩ := Option.bind_eq_some_iff.mp rest
      cases same
      unfold RuleCall.access at accessed
      split at accessed
      · next key proceed asks =>
          cases accessed
          exact .reads index call _ key found ⟨rfl, rfl, proceed, asks, rfl⟩
      · next key resp proceed asks =>
          obtain ⟨written, stored, same⟩ := Option.map_eq_some_iff.mp accessed
          cases same
          exact .stores index call _ key resp cache found ⟨rfl, rfl, proceed, asks, rfl⟩ stored
      · cases accessed
  | evict key =>
      cases stepped
      exact .evicts key

end RulesState

/-! ### Every call goes through its talk -/

/-- The call has come to where its exchanges lead. -/
def RuleCall.OnCourse (self : Rules) (call : RuleCall Name) : Prop :=
  Interaction.Reaches (self.askHandle call.ctx) call.transcript call.rest

theorem RuleCall.Follows.onCourse {self : Rules} {call next : RuleCall Name}
    {exchange : RuleExchange Name} (follows : call.Follows next exchange)
    (onCourse : call.OnCourse self) : next.OnCourse self := by
  obtain ⟨ctx, transcript, proceed, asks, rest⟩ := follows
  unfold OnCourse at onCourse ⊢
  rw [asks] at onCourse
  rw [ctx, transcript, rest]
  exact onCourse.told exchange.2

def RulesState.AllOnCourse (self : Rules) (state : RulesState Name) : Prop :=
  ∀ call ∈ state.calls, call.OnCourse self

theorem RulesState.AllOnCourse.step {self : Rules} {state next : RulesState Name}
    {event : RulesEvent Name} (onCourse : state.AllOnCourse self)
    (stepped : state.step self event = some next) : next.AllOnCourse self := by
  have replaced : ∀ {index : Nat} {call after : RuleCall Name} {exchange : RuleExchange Name},
      state.calls[index]? = some call → call.Follows after exchange →
      ∀ other ∈ state.calls.set index after, other.OnCourse self := by
    intro index call after exchange found follows other member
    rcases List.mem_or_eq_of_mem_set member with before | rfl
    · exact onCourse other before
    · exact follows.onCourse (onCourse call (List.mem_of_getElem? found))
  cases RulesState.moves_of_step stepped with
  | waits elapsed => exact onCourse
  | begins ctx =>
      intro call member
      rcases List.mem_append.mp member with before | new
      · exact onCourse call before
      · rw [List.mem_singleton.mp new]
        exact .start
  | hears index call after upstream msg told found follows => exact replaced found follows
  | reads index call after key found follows => exact replaced found follows
  | stores index call after key resp cache found follows stored => exact replaced found follows
  | evicts key => exact onCourse

theorem allOnCourse_of_run {self : Rules} {state : RulesState Name}
    (run : (rulesMachine Name self).Run (.start Name) state) : state.AllOnCourse self :=
  run.invariant (fun _ none => nomatch none) fun onCourse _ stepped => onCourse.step stepped

theorem always_askHandle (self : Rules) (ctx : QueryContext Name) :
    Interaction.Always
      (fun transcript request => ∃ idx matched, self.route ctx = some (idx, matched) ∧
        Asks matched (self.rules.get idx).action transcript request)
      (fun transcript result => ∃ template : Option (Svcb Name),
        (∀ svcb, template = some svcb → ∃ domain, FromCache domain transcript svcb) ∧
        ∀ world : World Name, world.RepliesAs transcript →
          (∀ group domain, world.echTemplate group domain = template) →
            self.handle world ctx = result)
      [] (self.askHandle ctx) := by
  unfold Rules.askHandle Rules.handle
  cases routed : self.route ctx with
  | none => exact ⟨none, fun _ none => (nomatch none), fun _ _ _ => rfl⟩
  | some choice =>
      obtain ⟨idx, matched⟩ := choice
      exact always_askApplyRule.mono (fun _ _ asks => ⟨idx, matched, rfl, asks⟩)
        fun _ _ comesTo => comesTo

omit [NameApi Name] in
/-- If fewer than three were asked before each, there are three at most. -/
theorem length_upstreamReplies_le {transcript : List (RuleExchange Name)}
    (few : ∀ earlier exchange later, transcript = earlier ++ exchange :: later →
      ∀ upstream msg, exchange.1 = .query upstream msg → (upstreamReplies earlier).length < 3) :
    (upstreamReplies transcript).length ≤ 3 := by
  induction transcript using List.reverseRecOn with
  | nil => exact Nat.zero_le 3
  | append_singleton transcript last inductionHypothesis =>
      have before : (upstreamReplies transcript).length ≤ 3 := by
        apply inductionHypothesis
        intro earlier exchange later cut
        exact few earlier exchange (later ++ [last]) (by rw [cut]; simp)
      obtain ⟨request, reply⟩ := last
      rw [upstreamReplies_append, List.length_append]
      cases request with
      | query upstream msg => exact Nat.succ_le_of_lt (few transcript _ [] rfl upstream msg rfl)
      | getCached key => exact before
      | store key resp => exact before

theorem RuleCall.OnCourse.asked {self : Rules} {call : RuleCall Name}
    (onCourse : call.OnCourse self) {earlier later : List (RuleExchange Name)}
    {exchange : RuleExchange Name} (cut : call.transcript = earlier ++ exchange :: later) :
    ∃ idx matched, self.route call.ctx = some (idx, matched) ∧
      Asks matched (self.rules.get idx).action earlier exchange.1 :=
  (onCourse.always (always_askHandle self call.ctx)).2 earlier exchange later cut

/-! ### A forward that completes its answer -/

/-- Everything is forwarded, and completed with the template of `t`. -/
def completingRules : Rules :=
  .init
    [{ target := .MatchAll
       qtype := none
       action := .Forward "up".toList none [] true none (some ⟨"t".toList⟩) }]
    (by decide)

/-- A query that is answered without an ECH configuration, then the template, which is
stored and read again. -/
def completingEvents : List (RulesEvent LabelName) :=
  let owner : LabelName := ⟨["q".toList], true⟩
  let response (svcb : Svcb LabelName) : Message LabelName :=
    { Message.new 7 .response .query with answers := [.fromRdata owner 60 (.HTTPS svcb)] }
  let hinted : Svcb LabelName := ⟨1, ⟨[], true⟩, [(.ipv4Hint, .ipv4Hint [0x68100001#32])]⟩
  let template : Svcb LabelName := ⟨1, ⟨[], true⟩, [(.echConfigList, .other [9])]⟩
  [.query (.new (LabelName.ask owner .HTTPS) (List.cons_ne_nil _ _) ⟨"q".toList, .HTTPS⟩),
    .reply 0 (some (response hinted)), .access 0, .reply 0 (some (response template)),
    .access 0, .access 0]

theorem exists_completing_run :
    ∃ state, (rulesMachine LabelName completingRules).Run (.start LabelName) state ∧
      ∃ call ∈ state.calls, call.rest.isDone = true ∧ call.transcript.length = 5 := by
  have checked : ((rulesMachine LabelName completingRules).execWhile (fun _ _ => True)
      (.start LabelName) completingEvents).any (fun state => state.calls.any fun call =>
        call.rest.isDone && decide (call.transcript.length = 5)) = true := by
    decide +kernel
  obtain ⟨state, executed, done⟩ := (Option.any_eq_true _ _).mp checked
  obtain ⟨call, member, ends⟩ := List.any_eq_true.mp done
  obtain ⟨isDone, length⟩ := (Bool.and_eq_true _ _).mp ends
  exact ⟨state, .of_execWhile .refl executed, call, member, isDone, of_decide_eq_true length⟩

end Rsdns.Plugins
