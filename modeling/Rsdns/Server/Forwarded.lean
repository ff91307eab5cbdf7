import Rsdns.Server.Freshness

/-!
# What a forward rule answers

A response that the rules stage labels as forwarded is what a forward rule made
of its upstream's answers, an empty one for a type that the rule denies, or a
failure.
-/

namespace Rsdns.Server

open Dns Plugins

variable {Name : Type} [NameApi Name]

/-- A query that a forward rule takes to its upstream. -/
structure Forwarded (Name : Type) where
  world : World Name
  ctx : QueryContext Name
  upstream : Text
  opts : ForwardOpts

namespace Forwarded

def question (self : Forwarded Name) : Query Name := self.ctx.question

def received (self : Forwarded Name) : Option (Message Name) :=
  self.world.upstream 0 self.upstream (withSubnet self.ctx.msg self.opts.subnet)

def response (self : Forwarded Name) : IoResult (Message Name) :=
  forwardQuery self.world self.ctx self.upstream self.opts

/-- The rule got this data from its upstream: in the answer to the query, in the answer to
the query for an alias in it, or as the template for HTTPS records. -/
inductive Gave (self : Forwarded Name) : RData Name → Prop where
  | direct (resp answer) (found : self.received = some resp) (member : answer ∈ resp.answers) :
      Gave self answer.data
  | resolved (resp cname asked resolved answer) (resolves : self.opts.resolveCname = true)
      (found : self.received = some resp) (last : lastCnameTarget resp.answers = some cname)
      (asks : makeQueryMsg (NameApi.toUtf8 cname) self.ctx.qtype = .ok asked)
      (answered : self.world.upstream 1 self.upstream (withSubnet asked self.opts.subnet) =
        some resolved)
      (member : answer ∈ resolved.answers) :
      Gave self answer.data
  | template (cf svcb) (completes : self.opts.cfEch = some cf)
      (found : self.world.echTemplate self.upstream cf.templateName = some svcb) :
      Gave self (.HTTPS svcb)

theorem gave_resolveCnames {self : Forwarded Name} {resp : Message Name}
    (resolves : self.opts.resolveCname = true) (found : self.received = some resp) :
    ∀ answer ∈ (resolveCnames self.world self.ctx self.upstream resp self.opts.subnet).answers,
      self.Gave answer.data := by
  have direct : ∀ answer ∈ resp.answers, self.Gave answer.data :=
    fun answer member => .direct resp answer found member
  unfold resolveCnames
  split
  · exact direct
  · next cname last =>
      split
      · intro answer member
        obtain ⟨kept, inRest, rfl⟩ := List.mem_map.mp member
        have inResp := List.mem_of_mem_drop inRest
        split
        · exact .direct resp kept found inResp
        · exact .direct resp kept found inResp
      · split
        · exact direct
        · next asked asks =>
            split
            · exact direct
            · next resolved answered =>
                split
                · intro answer member
                  obtain ⟨kept, inResolved, rfl⟩ := List.mem_map.mp member
                  exact .resolved resp cname asked resolved kept resolves found last asks answered
                    (List.mem_of_mem_filter inResolved)
                · exact direct

theorem gave_completeEch {self : Forwarded Name} {resp : Message Name}
    (given : ∀ answer ∈ resp.answers, self.Gave answer.data) :
    ∀ answer ∈ (completeEch self.world self.ctx self.upstream resp self.opts.cfEch).answers,
      self.Gave answer.data := by
  unfold completeEch
  split
  · exact given
  · next cf completes =>
      split
      · split
        · next svcb found =>
            intro answer member
            obtain ⟨kept, inResp, rfl⟩ := List.mem_map.mp member
            split
            · exact .template cf svcb completes found
            · exact given kept inResp
        · exact given
      · exact given

theorem gave_of_response {self : Forwarded Name} {response : Message Name}
    (returns : self.response = .ok response) :
    ∀ answer ∈ response.answers, self.Gave answer.data := by
  unfold Forwarded.response forwardQuery at returns
  split at returns
  · cases returns
  · next resp answered =>
      have found : self.received = some resp := answered
      dsimp only at returns
      have resolved : ∀ answer ∈ (if self.opts.resolveCname = true then
          resolveCnames self.world self.ctx self.upstream resp self.opts.subnet
          else resp).answers, self.Gave answer.data := by
        split
        · next resolves => exact gave_resolveCnames resolves found
        · exact fun answer member => .direct resp answer found member
      have completed := gave_completeEch resolved
      split at returns
      · cases returns
        intro answer member
        obtain ⟨kept, inResp, rfl⟩ := List.mem_map.mp member
        exact completed kept inResp
      · cases returns
        exact completed

end Forwarded

/-- The forward rule that takes the query to its upstream, if there is one. -/
def forwardedBy (self : Pipeline) (world : World Name) (ctx : QueryContext Name) :
    Option (Forwarded Name) :=
  match self.rules.route ctx with
  | none => none
  | some (idx, routed) =>
      match (self.rules.rules.get idx).action with
      | .Forward upstream ttl denyQtypes resolveCname subnet cfEch =>
          if denyQtypes.contains routed.qtype then none
          else
            some
              { world := world
                ctx := routed
                upstream := upstream
                opts :=
                  { ttl := ttl, resolveCname := resolveCname, subnet := subnet, cfEch := cfEch } }
      | _ => none

omit [NameApi Name] in
theorem question_of_forwardedBy {self : Pipeline} {world : World Name} {ctx : QueryContext Name}
    {forwarded : Forwarded Name} (takes : forwardedBy self world ctx = some forwarded) :
    forwarded.question = ctx.question := by
  unfold forwardedBy at takes
  split at takes
  · cases takes
  · next idx routed found =>
      obtain ⟨captures, rfl⟩ := route_writes found
      split at takes
      · split at takes
        · cases takes
        · cases takes
          rfl
      · cases takes

theorem answeredByUpstream_of_forwardedBy {self : Pipeline} {world : World Name}
    {ctx : QueryContext Name} {forwarded : Forwarded Name}
    (takes : forwardedBy self world ctx = some forwarded) {response : Message Name}
    (returns : forwarded.response = .ok response) : answeredByUpstream self world ctx = true := by
  unfold forwardedBy at takes
  split at takes
  · cases takes
  · next idx routed found =>
      split at takes
      · next upstream ttl denyQtypes resolveCname subnet cfEch isForwardRule =>
          obtain ⟨permits, same⟩ := Option.ite_none_left_eq_some.mp takes
          cases same
          have received : (world.upstream 0 upstream (withSubnet routed.msg subnet)).isSome =
              true := by
            unfold Forwarded.response forwardQuery at returns
            split at returns
            · cases returns
            · next resp answered => exact Option.isSome_iff_exists.mpr ⟨resp, answered⟩
          unfold answeredByUpstream
          rw [found]
          dsimp only
          rw [isForwardRule]
          dsimp only
          rw [received, Bool.and_true, Bool.not_eq_true']
          exact Bool.eq_false_iff.mpr permits
      · cases takes

/-- All that the rules stage leaves under a forward label. -/
inductive ForwardAnswer (self : Pipeline) (world : World Name) (ctx : QueryContext Name) :
    Message Name → Prop where
  | denied (msg) : ForwardAnswer self world ctx (buildNodata msg)
  | returned (forwarded response) (takes : forwardedBy self world ctx = some forwarded)
      (returns : forwarded.response = .ok response) : ForwardAnswer self world ctx response
  | failed (msg) : ForwardAnswer self world ctx (buildServfail msg)

theorem forwardAnswer_of_rulesStage {self : Pipeline} {world : World Name}
    {ctx : QueryContext Name}
    (forward : isForward (rulesStage self world .continue ctx).action = true) :
    ∃ built, (rulesStage self world .continue ctx).response = some built ∧
      ForwardAnswer self world ctx built := by
  have action : (rulesStage self world .continue ctx).action =
      (self.rules.handle world ctx).2.action := rfl
  have response : ∀ built, (self.rules.handle world ctx).2.response = some built →
      (rulesStage self world .continue ctx).response = some built := by
    intro built handled
    unfold rulesStage
    dsimp only
    rw [handled]
    rfl
  rw [action] at forward
  unfold Rules.handle at forward response
  cases found : self.rules.route ctx with
  | none =>
      rw [found] at forward
      dsimp only at forward
      rw [not_forward_respondWith (by decide) (by decide)] at forward
      cases forward
  | some choice =>
      obtain ⟨idx, routed⟩ := choice
      rw [found] at forward response
      dsimp only at forward response
      obtain ⟨upstream, ttl, denyQtypes, resolveCname, subnet, cfEch, isForwardRule, _⟩ :=
        applyRule_forward forward
      unfold applyRule at response
      rw [isForwardRule] at response
      dsimp only at response
      by_cases denies : denyQtypes.contains routed.qtype = true
      · rw [if_pos denies] at response
        exact ⟨_, response _ rfl, .denied routed.msg⟩
      · rw [if_neg denies] at response
        have takes : forwardedBy self world ctx = some
            { world := world, ctx := routed, upstream := upstream,
              opts := { ttl := ttl, resolveCname := resolveCname, subnet := subnet,
                        cfEch := cfEch } } := by
          unfold forwardedBy
          rw [found]
          dsimp only
          rw [isForwardRule]
          exact if_neg denies
        cases returned : forwardQuery world routed upstream
            { ttl := ttl, resolveCname := resolveCname, subnet := subnet, cfEch := cfEch } with
        | ok resp =>
            rw [returned] at response
            exact ⟨resp, response _ rfl, .returned _ resp takes returned⟩
        | error e =>
            rw [returned] at response
            exact ⟨_, response _ rfl, .failed routed.msg⟩

end Rsdns.Server
