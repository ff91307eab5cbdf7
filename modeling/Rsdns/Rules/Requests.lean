import Mathlib.Data.List.Basic
import Rsdns.Rules.Traffic

/-!
# Which requests a rule makes, and what comes of the replies

Every request belongs to the action of the rule that the query is routed to, and comes at
its place: the query itself, the last target of a chain, the template's domain.  Whatever
is replied, the result is what the rule does in one step in a world with these replies.
-/

namespace Rsdns.Plugins

open Common Dns

variable {Name : Type} [NameApi Name]

/-! ### Places of requests -/

/-- A request that an action may make for a query, behind these exchanges. -/
inductive Permitted (ctx : QueryContext Name) :
    RuleAction → List (RuleExchange Name) → RuleRequest Name → Prop where
  | target {target ttl upstream denyQtypes msg}
      (permits : ¬ denyQtypes.contains ctx.qtype = true)
      (made : makeQueryMsg (substitutePlaceholders target ctx.captures) ctx.qtype = .ok msg) :
      Permitted ctx (.Cname target ttl upstream denyQtypes) [] (.query upstream msg)
  | first {upstream ttl denyQtypes resolveCname subnet cfEch}
      (permits : ¬ denyQtypes.contains ctx.qtype = true) :
      Permitted ctx (.Forward upstream ttl denyQtypes resolveCname subnet cfEch) []
        (.query upstream (withSubnet ctx.msg subnet))
  | followUp {upstream ttl denyQtypes subnet cfEch resp cname msg}
      (leads : lastCnameTarget resp.answers = some cname)
      (incomplete : ¬ chainCompletedWithAddress resp.answers = true)
      (made : makeQueryMsg (NameApi.toUtf8 cname) ctx.qtype = .ok msg) :
      Permitted ctx (.Forward upstream ttl denyQtypes true subnet cfEch)
        [.query upstream (withSubnet ctx.msg subnet) (some resp)]
        (.query upstream (withSubnet msg subnet))
  | lookup {upstream ttl denyQtypes resolveCname subnet cf transcript} :
      Permitted ctx (.Forward upstream ttl denyQtypes resolveCname subnet (some cf)) transcript
        (.getCached (templateKey cf.templateName))
  | template {upstream ttl denyQtypes resolveCname subnet cf transcript msg}
      (made : makeQueryMsg cf.templateName .HTTPS = .ok msg) :
      Permitted ctx (.Forward upstream ttl denyQtypes resolveCname subnet (some cf))
        (transcript ++ [.getCached (templateKey cf.templateName) .miss]) (.query upstream msg)
  | store {upstream ttl denyQtypes resolveCname subnet cf transcript msg resp}
      (made : makeQueryMsg cf.templateName .HTTPS = .ok msg) :
      Permitted ctx (.Forward upstream ttl denyQtypes resolveCname subnet (some cf))
        (transcript ++ [.query upstream msg (some resp)])
        (.store (templateKey cf.templateName) resp)

/-- The request is permitted, and an upstream is asked three times at most. -/
def Asks (ctx : QueryContext Name) (action : RuleAction) (transcript : List (RuleExchange Name))
    (request : RuleRequest Name) : Prop :=
  Permitted ctx action transcript request ∧
    ∀ upstream msg, request = .query upstream msg → (upstreamReplies transcript).length < 3

omit [NameApi Name] in
@[simp]
theorem upstreamReplies_nil : upstreamReplies ([] : List (RuleExchange Name)) = [] := rfl

omit [NameApi Name] in
@[simp]
theorem upstreamReplies_append (front back : List (RuleExchange Name)) :
    upstreamReplies (front ++ back) = upstreamReplies front ++ upstreamReplies back :=
  List.filterMap_append ..

omit [NameApi Name] in
@[simp]
theorem upstreamReplies_query (upstream : Text) (msg : Message Name)
    (reply : Option (Message Name)) :
    upstreamReplies [(⟨.query upstream msg, reply⟩ : RuleExchange Name)] = [reply] := rfl

omit [NameApi Name] in
@[simp]
theorem upstreamReplies_getCached (key : CacheKey) (found : CacheResult Name) :
    upstreamReplies [(⟨.getCached key, found⟩ : RuleExchange Name)] = [] := rfl

omit [NameApi Name] in
@[simp]
theorem upstreamReplies_store (key : CacheKey) (resp : Message Name) (stored : Unit) :
    upstreamReplies [(⟨.store key resp, stored⟩ : RuleExchange Name)] = [] := rfl

/-- A template that is not made up was read from the cache. -/
def FromCache (domain : Text) (transcript : List (RuleExchange Name)) (template : Svcb Name) :
    Prop :=
  ∃ entry, RuleExchange.getCached (templateKey domain) (.fresh entry) ∈ transcript ∧
    firstEchSvcbFromCache entry.records = some template

/-! ### Fetching a template -/

theorem always_askEchTemplate (self : Rules) (ctx : QueryContext Name) (upstream : Text)
    (cf : CfEch) {ttl : Option UInt32} {denyQtypes : List RecordType} {resolveCname : Bool}
    {subnet : Option ClientSubnet} {before : List (RuleExchange Name)}
    (few : (upstreamReplies before).length ≤ 2) :
    Interaction.Always
      (Asks ctx (.Forward upstream ttl denyQtypes resolveCname subnet (some cf)))
      (fun transcript template => before <+: transcript ∧
        ∀ svcb, template = some svcb → FromCache cf.templateName transcript svcb)
      before (askEchTemplate self upstream cf.templateName) := by
  have asksCache : ∀ transcript, Asks ctx
      (.Forward upstream ttl denyQtypes resolveCname subnet (some cf)) transcript
      (.getCached (templateKey cf.templateName)) := fun transcript =>
    ⟨.lookup, fun _ _ same => nomatch same⟩
  have fromCache : ∀ (transcript : List (RuleExchange Name)) (entry : CacheEntry Name) svcb,
      firstEchSvcbFromCache entry.records = some svcb →
      FromCache cf.templateName
        (transcript ++ [⟨.getCached (templateKey cf.templateName), .fresh entry⟩]) svcb :=
    fun transcript entry svcb found =>
      ⟨entry, List.mem_append_right _ List.mem_cons_self, found⟩
  unfold askEchTemplate
  split
  · refine ⟨asksCache before, fun found => ?_⟩
    cases found with
    | fresh entry => exact ⟨List.prefix_append _ _, fromCache before entry⟩
    | miss =>
        dsimp only
        split
        · exact ⟨List.prefix_append _ _, fun _ none => nomatch none⟩
        · next msg made =>
            refine ⟨⟨.template made, fun _ _ _ => ?_⟩, fun told => ?_⟩
            · simp only [upstreamReplies_append, upstreamReplies_getCached, List.append_nil]
              omega
            · cases told with
              | none =>
                  refine ⟨?_, fun _ none => nomatch none⟩
                  rw [List.append_assoc]
                  exact List.prefix_append _ _
              | some resp =>
                  refine ⟨⟨.store made, fun _ _ same => nomatch same⟩, fun _ =>
                    ⟨asksCache _, fun again => ?_⟩⟩
                  have longer : ∀ last : RuleExchange Name, before <+:
                      before ++ [⟨.getCached (templateKey cf.templateName), .miss⟩] ++
                        [⟨.query upstream msg, some resp⟩] ++
                        [⟨.store (templateKey cf.templateName) resp, ()⟩] ++ [last] := by
                    intro last
                    simp only [List.append_assoc]
                    exact List.prefix_append _ _
                  cases again with
                  | fresh entry => exact ⟨longer _, fromCache _ entry⟩
                  | miss => exact ⟨longer _, fun _ none => nomatch none⟩
  · exact ⟨List.prefix_refl _, fun _ none => nomatch none⟩

/-! ### Worlds with the same replies -/

/-- The world replies to the requests of the query as it was replied to them. -/
def World.RepliesAs (world : World Name) (transcript : List (RuleExchange Name)) : Prop :=
  ∀ number reply, (upstreamReplies transcript)[number]? = some reply →
    ∀ upstream msg, world.upstream number upstream msg = reply

omit [NameApi Name] in
theorem World.RepliesAs.of_prefix {world : World Name} {before after : List (RuleExchange Name)}
    (replies : world.RepliesAs after) (begins : before <+: after) : world.RepliesAs before := by
  intro number reply found
  obtain ⟨rest, rfl⟩ := begins
  apply replies number reply
  rw [upstreamReplies_append, List.getElem?_append_left, found]
  exact (List.getElem?_eq_some_iff.mp found).1

def worldOf (chance : Chance) (transcript : List (RuleExchange Name))
    (template : Option (Svcb Name)) : World Name where
  upstream number _ _ := ((upstreamReplies transcript)[number]?).join
  echTemplate _ _ := template
  chance := chance

omit [NameApi Name] in
theorem worldOf_repliesAs (chance : Chance) (transcript : List (RuleExchange Name))
    (template : Option (Svcb Name)) : (worldOf chance transcript template).RepliesAs transcript := by
  intro number reply found upstream msg
  change ((upstreamReplies transcript)[number]?).join = reply
  rw [found]
  rfl

/-! ### The steps of a forward -/

section Forward

variable {self : Rules} {ctx : QueryContext Name} {upstream : Text} {ttl : Option UInt32}
  {denyQtypes : List RecordType} {subnet : Option ClientSubnet} {cfEch : Option CfEch}
  {resp : Message Name}

theorem always_askResolveCnames :
    let before := [RuleExchange.query upstream (withSubnet ctx.msg subnet) (some resp)]
    Interaction.Always (Asks ctx (.Forward upstream ttl denyQtypes true subnet cfEch))
      (fun transcript result => before <+: transcript ∧ (upstreamReplies transcript).length ≤ 2 ∧
        ∀ world : World Name, world.RepliesAs transcript →
          resolveCnames world ctx upstream resp subnet = result)
      before (askResolveCnames ctx upstream resp subnet) := by
  intro before
  have stays : before <+: before ∧ (upstreamReplies before).length ≤ 2 :=
    ⟨List.prefix_refl _, Nat.le_succ 1⟩
  unfold askResolveCnames resolveCnames
  cases leads : lastCnameTarget resp.answers with
  | none => exact ⟨stays.1, stays.2, fun _ _ => rfl⟩
  | some cname =>
      dsimp only
      by_cases complete : chainCompletedWithAddress resp.answers = true
      · simp only [if_pos complete]
        exact ⟨stays.1, stays.2, fun _ _ => rfl⟩
      · simp only [if_neg complete]
        cases made : (makeQueryMsg (NameApi.toUtf8 cname) ctx.qtype : IoResult (Message Name)) with
        | error failed => exact ⟨stays.1, stays.2, fun _ _ => rfl⟩
        | ok targetMsg =>
            refine ⟨⟨.followUp leads complete made, fun _ _ _ => Nat.le_succ 2⟩, fun told => ?_⟩
            have asked : before <+: before ++ [⟨.query upstream (withSubnet targetMsg subnet), told⟩] :=
              List.prefix_append _ _
            have reply : ∀ world : World Name,
                world.RepliesAs
                  (before ++ [⟨.query upstream (withSubnet targetMsg subnet), told⟩]) →
                world.upstream 1 upstream (withSubnet targetMsg subnet) = told :=
              fun world replies => replies 1 told rfl _ _
            cases told with
            | none =>
                refine ⟨asked, Nat.le_refl 2, fun world replies => ?_⟩
                simp only [reply world replies]
            | some resolved =>
                dsimp only
                cases kind : classifyResolved resolved with
                | Address =>
                    refine ⟨asked, Nat.le_refl 2, fun world replies => ?_⟩
                    simp only [reply world replies, kind]
                | Empty | Cname | Other =>
                    refine ⟨asked, Nat.le_refl 2, fun world replies => ?_⟩
                    simp only [reply world replies, kind]

/-- Where a template comes from, for the action of a rule. -/
def TemplateFrom (cfEch : Option CfEch) (transcript : List (RuleExchange Name))
    (template : Option (Svcb Name)) : Prop :=
  ∀ svcb, template = some svcb → ∃ cf, cfEch = some cf ∧ FromCache cf.templateName transcript svcb

omit [NameApi Name] in
theorem templateFrom_none (cfEch : Option CfEch) (transcript : List (RuleExchange Name)) :
    TemplateFrom cfEch transcript none :=
  fun _ none => nomatch none

theorem always_askCompleteEch {resolveCname : Bool} {before : List (RuleExchange Name)}
    (few : (upstreamReplies before).length ≤ 2) :
    Interaction.Always (Asks ctx (.Forward upstream ttl denyQtypes resolveCname subnet cfEch))
      (fun transcript result => before <+: transcript ∧
        ∃ template, TemplateFrom cfEch transcript template ∧
          ∀ world : World Name, (∀ group domain, world.echTemplate group domain = template) →
            completeEch world ctx upstream resp cfEch = result)
      before (askCompleteEch self ctx upstream resp cfEch) := by
  cases cfEch with
  | none => exact ⟨List.prefix_refl _, none, templateFrom_none _ _, fun _ _ => rfl⟩
  | some cf =>
      unfold askCompleteEch completeEch
      dsimp only
      split
      · refine (always_askEchTemplate self ctx upstream cf few).bind ?_
        rintro transcript template ⟨begins, read⟩
        refine ⟨begins, template, fun svcb same => ⟨cf, rfl, read svcb same⟩, fun world given => ?_⟩
        cases template <;> simp only [given]
      · exact ⟨List.prefix_refl _, none, templateFrom_none _ _, fun _ _ => rfl⟩

theorem always_askForwardQuery {resolveCname : Bool}
    (permits : ¬ denyQtypes.contains ctx.qtype = true) :
    Interaction.Always (Asks ctx (.Forward upstream ttl denyQtypes resolveCname subnet cfEch))
      (fun transcript result => ∃ template, TemplateFrom cfEch transcript template ∧
        ∀ world : World Name, world.RepliesAs transcript →
          (∀ group domain, world.echTemplate group domain = template) →
            forwardQuery world ctx upstream ⟨ttl, resolveCname, subnet, cfEch⟩ = result)
      [] (askForwardQuery self ctx upstream ⟨ttl, resolveCname, subnet, cfEch⟩) := by
  refine ⟨⟨.first permits, fun _ _ _ => Nat.zero_lt_succ 2⟩, fun told => ?_⟩
  unfold forwardQuery
  cases told with
  | none =>
      refine ⟨none, templateFrom_none _ _, fun world replies _ => ?_⟩
      rw [replies 0 none rfl]
  | some resp =>
      let before : List (RuleExchange Name) :=
        [.query upstream (withSubnet ctx.msg subnet) (some resp)]
      -- What resolving comes to, whether it is wanted or not.
      have resolving : Interaction.Always
          (Asks ctx (.Forward upstream ttl denyQtypes resolveCname subnet cfEch))
          (fun transcript resolved => before <+: transcript ∧
            (upstreamReplies transcript).length ≤ 2 ∧
            ∀ world : World Name, world.RepliesAs transcript →
              (if resolveCname then resolveCnames world ctx upstream resp subnet else resp) =
                resolved)
          before
          (if resolveCname then askResolveCnames ctx upstream resp subnet else .done resp) := by
        cases resolveCname with
        | true => exact always_askResolveCnames
        | false => exact ⟨List.prefix_refl _, Nat.le_succ 1, fun _ _ => rfl⟩
      refine resolving.bind ?_
      rintro transcript resolved ⟨begins, few, resolves⟩
      refine (always_askCompleteEch few).bind ?_
      rintro later completed ⟨continues, template, read, completes⟩
      refine ⟨template, read, fun world replies given => ?_⟩
      have first : world.upstream 0 upstream (withSubnet ctx.msg subnet) = some resp :=
        replies.of_prefix (begins.trans continues) 0 (some resp) rfl _ _
      have second := resolves world (replies.of_prefix continues)
      dsimp only
      rw [first]
      dsimp only
      cases ttl <;> simp only [second, completes world given]

end Forward

theorem always_askHandleCname {ctx : QueryContext Name} {target upstream : Text} {ttl : UInt32}
    {denyQtypes : List RecordType} :
    Interaction.Always (Asks ctx (.Cname target ttl upstream denyQtypes))
      (fun transcript result => ∀ world : World Name, world.RepliesAs transcript →
        handleCname world ctx target ttl upstream denyQtypes = result)
      [] (askHandleCname ctx target ttl upstream denyQtypes) := by
  unfold askHandleCname handleCname
  by_cases denies : denyQtypes.contains ctx.qtype = true
  · simp only [if_pos denies]
    exact fun _ _ => rfl
  · simp only [if_neg denies]
    cases named : (parseName (substitutePlaceholders target ctx.captures) : IoResult Name) with
    | error failed => exact fun _ _ => rfl
    | ok cnameName =>
        dsimp only
        cases made : (makeQueryMsg (substitutePlaceholders target ctx.captures) ctx.qtype :
            IoResult (Message Name)) with
        | error failed => exact fun _ _ => rfl
        | ok targetMsg =>
            refine ⟨⟨.target denies made, fun _ _ _ => Nat.zero_lt_succ 2⟩, fun told => ?_⟩
            cases told with
            | none =>
                intro world replies
                simp only [bind, Except.bind, replies 0 none rfl]
                rfl
            | some resp =>
                intro world replies
                simp only [bind, Except.bind, replies 0 (some resp) rfl]
                rfl

/-- What a rule asks and what it comes to. -/
theorem always_askApplyRule {self : Rules} {ctx : QueryContext Name} {rule : Rule} :
    Interaction.Always (Asks ctx rule.action)
      (fun transcript result => ∃ template : Option (Svcb Name),
        (∀ svcb, template = some svcb → ∃ domain, FromCache domain transcript svcb) ∧
        ∀ world : World Name, world.RepliesAs transcript →
          (∀ group domain, world.echTemplate group domain = template) →
            applyRule world ctx rule = result)
      [] (askApplyRule self ctx rule) := by
  unfold askApplyRule applyRule
  cases rule.action with
  | Block response =>
      cases response <;>
        exact ⟨none, fun _ none => (nomatch none), fun _ _ _ => rfl⟩
  | Cname target ttl upstream denyQtypes =>
      refine always_askHandleCname.bind ?_
      intro transcript built agrees
      refine ⟨none, fun _ none => (nomatch none), fun world replies _ => ?_⟩
      dsimp only
      rw [agrees world replies]
  | Forward upstream ttl denyQtypes resolveCname subnet cfEch =>
      by_cases denies : denyQtypes.contains ctx.qtype = true
      · simp only [if_pos denies]
        exact ⟨none, fun _ none => (nomatch none), fun _ _ _ => rfl⟩
      · simp only [if_neg denies]
        refine (always_askForwardQuery denies).bind ?_
        rintro transcript built ⟨template, read, agrees⟩
        refine ⟨template, fun svcb same => ?_, fun world replies given => ?_⟩
        · obtain ⟨cf, _, found⟩ := read svcb same
          exact ⟨cf.templateName, found⟩
        · rw [agrees world replies given]
  | Rewrite target ttl => exact ⟨none, fun _ none => (nomatch none), fun _ _ _ => rfl⟩

end Rsdns.Plugins
