import Rsdns.Library.Interaction
import Rsdns.Plugins.Rules

/-!
# What a rule asks for (`plugins/rules.rs`)

A rule is applied in steps: it queries an upstream, and reads and writes the cache of ECH
templates, and between two steps other queries go on.  Each function that does so is given
with its requests.  What it comes to is what the function of one step says, for the replies
it got.
-/

namespace Rsdns.Plugins

open Common Dns

variable {Name : Type}

/-! ### Requests -/

inductive RuleRequest (Name : Type) where
  | query (upstream : Text) (msg : Message Name)
  | getCached (key : CacheKey)
  | store (key : CacheKey) (resp : Message Name)

namespace RuleRequest

/-- An upstream that cannot be asked or does not answer replies nothing. -/
abbrev Reply : RuleRequest Name → Type
  | .query _ _ => Option (Message Name)
  | .getCached _ => CacheResult Name
  | .store _ _ => Unit

end RuleRequest

abbrev RuleExchange (Name : Type) : Type := Exchange (RuleRequest Name) RuleRequest.Reply

namespace RuleExchange

def query (upstream : Text) (msg : Message Name) (reply : Option (Message Name)) :
    RuleExchange Name := ⟨.query upstream msg, reply⟩

def getCached (key : CacheKey) (found : CacheResult Name) : RuleExchange Name :=
  ⟨.getCached key, found⟩

theorem getCached_inj {key other : CacheKey} {found again : CacheResult Name}
    (same : getCached key found = getCached other again) : key = other ∧ found = again := by
  cases same
  exact ⟨rfl, rfl⟩

def upstreamReply : RuleExchange Name → Option (Option (Message Name))
  | ⟨.query _ _, reply⟩ => some reply
  | _ => none

end RuleExchange

def upstreamReplies (transcript : List (RuleExchange Name)) : List (Option (Message Name)) :=
  transcript.filterMap RuleExchange.upstreamReply

abbrev RuleTalk (Name Result : Type) : Type :=
  Interaction (RuleRequest Name) RuleRequest.Reply Result

/-- The cache of templates is there if any rule completes. -/
def Rules.hasEchCache (self : Rules) : Bool :=
  self.rules.any fun rule =>
    match rule.action with
    | .Forward _ _ _ _ _ (some _) => true
    | _ => false

def templateKey (domain : Text) : CacheKey := { name := domain, qtype := .HTTPS }

variable [NameApi Name]

/-! ### The functions with their requests -/

def askEchTemplate (self : Rules) (upstream domain : Text) : RuleTalk Name (Option (Svcb Name)) :=
  if self.hasEchCache then
    .ask (.getCached (templateKey domain)) fun found =>
      match found with
      | .fresh entry => .done (firstEchSvcbFromCache entry.records)
      | .miss =>
          match makeQueryMsg domain .HTTPS with
          | .error _ => .done none
          | .ok templateMsg =>
              .ask (.query upstream templateMsg) fun told =>
                match told with
                | none => .done none
                | some resp =>
                    .ask (.store (templateKey domain) resp) fun _ =>
                      .ask (.getCached (templateKey domain)) fun found =>
                        match found with
                        | .fresh entry => .done (firstEchSvcbFromCache entry.records)
                        | .miss => .done none
  else .done none

def askResolveCnames (ctx : QueryContext Name) (upstream : Text) (resp : Message Name)
    (subnet : Option ClientSubnet) : RuleTalk Name (Message Name) :=
  match lastCnameTarget resp.answers with
  | none => .done resp
  | some cname =>
      if chainCompletedWithAddress resp.answers then
        .done { resp with answers := collapseCompletedChain resp.answers ctx.question.name }
      else
        match makeQueryMsg (NameApi.toUtf8 cname) ctx.qtype with
        | .error _ => .done resp
        | .ok targetMsg =>
            .ask (.query upstream (withSubnet targetMsg subnet)) fun told =>
              match told with
              | none => .done resp
              | some resolved =>
                  match classifyResolved resolved with
                  | .Address =>
                      .done { resp with
                        answers := addressRecordsWithOwner resolved ctx.question.name }
                  | _ => .done resp

/-- Complete the answers if there is something to complete. -/
def askCompleteEch (self : Rules) (ctx : QueryContext Name) (upstream : Text)
    (resp : Message Name) : Option CfEch → RuleTalk Name (Message Name)
  | none => .done resp
  | some cf =>
      if resp.answers.any recordUsesCf then
        (askEchTemplate self upstream cf.templateName).map fun template =>
          match template with
          | some template =>
              { resp with
                answers := cfEchReplacementHttps resp.answers template ctx.question.name }
          | none => resp
      else .done resp

def askForwardQuery (self : Rules) (ctx : QueryContext Name) (upstream : Text)
    (opts : ForwardOpts) : RuleTalk Name (IoResult (Message Name)) :=
  .ask (.query upstream (withSubnet ctx.msg opts.subnet)) fun told =>
    match told with
    | none => .done (.error .upstream)
    | some resp =>
        let resolved := if opts.resolveCname then askResolveCnames ctx upstream resp opts.subnet
          else .done resp
        resolved.bind fun resp =>
          (askCompleteEch self ctx upstream resp opts.cfEch).map fun resp =>
            match opts.ttl with
            | some ttl => .ok (rewriteTtlInResponse resp ttl)
            | none => .ok resp

def askHandleCname (ctx : QueryContext Name) (target : Text) (ttl : UInt32) (upstream : Text)
    (denyQtypes : List RecordType) : RuleTalk Name (IoResult (Message Name)) :=
  if denyQtypes.contains ctx.qtype then .done (.ok (buildNodata ctx.msg))
  else
    let target := substitutePlaceholders target ctx.captures
    let queryName := ctx.question.name
    match parseName target with
    | .error failed => .done (.error failed)
    | .ok cnameName =>
        let cnameRecord := Record.fromRdata queryName ttl (.CNAME cnameName)
        match makeQueryMsg target ctx.qtype with
        | .error failed => .done (.error failed)
        | .ok targetMsg =>
            .ask (.query upstream targetMsg) fun told =>
              match told with
              | none => .done (.ok { makeResponseBase ctx.msg with answers := [cnameRecord] })
              | some resp =>
                  .done (.ok { resp with
                    metadata := { resp.metadata with id := ctx.msg.metadata.id }
                    queries := ctx.msg.queries
                    answers := resp.answers.map fun answer => { answer with name := queryName } })

def askApplyRule (self : Rules) (ctx : QueryContext Name) (rule : Rule) :
    RuleTalk Name (Step × QueryContext Name) :=
  match rule.action with
  | .Block .NXDomain =>
      .done (respondWith ctx (.ok (buildNxdomain ctx.msg)) "block-nxdomain".toList
        "block".toList)
  | .Block .Poison =>
      .done (respondWith ctx (buildPoison ctx.msg ctx.name ctx.qtype) "block-poison".toList
        "block".toList)
  | .Cname target ttl upstream denyQtypes =>
      (askHandleCname ctx target ttl upstream denyQtypes).map fun built =>
        respondWith ctx built "cname".toList "cname".toList
  | .Forward upstream ttl denyQtypes resolveCname subnet cfEch =>
      if denyQtypes.contains ctx.qtype then
        .done (respondWith ctx (.ok (buildNodata ctx.msg))
          (labelled "forward-nodata".toList upstream) (labelled "forward-nodata".toList upstream))
      else
        (askForwardQuery self ctx upstream
          { ttl := ttl, resolveCname := resolveCname, subnet := subnet, cfEch := cfEch }).map
          fun built =>
            respondWith ctx built (labelled "forward".toList upstream)
              (labelled "forward-error".toList upstream)
  | .Rewrite target ttl =>
      .done (respondWith ctx (buildRewriteResponse ctx.msg ctx.name target ctx.captures ttl)
        "rewrite".toList "rewrite".toList)

def Rules.askHandle (self : Rules) (ctx : QueryContext Name) :
    RuleTalk Name (Step × QueryContext Name) :=
  match self.route ctx with
  | some (idx, ctx) => askApplyRule self ctx (self.rules.get idx)
  | none =>
      .done (respondWith ctx (.ok (buildNxdomain ctx.msg)) "nxdomain".toList "servfail".toList)

end Rsdns.Plugins
