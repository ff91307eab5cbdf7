import Rsdns.Plugins.Balance
import Rsdns.Plugins.RuleMatch
import Rsdns.Plugins.Util

/-!
# Rule actions (`plugins/rules.rs`)

The chosen rule blocks, rewrites or forwards the query or answers it through an
alias.  Upstream is outside: `World` holds its answers to one query's requests.
-/

namespace Rsdns.Plugins

open Common Dns

variable {Name : Type} [NameApi Name]

/-- What one query meets outside the server: the upstream's answers to its first
and to its second request, the ECH template it gets, and what balancing draws. -/
structure World (Name : Type) where
  upstream : Nat → Text → Message Name → Option (Message Name)
  echTemplate : Text → Text → Option (Svcb Name)
  chance : Chance

/-! ### Cloudflare ranges -/

def cloudflareIpv4Cidrs : List String :=
  ["173.245.48.0/20",
    "103.21.244.0/22",
    "103.22.200.0/22",
    "103.31.4.0/22",
    "141.101.64.0/18",
    "108.162.192.0/18",
    "190.93.240.0/20",
    "188.114.96.0/20",
    "197.234.240.0/22",
    "198.41.128.0/17",
    "162.158.0.0/15",
    "104.16.0.0/13",
    "104.24.0.0/14",
    "172.64.0.0/13",
    "131.0.72.0/22"]

structure Ipv4Cidr where
  net : Ipv4Addr
  prefixLen : Fin 33
  deriving DecidableEq

namespace Ipv4Cidr

/-- A `none` is a panic. -/
def parse (spec : Text) : Option Ipv4Cidr := do
  let (addr, bits) ← Text.splitOnce '/' spec
  let net ← IpText.parseIpv4Addr addr
  let bits ← Text.parseUnsigned 256 bits
  if short : bits < 33 then some { net := net, prefixLen := ⟨bits, short⟩ } else none

def contains (self : Ipv4Cidr) (ip : Ipv4Addr) : Bool :=
  ip &&& prefixMask 32 self.prefixLen == self.net &&& prefixMask 32 self.prefixLen

end Ipv4Cidr

def cloudflareCidrs : List Ipv4Cidr :=
  cloudflareIpv4Cidrs.filterMap fun spec => Ipv4Cidr.parse spec.toList

def isCloudflareIp (ip : Ipv4Addr) : Bool := cloudflareCidrs.any fun cidr => cidr.contains ip

/-! ### CNAME chains -/

inductive Resolved where
  | Address
  | Empty
  | Cname
  | Other
  deriving DecidableEq

def classifyResolved (resolved : Message Name) : Resolved :=
  match resolved.answers.head?.map Record.recordType with
  | none => .Empty
  | some .A => .Address
  | some .AAAA => .Address
  | some .CNAME => .Cname
  | some _ => .Other

def lastCnameIndex (answers : List (Record Name)) : Option Nat :=
  if answers.head?.map Record.recordType = some .CNAME then
    some ((answers.takeWhile fun record => record.recordType == .CNAME).length - 1)
  else none

def lastCnameTarget (answers : List (Record Name)) : Option Name := do
  let idx ← lastCnameIndex answers
  let record ← answers[idx]?
  match record.data with
  | .CNAME target => some target
  | _ => none

def chainCompletedWithAddress (answers : List (Record Name)) : Bool :=
  match lastCnameTarget answers,
      answers.reverse.find? fun record => record.recordType != .CNAME with
  | some target, some last =>
      last.recordType.isAddress && NameApi.eqIgnoreRoot target last.name
  | _, _ => false

def addressRecordsWithOwner (resolved : Message Name) (owner : Name) : List (Record Name) :=
  (resolved.answers.filter fun record => record.recordType.isAddress).map fun record =>
    { record with name := owner }

def collapseCompletedChain (answers : List (Record Name)) (owner : Name) :
    List (Record Name) :=
  let keepFrom := ((lastCnameIndex answers).map (· + 1)).getD 0
  (answers.drop keepFrom).map fun record =>
    if record.recordType.isAddress then { record with name := owner } else record

/-! ### Cloudflare ECH -/

def svcbHasEch (svcb : Svcb Name) : Bool :=
  svcb.svcParams.any fun param => param.1 == .echConfigList

def recordUsesCf (record : Record Name) : Bool :=
  match record.data with
  | .HTTPS svcb =>
      let inCf := svcb.svcParams.any fun param =>
        match param with
        | (.ipv4Hint, .ipv4Hint ips) => ips.any isCloudflareIp
        | _ => false
      inCf && !svcbHasEch svcb
  | _ => false

def cfEchReplacementHttps (records : List (Record Name)) (template : Svcb Name)
    (queryName : Name) : List (Record Name) :=
  records.map fun record =>
    if recordUsesCf record then Record.fromRdata queryName record.ttl (.HTTPS template)
    else record

def firstEchSvcbFromCache (records : List (CacheRecord Name)) : Option (Svcb Name) :=
  records.findSome? fun record =>
    match record with
    | .Https svcb => if svcbHasEch svcb then some svcb else none
    | _ => none

/-- The template for `domain` and the private cache it is kept in.  The outer
`none` is an abort. -/
def fetchEchTemplate (upstream : Text → Message Name → Option (Message Name))
    (asked answered : Nat) (cache : DnsCache Name) (group domain : Text) :
    Option (Option (Svcb Name) × DnsCache Name) :=
  let key : CacheKey := { name := domain, qtype := .HTTPS }
  match cache.getCached asked key with
  | .fresh entry => some (firstEchSvcbFromCache entry.records, cache)
  | .miss =>
      match makeQueryMsg domain .HTTPS with
      | .error _ => some (none, cache)
      | .ok templateMsg =>
          match upstream group templateMsg with
          | none => some (none, cache)
          | some resp =>
              (cacheUpstreamResponse cache answered key resp none).map fun cache =>
                match cache.getCached answered key with
                | .fresh entry => (firstEchSvcbFromCache entry.records, cache)
                | .miss => (none, cache)

/-! ### Actions -/

/-- Advertise a client subnet, unless the message already names one. -/
def applyEdns (msg : Message Name) (subnet : ClientSubnet) : Message Name :=
  match msg.edns with
  | none => { msg with edns := some { subnet := some subnet, options := [] } }
  | some edns =>
      if edns.subnet = none then { msg with edns := some { edns with subnet := some subnet } }
      else msg

def withSubnet (msg : Message Name) (subnet : Option ClientSubnet) : Message Name :=
  match subnet with
  | some subnet => applyEdns msg subnet
  | none => msg

def resolveCnames (world : World Name) (ctx : QueryContext Name) (upstream : Text)
    (resp : Message Name) (subnet : Option ClientSubnet) : Message Name :=
  match lastCnameTarget resp.answers with
  | none => resp
  | some cname =>
      if chainCompletedWithAddress resp.answers then
        { resp with answers := collapseCompletedChain resp.answers ctx.question.name }
      else
        match makeQueryMsg (NameApi.toUtf8 cname) ctx.qtype with
        | .error _ => resp
        | .ok targetMsg =>
            match world.upstream 1 upstream (withSubnet targetMsg subnet) with
            | none => resp
            | some resolved =>
                match classifyResolved resolved with
                | .Address =>
                    { resp with
                      answers := addressRecordsWithOwner resolved ctx.question.name }
                | _ => resp

structure ForwardOpts where
  ttl : Option UInt32
  resolveCname : Bool
  subnet : Option ClientSubnet
  cfEch : Option CfEch

/-- Replace the answers that lack an ECH configuration, if there are any and a
template can be had. -/
def completeEch (world : World Name) (ctx : QueryContext Name) (upstream : Text)
    (resp : Message Name) (cfEch : Option CfEch) : Message Name :=
  match cfEch with
  | none => resp
  | some cf =>
      if resp.answers.any recordUsesCf then
        match world.echTemplate upstream cf.templateName with
        | some template =>
            { resp with
              answers := cfEchReplacementHttps resp.answers template ctx.question.name }
        | none => resp
      else resp

def forwardQuery (world : World Name) (ctx : QueryContext Name) (upstream : Text)
    (opts : ForwardOpts) : IoResult (Message Name) :=
  match world.upstream 0 upstream (withSubnet ctx.msg opts.subnet) with
  | none => .error .upstream
  | some resp =>
      let resp := if opts.resolveCname then resolveCnames world ctx upstream resp opts.subnet
        else resp
      let resp := completeEch world ctx upstream resp opts.cfEch
      match opts.ttl with
      | some ttl => .ok (rewriteTtlInResponse resp ttl)
      | none => .ok resp

def handleCname (world : World Name) (ctx : QueryContext Name) (target : Text) (ttl : UInt32)
    (upstream : Text) (denyQtypes : List RecordType) : IoResult (Message Name) :=
  if denyQtypes.contains ctx.qtype then .ok (buildNodata ctx.msg)
  else do
    let target := substitutePlaceholders target ctx.captures
    let queryName := ctx.question.name
    let cnameName ← parseName target
    let cnameRecord := Record.fromRdata queryName ttl (.CNAME cnameName)
    let targetMsg ← makeQueryMsg target ctx.qtype
    match world.upstream 0 upstream targetMsg with
    | none => return { makeResponseBase ctx.msg with answers := [cnameRecord] }
    | some resp =>
        return { resp with
          metadata := { resp.metadata with id := ctx.msg.metadata.id }
          queries := ctx.msg.queries
          answers := resp.answers.map fun answer => { answer with name := queryName } }

/-- All that the CNAME action can answer. -/
inductive CnameAnswer (world : World Name) (ctx : QueryContext Name) (target : Text)
    (ttl : UInt32) (upstream : Text) (denyQtypes : List RecordType) : Message Name → Prop where
  | denied (denies : denyQtypes.contains ctx.qtype = true) :
      CnameAnswer world ctx target ttl upstream denyQtypes (buildNodata ctx.msg)
  | silent (permits : ¬ denyQtypes.contains ctx.qtype = true) (name : Name) (asked : Message Name)
      (asks : makeQueryMsg (substitutePlaceholders target ctx.captures) ctx.qtype = .ok asked)
      (unanswered : world.upstream 0 upstream asked = none) :
      CnameAnswer world ctx target ttl upstream denyQtypes
        { makeResponseBase ctx.msg with
          answers := [Record.fromRdata ctx.question.name ttl (.CNAME name)] }
  | answered (permits : ¬ denyQtypes.contains ctx.qtype = true) (asked resp : Message Name)
      (asks : makeQueryMsg (substitutePlaceholders target ctx.captures) ctx.qtype = .ok asked)
      (found : world.upstream 0 upstream asked = some resp) :
      CnameAnswer world ctx target ttl upstream denyQtypes
        { resp with
          metadata := { resp.metadata with id := ctx.msg.metadata.id }
          queries := ctx.msg.queries
          answers := resp.answers.map fun answer => { answer with name := ctx.question.name } }

theorem cnameAnswer_of_handleCname {world : World Name} {ctx : QueryContext Name} {target : Text}
    {ttl : UInt32} {upstream : Text} {denyQtypes : List RecordType} {response : Message Name}
    (handled : handleCname world ctx target ttl upstream denyQtypes = .ok response) :
    CnameAnswer world ctx target ttl upstream denyQtypes response := by
  unfold handleCname at handled
  split at handled
  · next denies =>
      cases handled
      exact .denied denies
  · next permits =>
      simp only [bind, Except.bind] at handled
      split at handled
      · cases handled
      · next name _ =>
          split at handled
          · cases handled
          · next asked asks =>
              split at handled
              · next unanswered =>
                  cases handled
                  exact .silent permits name asked asks unanswered
              · next resp found =>
                  cases handled
                  exact .answered permits asked resp asks found

def buildRewriteResponse (msg : Message Name) (name target : Text) (captures : List Text)
    (ttl : UInt32) : IoResult (Message Name) :=
  let qtype := msg.queries.head?.map Query.queryType
  if qtype = some .A ∨ qtype = some .ANY then
    let target := substitutePlaceholders target captures
    match IpText.parseIpv4Addr target with
    | none => .error (.invalidTarget target)
    | some ip => do
        let rrName ← parseName name
        return { makeResponseBase msg with answers := [Record.fromRdata rrName ttl (.A ip)] }
  else .ok (buildNodata msg)

def labelled (label upstream : Text) : Text := label ++ '(' :: upstream ++ [')']

/-- Respond with a built response, or with SERVFAIL under another label. -/
def respondWith (ctx : QueryContext Name) (built : IoResult (Message Name))
    (action failed : Text) : Step × QueryContext Name :=
  match built with
  | .ok resp => (.respond, { ctx with response := some resp, action := action })
  | .error _ => (.respond, { ctx with response := some (buildServfail ctx.msg), action := failed })

def applyRule (world : World Name) (ctx : QueryContext Name) (rule : Rule) :
    Step × QueryContext Name :=
  match rule.action with
  | .Block .NXDomain =>
      respondWith ctx (.ok (buildNxdomain ctx.msg)) "block-nxdomain".toList "block".toList
  | .Block .Poison =>
      respondWith ctx (buildPoison ctx.msg ctx.name ctx.qtype) "block-poison".toList
        "block".toList
  | .Cname target ttl upstream denyQtypes =>
      respondWith ctx (handleCname world ctx target ttl upstream denyQtypes) "cname".toList
        "cname".toList
  | .Forward upstream ttl denyQtypes resolveCname subnet cfEch =>
      if denyQtypes.contains ctx.qtype then
        respondWith ctx (.ok (buildNodata ctx.msg))
          (labelled "forward-nodata".toList upstream) (labelled "forward-nodata".toList upstream)
      else
        respondWith ctx
          (forwardQuery world ctx upstream
            { ttl := ttl, resolveCname := resolveCname, subnet := subnet, cfEch := cfEch })
          (labelled "forward".toList upstream) (labelled "forward-error".toList upstream)
  | .Rewrite target ttl =>
      respondWith ctx (buildRewriteResponse ctx.msg ctx.name target ctx.captures ttl)
        "rewrite".toList "rewrite".toList

def Rules.handle (self : Rules) (world : World Name) (ctx : QueryContext Name) :
    Step × QueryContext Name :=
  match self.route ctx with
  | some (idx, ctx) => applyRule world ctx (self.rules.get idx)
  | none => respondWith ctx (.ok (buildNxdomain ctx.msg)) "nxdomain".toList "servfail".toList

end Rsdns.Plugins
