import Mathlib.Data.UInt
import Rsdns.Library.Utf8
import Rsdns.Plugins.DnsCache

/-!
# Responses, and their passage through the cache (`plugins/util.rs`)

The functions build responses from a request, turn an upstream response into a
cache entry and an entry back into a response.
-/

namespace Rsdns.Plugins

open Dns

/-- What the disk holds: the content of each file that can be read. -/
abbrev Files := Text → Option Text

/-- `trim_start_matches("*.")` -/
def trimWildcards : Text → Text
  | '*' :: '.' :: rest => trimWildcards rest
  | domain => domain

def filePath (entry : Text) : Option Text :=
  (Text.stripPrefix "file://".toList entry).orElse fun _ =>
    Text.stripPrefix "file:".toList entry

/-- A line without its comment and its outer white space. -/
def lineContent (line : Text) : Text :=
  match Text.splitOnce '#' line with
  | some (content, _) => content.trim
  | none => line.trim

theorem ioResult_map_eq_ok_iff {Value Result : Type} {result : IoResult Value}
    {build : Value → Result} {built : Result} :
    result.map build = .ok built ↔ ∃ value, result = .ok value ∧ build value = built := by
  cases result with
  | error failed => simp [Except.map]
  | ok value => simp [Except.map]

variable {Name : Type} [NameApi Name]

/-- Strict IDNA first, then the ASCII parser. -/
def parseName (name : Text) : IoResult Name :=
  match (NameApi.fromUtf8 name).orElse fun _ => NameApi.fromAscii name with
  | some parsed => .ok parsed
  | none => .error (.invalidName name)

def makeQueryMsg (name : Text) (qtype : RecordType) : IoResult (Message Name) :=
  (parseName name).map fun parsed =>
    let msg := Message.new 0 .query .query
    { msg with
      queries := [{ name := parsed, queryType := qtype, queryClass := .IN }]
      metadata := { msg.metadata with recursionDesired := true } }

omit [NameApi Name] in
def makeResponseBase (msg : Message Name) : Message Name :=
  let response : Message Name := Message.new msg.metadata.id .response .query
  { response with
    metadata :=
      { Metadata.responseFromRequest msg.metadata with recursionAvailable := true }
    queries := msg.queries.head?.toList }

omit [NameApi Name] in
def rewriteTtlInResponse (msg : Message Name) (ttl : UInt32) : Message Name :=
  { msg with answers := msg.answers.map fun answer => { answer with ttl := ttl } }

/-- The variant a record's data is cached in, if it has one. -/
def cacheRecord : RData Name → Option (CacheRecord Name)
  | .A ip => some (.A ip)
  | .AAAA ip => some (.Aaaa ip)
  | .CNAME target => some (.Cname (NameApi.toAscii target))
  | .MX preference exchange => some (.Mx preference (NameApi.toAscii exchange))
  | .TXT txtData => some (.Txt (txtData.map Utf8.decodeLossy))
  | .HTTPS svcb => some (.Https svcb)
  | .other _ _ => none

def extractCacheRecords (msg : Message Name) : Option (List (CacheRecord Name)) :=
  match msg.answers.filterMap fun answer => cacheRecord answer.data with
  | [] => none
  | records => some records

omit [NameApi Name] in
def extractMinTtl (msg : Message Name) : UInt32 :=
  (msg.answers.map Record.ttl).min?.getD 300

/-- The records and the TTL an upstream response is cached with, if it is. -/
def cacheable (response : Message Name) (rewriteTtl : Option UInt32) :
    Option (List (CacheRecord Name) × UInt32) :=
  let ttl := rewriteTtl.getD (extractMinTtl response)
  match extractCacheRecords response with
  | some records => some (records, ttl)
  | none =>
      match response.metadata.responseCode with
      | .NXDomain => some ([.NxDomain], ttl)
      | .NoError => some ([.NoData], ttl)
      | _ => none

def cacheUpstreamResponse (cache : DnsCache Name) (now : Nat) (cacheKey : CacheKey)
    (response : Message Name) (rewriteTtl : Option UInt32) : Option (DnsCache Name) :=
  match cacheable response rewriteTtl with
  | some (records, ttl) => cache.put now cacheKey records ttl
  | none => some cache

/-- The data a cached record is served as; the negative markers have none. -/
def CacheRecord.rdata : CacheRecord Name → IoResult (Option (RData Name))
  | .A ip => .ok (some (.A ip))
  | .Aaaa ip => .ok (some (.AAAA ip))
  | .Cname target => (parseName target).map fun name => some (.CNAME name)
  | .Mx preference exchange => (parseName exchange).map fun name => some (.MX preference name)
  | .Txt strings => .ok (some (.TXT (strings.map Utf8.encode)))
  | .Https svcb => .ok (some (.HTTPS svcb))
  | .NxDomain => .ok none
  | .NoData => .ok none

/-- The answers for the cached records, all owned by `owner`. -/
def rebuildAnswers (owner : Name) (ttl : UInt32) :
    List (CacheRecord Name) → IoResult (List (Record Name))
  | [] => .ok []
  | record :: rest => do
      let data ← record.rdata
      let answers ← rebuildAnswers owner ttl rest
      return (data.map (Record.fromRdata owner ttl)).toList ++ answers

/-- The response code an entry is served with: that of its first record, if it
is a negative marker. -/
def cachedResponseCode (records : List (CacheRecord Name)) (code : ResponseCode) :
    ResponseCode :=
  match records.head? with
  | some .NxDomain => .NXDomain
  | some .NoData => .NoError
  | _ => code

def buildResponseFromCache (msg : Message Name) (entry : CacheEntry Name) (keepTtl : Bool)
    (now : Nat) : IoResult (Message Name) :=
  let response := makeResponseBase msg
  match msg.queries.head? with
  | none => .error .noQuestion
  | some query => do
      let answers ← rebuildAnswers query.name (entry.remainingTtl keepTtl now) entry.records
      return { response with
        answers := answers
        metadata := { response.metadata with
          responseCode := cachedResponseCode entry.records response.metadata.responseCode } }

omit [NameApi Name] in
/-- The record a static address answers `qtype` with, if it is of that type. -/
def hostsRecord (owner : Name) (qtype : RecordType) : IpAddr → Option (Record Name)
  | .v4 ip => if qtype = .A ∨ qtype = .ANY then some (.fromRdata owner 300 (.A ip)) else none
  | .v6 ip =>
      if qtype = .AAAA ∨ qtype = .ANY then some (.fromRdata owner 300 (.AAAA ip)) else none

def buildHostsResponse (msg : Message Name) (name : Text) (qtype : RecordType)
    (ips : List IpAddr) : IoResult (Message Name) :=
  (parseName name).map fun rrName =>
    { makeResponseBase msg with answers := ips.filterMap (hostsRecord rrName qtype) }

omit [NameApi Name] in
def withResponseCode (msg : Message Name) (code : ResponseCode) : Message Name :=
  { msg with metadata := { msg.metadata with responseCode := code } }

omit [NameApi Name] in
def buildNxdomain (msg : Message Name) : Message Name :=
  withResponseCode (makeResponseBase msg) .NXDomain

/-- The unspecified address of each family that `qtype` asks for. -/
def buildPoison (msg : Message Name) (name : Text) (qtype : RecordType) :
    IoResult (Message Name) :=
  (parseName name).map fun rrName =>
    withResponseCode
      { makeResponseBase msg with
        answers := [IpAddr.v4 0, IpAddr.v6 0].filterMap (hostsRecord rrName qtype) }
      .NoError

omit [NameApi Name] in
def buildServfail (msg : Message Name) : Message Name :=
  withResponseCode (makeResponseBase msg) .ServFail

omit [NameApi Name] in
def buildNodata (msg : Message Name) : Message Name := makeResponseBase msg

omit [NameApi Name]

@[simp]
theorem makeResponseBase_answers (msg : Message Name) :
    (makeResponseBase msg).answers = [] := rfl

@[simp]
theorem makeResponseBase_responseCode (msg : Message Name) :
    (makeResponseBase msg).metadata.responseCode = .NoError := rfl

@[simp]
theorem makeResponseBase_queries (msg : Message Name) :
    (makeResponseBase msg).queries = msg.queries.head?.toList := rfl

@[simp]
theorem buildServfail_answers (msg : Message Name) : (buildServfail msg).answers = [] := rfl

@[simp]
theorem buildServfail_responseCode (msg : Message Name) :
    (buildServfail msg).metadata.responseCode = .ServFail := rfl

end Rsdns.Plugins
