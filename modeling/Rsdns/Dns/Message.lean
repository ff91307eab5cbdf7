import Rsdns.Library.IpText

/-!
# DNS messages

The part of the wire library's data that the server reads or passes on.
Domain names are abstract: `NameApi` lists the operations the server calls,
and every result about the server holds for any such library.  What the
results need of it is stated where they need it.
-/

namespace Rsdns.Dns

/-- The operations on domain names that the server takes from the wire library.
Both parsers are partial. -/
class NameApi (Name : Type) where
  root : Name
  toAscii : Name → Text
  toUtf8 : Name → Text
  toLowercase : Name → Name
  fromUtf8 : Text → Option Name
  fromAscii : Text → Option Name
  eqIgnoreRoot : Name → Name → Bool

abbrev Ipv4Addr := BitVec 32

abbrev Ipv6Addr := BitVec 128

inductive IpAddr where
  | v4 (ip : Ipv4Addr)
  | v6 (ip : Ipv6Addr)
  deriving DecidableEq

def IpAddr.parse : Text → Option IpAddr :=
  IpText.parseWith fun text =>
    ((IpText.readIpv4Addr text).map fun (ip, rest) => (IpAddr.v4 ip, rest)).orElse fun _ =>
      (IpText.readIpv6Addr text).map fun (ip, rest) => (IpAddr.v6 ip, rest)

inductive RecordType where
  | A
  | AAAA
  | ANY
  | CNAME
  | HTTPS
  | MX
  | TXT
  | other (code : UInt16)
  deriving DecidableEq

def RecordType.isAddress (type : RecordType) : Bool := type == .A || type == .AAAA

inductive DnsClass where
  | IN
  | other (code : UInt16)
  deriving DecidableEq

inductive SvcParamKey where
  | ipv4Hint
  | echConfigList
  | other (code : UInt16)
  deriving DecidableEq

inductive SvcParamValue where
  | ipv4Hint (ips : List Ipv4Addr)
  | other (bytes : List UInt8)
  deriving DecidableEq

structure Svcb (Name : Type) where
  svcPriority : UInt16
  targetName : Name
  svcParams : List (SvcParamKey × SvcParamValue)
  deriving DecidableEq

/-- Record data; `other` is the data of a type without a name here. -/
inductive RData (Name : Type) where
  | A (ip : Ipv4Addr)
  | AAAA (ip : Ipv6Addr)
  | CNAME (target : Name)
  | HTTPS (svcb : Svcb Name)
  | MX (preference : UInt16) (exchange : Name)
  | TXT (txtData : List (List UInt8))
  | other (code : UInt16) (bytes : List UInt8)
  deriving DecidableEq

structure Record (Name : Type) where
  name : Name
  dnsClass : DnsClass
  ttl : UInt32
  data : RData Name
  deriving DecidableEq

structure Query (Name : Type) where
  name : Name
  queryType : RecordType
  queryClass : DnsClass
  deriving DecidableEq

inductive MessageType where
  | query
  | response
  deriving DecidableEq

inductive OpCode where
  | query
  | status
  | notify
  | update
  | other (code : UInt8)
  deriving DecidableEq

inductive ResponseCode where
  | NoError
  | FormErr
  | ServFail
  | NXDomain
  | NotImp
  | Refused
  | other (code : UInt16)
  deriving DecidableEq

structure Metadata where
  id : UInt16
  messageType : MessageType
  opCode : OpCode
  authoritative : Bool
  truncation : Bool
  recursionDesired : Bool
  recursionAvailable : Bool
  authenticData : Bool
  checkingDisabled : Bool
  responseCode : ResponseCode
  deriving DecidableEq

structure ClientSubnet where
  addr : IpAddr
  sourcePrefix : UInt8
  scopePrefix : UInt8
  deriving DecidableEq

/-- An OPT record: its client subnet, if any, and its other options. -/
structure Edns where
  subnet : Option ClientSubnet
  options : List (UInt16 × List UInt8)
  deriving DecidableEq

structure Message (Name : Type) where
  metadata : Metadata
  queries : List (Query Name)
  answers : List (Record Name)
  authorities : List (Record Name)
  additionals : List (Record Name)
  edns : Option Edns
  deriving DecidableEq

variable {Name : Type}

def RData.recordType : RData Name → RecordType
  | .A _ => .A
  | .AAAA _ => .AAAA
  | .CNAME _ => .CNAME
  | .HTTPS _ => .HTTPS
  | .MX _ _ => .MX
  | .TXT _ => .TXT
  | .other code _ => .other code

def Record.recordType (record : Record Name) : RecordType := record.data.recordType

def Record.fromRdata (name : Name) (ttl : UInt32) (data : RData Name) : Record Name :=
  ⟨name, .IN, ttl, data⟩

def Metadata.new (id : UInt16) (messageType : MessageType) (opCode : OpCode) : Metadata where
  id := id
  messageType := messageType
  opCode := opCode
  authoritative := false
  truncation := false
  recursionDesired := false
  recursionAvailable := false
  authenticData := false
  checkingDisabled := false
  responseCode := .NoError

/-- The header of a response: only the id, the opcode and the RD and CD bits are
taken from the request. -/
def Metadata.responseFromRequest (request : Metadata) : Metadata :=
  { Metadata.new request.id .response request.opCode with
    recursionDesired := request.recursionDesired
    checkingDisabled := request.checkingDisabled }

def Message.new (id : UInt16) (messageType : MessageType) (opCode : OpCode) : Message Name where
  metadata := Metadata.new id messageType opCode
  queries := []
  answers := []
  authorities := []
  additionals := []
  edns := none

def Message.setFirstName (self : Message Name) (name : Name) : Message Name :=
  match self.queries with
  | [] => self
  | query :: rest => { self with queries := { query with name := name } :: rest }

theorem Message.setFirstName_queries_ne_nil (self : Message Name) (name : Name)
    (asked : self.queries ≠ []) : (self.setFirstName name).queries ≠ [] := by
  unfold setFirstName
  cases asks : self.queries with
  | nil => exact absurd asks asked
  | cons query rest => exact List.cons_ne_nil _ _

theorem Message.setFirstName_head (self : Message Name) (name : Name)
    (asked : self.queries ≠ []) :
    (self.setFirstName name).queries.head (self.setFirstName_queries_ne_nil name asked) =
      { self.queries.head asked with name := name } := by
  cases self with
  | mk metadata queries answers authorities additionals edns =>
      cases queries with
      | nil => exact absurd rfl asked
      | cons query rest => rfl

/-- Where the server's fallible operations fail. -/
inductive IoError where
  | noQuestion
  | invalidName (text : Text)
  | invalidTarget (text : Text)
  | upstream
  deriving DecidableEq

abbrev IoResult := Except IoError

end Rsdns.Dns
