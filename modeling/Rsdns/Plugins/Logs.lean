import Rsdns.Library.IpPrinting
import Rsdns.Library.Utf8
import Rsdns.Plugins.DnsCache

/-!
# Query logging (`plugins/logs.rs`)

The template of the configuration is compiled into literal text and fields, and a line is
written for each query by going through the segments.
-/

namespace Rsdns.Plugins

open Dns

inductive Field where
  | Duration
  | Proto
  | Rcode
  | Name
  | QType
  | Port
  | Size
  | Action
  | Remote
  | Answers
  | Time
  deriving DecidableEq

namespace Field

def key : Field → Text
  | Duration => "duration".toList
  | Proto => "proto".toList
  | Rcode => "rcode".toList
  | Name => "name".toList
  | QType => "type".toList
  | Port => "port".toList
  | Size => "size".toList
  | Action => "action".toList
  | Remote => "remote".toList
  | Answers => "answers".toList
  | Time => "time".toList

def all : List Field :=
  [Duration, Proto, Rcode, Name, QType, Port, Size, Action, Remote, Answers, Time]

def parse (name : Text) : Option Field := all.find? fun field => name = field.key

theorem parse_eq_some_iff {name : Text} {field : Field} :
    parse name = some field ↔ name = field.key := by
  constructor
  · intro parsed
    simpa using List.find?_some parsed
  · rintro rfl
    cases field <;> rfl

end Field

inductive Segment where
  | text (literal : Text)
  | field (field : Field)
  deriving DecidableEq

structure CompiledTemplate where
  segments : List Segment
  deriving DecidableEq

/-- Literal text that is pending becomes a segment unless it is empty. -/
def flushText (segments : List Segment) (text : Text) : List Segment :=
  if text = [] then segments else segments ++ [.text text]

/-- The loop, with the segments made, the text that is pending and the rest. -/
def compileFrom : Nat → List Segment → Text → Text → List Segment
  | 0, segments, text, rest => flushText segments (text ++ rest)
  | fuel + 1, segments, text, rest =>
      match Text.splitOnce '{' rest with
      | none => flushText segments (text ++ rest)
      | some (literal, after) =>
          match Text.splitOnce '}' after with
          | some (inner, tail) =>
              match Field.parse inner with
              | some field =>
                  compileFrom fuel (flushText segments (text ++ literal) ++ [.field field]) [] tail
              | none => compileFrom fuel segments (text ++ literal ++ '{' :: inner ++ ['}']) tail
          | none => flushText segments (text ++ literal ++ '{' :: after)

/-- Every round takes two braces, so the length of the template is fuel enough. -/
def compileTemplate (template : Text) : CompiledTemplate where
  segments := compileFrom template.length [] [] template

/-! ### Lines -/

structure LocalTime where
  day : Nat
  month : Nat
  year : Nat
  hour : Nat
  minute : Nat
  second : Nat
  isNegative : Bool
  wholeHours : Nat
  minutesPastHour : Nat

/-- What libraries print: seconds with five digits behind the point, and record types.  The
calendar gives a local time for seconds since the epoch, as far as it goes. -/
structure Printing where
  seconds : Nat → Text
  recordType : RecordType → Text
  localTime : Nat → Option LocalTime

structure QueryLog where
  qtype : RecordType
  name : Text
  proto : Text
  remote : IpAddr
  port : UInt16
  size : Nat
  duration : Nat
  rcode : ResponseCode
  action : Text
  answers : Text
  time : Int

def padZero (width number : Nat) : Text := (Text.ofNat number).leftpad width '0'

/-- The time in nanoseconds since the epoch, or the placeholder if it cannot be told. -/
def formatTime (printing : Printing) (time : Int) : Text :=
  if time < 0 then "{time}".toList
  else
    match printing.localTime (time.toNat / Duration.second) with
    | none => "{time}".toList
    | some now =>
        padZero 2 now.day ++ '/' :: padZero 2 now.month ++ '/' :: padZero 4 now.year ++
          ':' :: padZero 2 now.hour ++ ':' :: padZero 2 now.minute ++ ':' :: padZero 2 now.second ++
          ' ' :: (if now.isNegative then '-' else '+') :: padZero 2 now.wholeHours ++
          padZero 2 now.minutesPastHour

def formatRcode : ResponseCode → Text
  | .NoError => "NOERROR".toList
  | .NXDomain => "NXDOMAIN".toList
  | .ServFail => "SERVFAIL".toList
  | .Refused => "REFUSED".toList
  | .FormErr => "FORMERR".toList
  | _ => "UNKNOWN".toList

namespace QueryLog

def value (self : QueryLog) (printing : Printing) : Field → Text
  | .Duration => printing.seconds self.duration
  | .Proto => self.proto
  | .Rcode => formatRcode self.rcode
  | .Name => self.name
  | .QType => printing.recordType self.qtype
  | .Port => Text.ofNat self.port.toNat
  | .Size => Text.ofNat self.size
  | .Action => self.action
  | .Remote =>
      match self.remote with
      | .v4 ip => IpText.ofIpv4Addr ip
      | .v6 ip => '[' :: IpText.ofIpv6Addr ip ++ [']']
  | .Answers => self.answers
  | .Time => formatTime printing self.time

/-- The bytes of all segments, one after the other. -/
def formatInto (self : QueryLog) (printing : Printing) (template : CompiledTemplate) :
    List UInt8 :=
  template.segments.foldl
    (fun out segment =>
      match segment with
      | .text literal => out ++ Utf8.encode literal
      | .field field => out ++ Utf8.encode (self.value printing field))
    []

def line (self : QueryLog) (printing : Printing) (template : CompiledTemplate) : List UInt8 :=
  self.formatInto printing template ++ [0x0a]

end QueryLog

end Rsdns.Plugins
