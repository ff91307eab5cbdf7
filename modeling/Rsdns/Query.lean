import Rsdns.Plugins.DnsCache

/-!
# The query context (`query.rs`)

One context is threaded through the fixed pipeline.  The fields that only the
query log and the metrics read are left out.
-/

namespace Rsdns

open Dns Plugins

/-- What a pipeline stage wants the caller to do next. -/
inductive Step where
  | continue
  | respond
  deriving DecidableEq

def Step.isRespond : Step → Bool
  | .continue => false
  | .respond => true

/-- The state of one query.  A context is only made for a message that asks
something. -/
structure QueryContext (Name : Type) where
  msg : Message Name
  asked : msg.queries ≠ []
  key : CacheKey
  skipCache : Bool
  skipBalance : Bool
  response : Option (Message Name)
  action : Text
  group : Option Text
  captures : List Text
  originalName : Option Text
  deriving DecidableEq

namespace QueryContext

variable {Name : Type}

def new (msg : Message Name) (asked : msg.queries ≠ []) (key : CacheKey) :
    QueryContext Name where
  msg := msg
  asked := asked
  key := key
  skipCache := false
  skipBalance := false
  response := none
  action := []
  group := none
  captures := []
  originalName := none

def name (self : QueryContext Name) : Text := self.key.name

def qtype (self : QueryContext Name) : RecordType := self.key.qtype

def question (self : QueryContext Name) : Query Name := self.msg.queries.head self.asked

/-- Rewrite the query target to `name`.  The key always takes the new name, the
question only one that `Name::from_utf8` accepts. -/
def rewriteName [NameApi Name] (self : QueryContext Name) (name : Text) :
    QueryContext Name :=
  let renamed := { self with key := { self.key with name := name } }
  match NameApi.fromUtf8 name with
  | some n =>
      { renamed with
        msg := self.msg.setFirstName n
        asked := self.msg.setFirstName_queries_ne_nil n self.asked }
  | none => renamed

end QueryContext

end Rsdns
