import Rsdns.Plugins.Balance
import Rsdns.Plugins.Cache
import Rsdns.Plugins.Groups
import Rsdns.Plugins.Hosts
import Rsdns.Plugins.Rules

/-!
# The pipeline (`server.rs`)

A query passes hosts, groups and the cache lookup.  What none of them answers
goes to the rules; the answer is balanced, brought back under the queried name
and written back.
-/

namespace Rsdns.Server

open Dns Plugins

variable {Name : Type} [NameApi Name]

/-- The stages that do not change while the server runs. -/
structure Pipeline where
  rules : Rules
  balance : Balance

/-- The lowercase text of a name without dots at its end. -/
def keyName (name : Name) : Text :=
  Text.trimEndMatches '.' (NameApi.toAscii (NameApi.toLowercase name))

/-- A message that asks nothing is refused. -/
def openContext (msg : Message Name) : IoResult (QueryContext Name) :=
  if asked : msg.queries ≠ [] then
    let query := msg.queries.head asked
    .ok (.new msg asked { name := keyName query.name, qtype := query.queryType })
  else .error .noQuestion

def lookupStages (hosts : HostsTrie) (groups : List GroupState) (cache : Cache Name)
    (now : Nat) (ctx : QueryContext Name) : Step × QueryContext Name :=
  match Hosts.handle hosts ctx with
  | (.respond, ctx) => (.respond, ctx)
  | (.continue, ctx) => cache.lookup now (Groups.handle groups ctx).2

/-- The rules stage, for a query without an answer, and the fallback. -/
def rulesStage (self : Pipeline) (world : World Name) (step : Step) (ctx : QueryContext Name) :
    QueryContext Name :=
  let ctx :=
    match step with
    | .respond => ctx
    | .continue => (self.rules.handle world ctx).2
  { ctx with response := some (ctx.response.getD (buildServfail ctx.msg)) }

/-- The answer to a rewritten query is brought back under the queried name. -/
def restoreName (ctx : QueryContext Name) : QueryContext Name :=
  match ctx.originalName.bind NameApi.fromUtf8 with
  | none => { ctx with originalName := none }
  | some n =>
      { ctx with
        originalName := none
        response := ctx.response.map fun response =>
          { response.setFirstName n with
            answers := response.answers.map fun answer => { answer with name := n } } }

omit [NameApi Name] in
def setId (ctx : QueryContext Name) (id : UInt16) : QueryContext Name :=
  { ctx with
    response := ctx.response.map fun response =>
      { response with metadata := { response.metadata with id := id } } }

def answerStages (self : Pipeline) (world : World Name) (step : Step)
    (ctx : QueryContext Name) : QueryContext Name :=
  let ruled := rulesStage self world step ctx
  let balanced := (self.balance.handle world.chance ruled).2
  setId (restoreName balanced) ctx.msg.metadata.id

/-- One query from beginning to end, at one instant.  The outer `none` is an
abort. -/
def handleQuery (self : Pipeline) (hosts : HostsTrie) (groups : List GroupState)
    (cache : Cache Name) (now : Nat) (world : World Name) (msg : Message Name) :
    Option (IoResult (Option (Message Name)) × Cache Name) :=
  match openContext msg with
  | .error e => some (.error e, cache)
  | .ok ctx =>
      let (step, ctx) := lookupStages hosts groups cache now ctx
      let ctx := answerStages self world step ctx
      (cache.writeBack now ctx).map fun cache => (.ok ctx.response, cache)

end Rsdns.Server
