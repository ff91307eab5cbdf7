import Rsdns.Common.DomainTrie
import Rsdns.Plugins.Util
import Rsdns.Query

/-!
# Static host overrides (`plugins/hosts.rs`)

A trie maps each host to the number of its address list, or to the original
name it is an alias of.  The stage answers from an address list, the one of the
original included, and otherwise continues with the original name.
-/

namespace Rsdns.Plugins

open Common Dns

/-- Result of a hosts trie lookup. -/
inductive Lookup where
  | Ips (ips : List IpAddr)
  | Alias (original : Text)
  | Miss
  deriving DecidableEq

structure HostsTrie where
  trie : DomainSuffixTrie
  ips : List (List IpAddr)

/-- A numeric tag is the number of an address list, any other the original of an
alias. -/
def HostsTrie.lookup (self : HostsTrie) (domain : Text) : Lookup :=
  match self.trie.lookup domain with
  | some tag =>
      match Text.parseUnsigned usizeBound tag with
      | some idx =>
          match self.ips[idx]? with
          | some ips => .Ips ips
          | none => .Miss
      | none => .Alias tag
  | none => .Miss

/-- The tables of the builder; every number it hands out has an address list. -/
structure HostsTrieBuilder where
  builder : DomainSuffixTrieBuilder
  ips : List (List IpAddr)
  domainToIdx : Text → Option Nat
  listed : ∀ domain idx, domainToIdx domain = some idx → idx < ips.length

namespace HostsTrieBuilder

def new : HostsTrieBuilder where
  builder := .new
  ips := []
  domainToIdx _ := none
  listed := by simp

/-- The number of a domain's address list, which is made if there is none. -/
def entry (self : HostsTrieBuilder) (domain : Text) : Nat × HostsTrieBuilder :=
  match self.domainToIdx domain with
  | some idx => (idx, self)
  | none =>
      let idx := self.ips.length
      (idx,
        { builder := self.builder.insert domain (Text.ofNat idx)
          ips := self.ips ++ [[]]
          domainToIdx := Function.update self.domainToIdx domain (some idx)
          listed := by
            intro other otherIdx found
            rw [List.length_append]
            by_cases same : other = domain
            · subst same
              rw [Function.update_self, Option.some.injEq] at found
              subst found
              exact Nat.lt_succ_self _
            · rw [Function.update_of_ne same] at found
              exact Nat.lt_add_right _ (self.listed other otherIdx found) })

def insert (self : HostsTrieBuilder) (domain : Text) (ip : IpAddr) : HostsTrieBuilder :=
  let (idx, entered) := self.entry (trimWildcards domain)
  { entered with
    ips := entered.ips.modify idx fun entries => entries ++ [ip]
    listed := by
      intro other otherIdx found
      rw [List.length_modify]
      exact entered.listed other otherIdx found }

/-- `alias → original`: the tag is the original itself. -/
def insertAlias (self : HostsTrieBuilder) (aliasName original : Text) : HostsTrieBuilder :=
  { self with builder := self.builder.insert aliasName original }

def build (self : HostsTrieBuilder) : HostsTrie where
  trie := self.builder.build
  ips := self.ips

end HostsTrieBuilder

/-- The builder after an address line, a comment or an empty line; `none` for any
other line. -/
def parseHostsLine (builder : HostsTrieBuilder) (line : Text) : Option HostsTrieBuilder :=
  let line := lineContent line
  if line = [] ∨ line.head? = some '#' then some builder
  else
    match line.splitWhitespace with
    | first :: second :: rest =>
        (IpAddr.parse first).map fun ip =>
          (second :: rest).foldl (fun builder domain => builder.insert domain ip) builder
    | _ => none

/-- An alias line, unless its original is an address or a number. -/
def parseAliasLine (builder : HostsTrieBuilder) (line : Text) : HostsTrieBuilder :=
  let line := lineContent line
  if line = [] ∨ line.head? = some '#' then builder
  else
    match line.splitWhitespace with
    | original :: second :: rest =>
        if (IpAddr.parse original).isSome ∨
            (Text.parseUnsigned usizeBound original).isSome then builder
        else
          (second :: rest).foldl
            (fun builder aliasName =>
              if aliasName = original then builder else builder.insertAlias aliasName original)
            builder
    | _ => builder

def parseEntryLine (builder : HostsTrieBuilder) (line : Text) : HostsTrieBuilder :=
  match parseHostsLine builder line with
  | some consumed => consumed
  | none => parseAliasLine builder line

/-- The trie of the inline lines and the files' lines, in order.  A file that
cannot be read counts as empty. -/
def buildHostsTrie (files : Files) (entries : List Text) : HostsTrie :=
  let builder := entries.foldl
    (fun builder entry =>
      match filePath entry with
      | some path =>
          match files path with
          | some content => content.lines.foldl parseEntryLine builder
          | none => builder
      | none => parseEntryLine builder entry)
    HostsTrieBuilder.new
  builder.build

namespace Hosts

variable {Name : Type} [NameApi Name]

def respondData (ctx : QueryContext Name) (name : Text) (ips : List IpAddr) :
    Step × QueryContext Name :=
  let response :=
    match buildHostsResponse ctx.msg name ctx.qtype ips with
    | .ok resp => resp
    | .error _ => buildServfail ctx.msg
  (.respond, { ctx with response := some response, action := "hosts".toList })

/-- The alias branch, with what the original's own lookup gives. -/
def handleAlias (ctx : QueryContext Name) (original : Text) (found : Lookup) :
    Step × QueryContext Name :=
  match found with
  | .Ips ips => respondData ctx ctx.name ips
  | _ => (.continue, { ctx with originalName := some ctx.name }.rewriteName original)

/-- A static mapping answers under the queried name.  An alias whose original has
no addresses rewrites the query to the original. -/
def handle (trie : HostsTrie) (ctx : QueryContext Name) : Step × QueryContext Name :=
  match trie.lookup ctx.name with
  | .Miss => (.continue, ctx)
  | .Ips ips => respondData ctx ctx.name ips
  | .Alias original => handleAlias ctx original (trie.lookup original)

end Hosts

end Rsdns.Plugins
