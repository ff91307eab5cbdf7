import Mathlib.Data.Char
import Mathlib.Data.List.Lex
import Mathlib.Data.List.Sort
import Rsdns.Common.DomainTrie
import Rsdns.Plugins.Util
import Rsdns.Query

/-!
# Domain groups (`plugins/groups.rs`)

The first group, in the order of the configuration, whose trie holds the
queried name is the query's group.
-/

namespace Rsdns.Plugins

open Common

structure GroupConfig where
  name : Text
  domains : List Text
  skipCache : Bool
  skipBalance : Bool
  deriving DecidableEq

/-- The active trie of a group. -/
structure GroupTrie where
  trie : DomainSuffixTrie
  version : Nat
  entryCount : Nat

structure GroupState where
  name : Text
  skipCache : Bool
  skipBalance : Bool
  inlineDomains : List Text
  files : List Text
  current : GroupTrie
  lastFiles : Option (List Text)

def GroupState.buildFrom (cfg : GroupConfig) : GroupState where
  name := cfg.name
  skipCache := cfg.skipCache
  skipBalance := cfg.skipBalance
  inlineDomains := (cfg.domains.filter fun item => (filePath item).isNone).map trimWildcards
  files := cfg.domains.filterMap filePath
  current := { trie := .new, version := 0, entryCount := 0 }
  lastFiles := none

/-- The domain on a line: its first word, without `*.` in front. -/
def lineDomain (line : Text) : Option Text :=
  let line := lineContent line
  if line = [] ∨ line.head? = some '#' then none
  else
    let domain := trimWildcards (line.splitWhitespace.head?.getD line)
    if domain = [] then none else some domain

def parseDomainLines (content : Text) : List Text := content.lines.filterMap lineDomain

def buildGroupTrie (inlineDomains remote : List Text) (version : Nat) : GroupTrie where
  trie :=
    ((inlineDomains ++ remote).foldl (fun builder domain => builder.insert domain "hit".toList)
      DomainSuffixTrieBuilder.new).build
  version := version
  entryCount := (inlineDomains ++ remote).length

/-- The domains of all files, unless one cannot be read. -/
def readFileDomains (disk : Files) : List Text → Option (List Text)
  | [] => some []
  | path :: rest => do
      let content ← disk path
      let domains ← readFileDomains disk rest
      return parseDomainLines content ++ domains

def sortUnstable (domains : List Text) : List Text :=
  domains.insertionSort fun first second => first ≤ second

/-- Rebuild the trie if all files can be read and their domains have changed. -/
def reloadGroup (disk : Files) (state : GroupState) : GroupState :=
  match readFileDomains disk state.files with
  | none => state
  | some fileDomains =>
      let fingerprint := sortUnstable fileDomains
      if state.lastFiles = some fingerprint then state
      else
        { state with
          lastFiles := some fingerprint
          current := buildGroupTrie state.inlineDomains fileDomains (state.current.version + 1) }

namespace Groups

/-- A group as it starts; its trie stays empty if a file cannot be read. -/
def initState (disk : Files) (cfg : GroupConfig) : GroupState :=
  let state := GroupState.buildFrom cfg
  match readFileDomains disk state.files with
  | some domains => { state with current := buildGroupTrie state.inlineDomains domains 0 }
  | none => state

def init (disk : Files) (groups : List GroupConfig) : List GroupState :=
  groups.map (initState disk)

variable {Name : Type}

def handle (groups : List GroupState) (ctx : QueryContext Name) : Step × QueryContext Name :=
  match groups.find? fun state => (state.current.trie.lookup ctx.name).isSome with
  | some state =>
      (.continue,
        { ctx with
          group := some state.name
          skipCache := ctx.skipCache || state.skipCache
          skipBalance := ctx.skipBalance || state.skipBalance })
  | none => (.continue, ctx)

end Groups

end Rsdns.Plugins
