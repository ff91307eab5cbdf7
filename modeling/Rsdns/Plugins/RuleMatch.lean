import Mathlib.Data.List.FinRange
import Rsdns.Common.DomainTrie
import Rsdns.Query

/-!
# Rule targets and routing (`plugins/rules.rs`)

Rules stand in the order of the configuration.  The domains listed inline are
gathered in a trie that is asked before the rules are tried in order.
-/

namespace Rsdns.Plugins

open Common Dns

/-- A literal suffix behind placeholders; `{1}` is the label next to the suffix. -/
structure TemplatePattern where
  suffix : Text
  placeholders : List UInt32
  deriving DecidableEq

inductive MatchTarget where
  | MatchAll
  | Group (name : Text)
  | InlineDomains (domains : List Text)
  | Template (patterns : List TemplatePattern)
  deriving DecidableEq

inductive BlockResponse where
  | NXDomain
  | Poison
  deriving DecidableEq

structure CfEch where
  templateName : Text
  deriving DecidableEq

inductive RuleAction where
  | Block (response : BlockResponse)
  | Cname (target : Text) (ttl : UInt32) (upstream : Text) (denyQtypes : List RecordType)
  | Forward (upstream : Text) (ttl : Option UInt32) (denyQtypes : List RecordType)
      (resolveCname : Bool) (subnet : Option ClientSubnet) (cfEch : Option CfEch)
  | Rewrite (target : Text) (ttl : UInt32)
  deriving DecidableEq

structure Rule where
  target : MatchTarget
  qtype : Option RecordType
  action : RuleAction
  deriving DecidableEq

def suffixMatch (pattern domain : Text) : Bool :=
  let pattern := Text.trimEndMatches '.' pattern
  let domain := Text.trimEndMatches '.' domain
  domain == pattern || ('.' :: pattern).isSuffixOf domain

theorem suffixMatch_iff (pattern domain : Text) :
    suffixMatch pattern domain = true ↔
      LabelKey.Covers '.' (Text.trimEndMatches '.' pattern) (Text.trimEndMatches '.' domain) := by
  simp only [suffixMatch, LabelKey.Covers, Bool.or_eq_true, beq_iff_eq, List.isSuffixOf_iff_suffix]
  refine or_congr_right ?_
  simp only [List.IsSuffix, eq_comm]

def suffixMatchAny (domains : List Text) (domain : Text) : Bool :=
  domains.any fun pattern => suffixMatch pattern domain

/-- The label a placeholder stands for, counted from the back. -/
def capture (labels : List Text) (placeholder : UInt32) : Option Text :=
  let count := labels.length % 2 ^ 32
  if placeholder.toNat ≤ count then
    (labels[count - placeholder.toNat]?).filter fun label =>
      label ≠ [] && !label.contains '.'
  else none

theorem capture_eq_some_iff {labels : List Text} {placeholder : UInt32} {label : Text} :
    capture labels placeholder = some label ↔
      placeholder.toNat ≤ labels.length % 2 ^ 32 ∧
        labels[labels.length % 2 ^ 32 - placeholder.toNat]? = some label ∧
          label ≠ [] ∧ '.' ∉ label := by
  unfold capture
  simp [Option.filter_eq_some_iff]

def templateMatch (template : TemplatePattern) (domain : Text) : Option (List Text) := do
  let domain := Text.trimEndMatches '.' domain
  let suffix := Text.trimEndMatches '.' template.suffix
  let front ← Text.stripSuffix suffix domain
  let rest ← Text.stripSuffix ['.'] front
  if rest = [] then none else template.placeholders.mapM (capture (rest.splitOn '.'))

theorem templateMatch_eq_some_iff {template : TemplatePattern} {domain : Text}
    {captures : List Text} :
    templateMatch template domain = some captures ↔
      ∃ rest, rest ≠ [] ∧
        Text.trimEndMatches '.' domain =
          rest ++ '.' :: Text.trimEndMatches '.' template.suffix ∧
        template.placeholders.mapM (capture (rest.splitOn '.')) = some captures := by
  simp only [templateMatch, Option.bind_eq_bind, Option.bind_eq_some_iff,
    Text.stripSuffix_eq_some_iff, Option.ite_none_left_eq_some]
  constructor
  · rintro ⟨_, whole, rest, rfl, nonempty, captured⟩
    exact ⟨rest, nonempty, by simpa using whole, captured⟩
  · rintro ⟨rest, nonempty, whole, captured⟩
    exact ⟨rest ++ ['.'], by simpa using whole, rest, rfl, nonempty, captured⟩

theorem mapM_eq_some_iff {Item Result : Type} {read : Item → Option Result} {items : List Item}
    {results : List Result} : items.mapM read = some results ↔ items.map read = results.map some := by
  induction items generalizing results with
  | nil => cases results <;> simp
  | cons item items inductionHypothesis =>
      simp only [List.mapM_cons, Option.bind_eq_bind, Option.bind_eq_some_iff, List.map_cons,
        inductionHypothesis]
      constructor
      · rintro ⟨result, isFirst, rest, areRest, same⟩
        cases same
        rw [List.map_cons, isFirst, areRest]
      · intro same
        cases results with
        | nil => cases same
        | cons result rest =>
            obtain ⟨isFirst, areRest⟩ := List.cons_eq_cons.mp same
            exact ⟨result, isFirst, rest, areRest, rfl⟩

/-- One token after the other, as many as the fuel allows. -/
def substituteFrom (captures : List Text) : Nat → Text → Text
  | 0, rest => rest
  | fuel + 1, rest =>
      match Text.splitOnce '{' rest with
      | none => rest
      | some (literal, after) =>
          match Text.splitOnce '}' after with
          | none => rest
          | some (inner, rest) =>
              let substituted :=
                match Text.parseUnsigned (2 ^ 32) inner with
                | some n => if n ≥ 1 then captures[n - 1]? else none
                | none => none
              literal ++ substituted.getD ('{' :: inner ++ ['}']) ++
                substituteFrom captures fuel rest

/-- Every token takes two braces, so the length of the text is fuel enough. -/
def substitutePlaceholders (text : Text) (captures : List Text) : Text :=
  substituteFrom captures text.length text

namespace Rule

variable {Name : Type}

def qtypeMatches (self : Rule) (qtype : RecordType) : Bool :=
  match self.qtype with
  | none => true
  | some expected => expected == .ANY || expected == qtype

/-- The context with the captures of the match, if the rule accepts the query. -/
def matchesQuery (self : Rule) (ctx : QueryContext Name) : Option (QueryContext Name) :=
  if !self.qtypeMatches ctx.qtype then none
  else
    match self.target with
    | .MatchAll => some ctx
    | .Group name => if ctx.group = some name then some ctx else none
    | .InlineDomains domains => if suffixMatchAny domains ctx.name then some ctx else none
    | .Template patterns =>
        (patterns.findSome? fun template => templateMatch template ctx.name).map fun caps =>
          { ctx with captures := caps }

end Rule

/-- The domains of the inline rules, each tagged with the number of its rule, and
those numbers in order. -/
structure InlineTrie (count : Nat) where
  trie : DomainSuffixTrie
  tagToIdx : List (Fin count)

def inlineDomains (rule : Rule) : Option (List Text) :=
  match rule.target with
  | .InlineDomains domains => some domains
  | _ => none

def insertRule (rules : List Rule) (tables : DomainSuffixTrieBuilder × List (Fin rules.length))
    (idx : Fin rules.length) : DomainSuffixTrieBuilder × List (Fin rules.length) :=
  match inlineDomains (rules.get idx) with
  | some domains =>
      (domains.foldl (fun builder domain => builder.insert domain (Text.ofNat idx)) tables.1,
        tables.2 ++ [idx])
  | none => tables

def buildInlineTrie (rules : List Rule) : Option (InlineTrie rules.length) :=
  let (builder, tagToIdx) :=
    (List.finRange rules.length).foldl (insertRule rules) (DomainSuffixTrieBuilder.new, [])
  if tagToIdx = [] then none else some { trie := builder.build, tagToIdx := tagToIdx }

/-- The rules with their trie.  A vector is never longer than a machine word counts. -/
structure Rules where
  rules : List Rule
  bounded : rules.length < usizeBound
  inlineTrie : Option (InlineTrie rules.length)
  built : inlineTrie = buildInlineTrie rules

namespace Rules

def init (rules : List Rule) (bounded : rules.length < usizeBound) : Rules where
  rules := rules
  bounded := bounded
  inlineTrie := buildInlineTrie rules
  built := rfl

def inlineHit (self : Rules) (domain : Text) : Option (Fin self.rules.length) := do
  let trie ← self.inlineTrie
  let tag ← trie.trie.lookup domain
  let position ← Text.parseUnsigned usizeBound tag
  trie.tagToIdx[position]?

variable {Name : Type}

/-- Try the rules in order. -/
def scan (self : Rules) (ctx : QueryContext Name) :
    Option (Fin self.rules.length × QueryContext Name) :=
  (List.finRange self.rules.length).findSome? fun idx =>
    ((self.rules.get idx).matchesQuery ctx).map fun matched => (idx, matched)

/-- The rule to apply and the context it is applied in. -/
def route (self : Rules) (ctx : QueryContext Name) :
    Option (Fin self.rules.length × QueryContext Name) :=
  match self.inlineHit ctx.name with
  | some idx =>
      if (self.rules.get idx).qtypeMatches ctx.qtype then some (idx, ctx) else self.scan ctx
  | none => self.scan ctx

end Rules

end Rsdns.Plugins
