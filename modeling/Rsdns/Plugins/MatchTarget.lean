import Rsdns.Plugins.RuleMatch

/-!
# Match targets in text (`plugins/rules.rs`)

The `match` text of a rule is empty or `*`, names a group, lists domains or lists
templates.  An error keeps the text it complains about.
-/

namespace Rsdns.Plugins

inductive TargetError where
  | groupReference (text : Text)
  | placeholderNumber (template : Text)
  | placeholderZero (template : Text)
  | missingPlaceholder (template : Text)
  | missingSuffix (template : Text)
  | latePlaceholder (template : Text)
  | badSuffix (template : Text)
  | inlineDomain (domain text : Text)
  | emptyDomains (text : Text)
  deriving DecidableEq

/-- A nonempty run of ASCII letters, digits, `-` and `_` without `-` in front. -/
def isDomainLabel (label : Text) : Bool :=
  label ≠ [] && label.head? ≠ some '-' &&
    label.all fun char => char.isAlphanum || char == '-' || char == '_'

/-- The domain as it stands, if all its labels are good. -/
def validateDomain (text : Text) : Option Text :=
  if text = [] ∨ text.head? = some '.' ∨ text.getLast? = some '.' then none
  else if (text.splitOn '.').all isDomainLabel then some text
  else none

theorem eq_of_validateDomain {text domain : Text} (valid : validateDomain text = some domain) :
    domain = text := by
  unfold validateDomain at valid
  split at valid
  · cases valid
  · exact (Option.some.inj (Option.ite_none_right_eq_some.mp valid).2).symm

theorem validateDomain_ends {domain : Text} (valid : validateDomain domain = some domain) :
    domain ≠ [] ∧ domain.head? ≠ some '.' ∧ domain.getLast? ≠ some '.' := by
  unfold validateDomain at valid
  split at valid
  · cases valid
  · next good =>
      rw [not_or, not_or] at good
      exact good

/-! ### Letter case in domains -/

theorem isDomainLabel_toAsciiLowercase (label : Text) :
    isDomainLabel (Text.toAsciiLowercase label) = isDomainLabel label := by
  have chars : ∀ char : Char, char.isAlpha = true →
      (char.isAlphanum || char == '-' || char == '_') = true := by
    intro char letter
    simp [Char.isAlphanum, letter]
  have first := Text.head?_toAsciiLowercase (by decide : '-'.isAlpha = false) label
  have all : (Text.toAsciiLowercase label).all
      (fun char => char.isAlphanum || char == '-' || char == '_') =
      label.all fun char => char.isAlphanum || char == '-' || char == '_' := by
    simp only [Text.toAsciiLowercase, List.all_map]
    congr 1
    funext char
    exact Text.toLower_congr chars char
  have empty : Text.toAsciiLowercase label = [] ↔ label = [] := List.map_eq_nil_iff
  simp only [isDomainLabel, ne_eq, first, all, empty]

theorem isSome_validateDomain_toAsciiLowercase (text : Text) :
    (validateDomain (Text.toAsciiLowercase text)).isSome = (validateDomain text).isSome := by
  have noLetter : '.'.isAlpha = false := by decide
  have labels : ((Text.toAsciiLowercase text).splitOn '.').all isDomainLabel =
      (text.splitOn '.').all isDomainLabel := by
    rw [Text.splitOn_toAsciiLowercase noLetter, List.all_map]
    congr 1
    funext label
    exact isDomainLabel_toAsciiLowercase label
  have empty : Text.toAsciiLowercase text = [] ↔ text = [] := List.map_eq_nil_iff
  simp only [validateDomain, Text.head?_toAsciiLowercase noLetter,
    Text.getLast?_toAsciiLowercase noLetter, labels, empty]
  split
  · rfl
  · split <;> rfl

theorem validateDomain_of_sameLetters {text variant stored : Text}
    (same : Text.SameLetters text variant) (accepted : validateDomain text = some stored) :
    validateDomain variant = some variant := by
  have accepts : (validateDomain variant).isSome = true := by
    rw [← isSome_validateDomain_toAsciiLowercase, ← same,
      isSome_validateDomain_toAsciiLowercase, accepted]
    rfl
  obtain ⟨domain, valid⟩ := Option.isSome_iff_exists.mp accepts
  rw [valid, eq_of_validateDomain valid]

/-! ### The grammar -/

def parseInlineDomains (text : Text) : Except TargetError (List Text) := do
  let items := ((text.splitOn ',').map Text.trim).filter (· ≠ [])
  let domains ← items.mapM fun item =>
    match validateDomain item with
    | some domain => .ok domain
    | none => .error (.inlineDomain item text)
  if domains = [] then .error (.emptyDomains text) else .ok domains

/-- The placeholders in front, and the segments behind them. -/
def parsePlaceholders (template : Text) :
    List Text → Except TargetError (List UInt32 × List Text)
  | [] => .ok ([], [])
  | segment :: rest =>
      match (Text.stripPrefix ['{'] segment.trim).bind (Text.stripSuffix ['}']) with
      | none => .ok ([], segment :: rest)
      | some inner =>
          match Text.parseUnsigned (2 ^ 32) inner with
          | none => .error (.placeholderNumber template)
          | some 0 => .error (.placeholderZero template)
          | some number => do
              let (placeholders, segments) ← parsePlaceholders template rest
              return (UInt32.ofNat number :: placeholders, segments)

def parseTemplate (text : Text) : Except TargetError TemplatePattern := do
  let (placeholders, segments) ← parsePlaceholders text (text.splitOn '.')
  if placeholders = [] then .error (.missingPlaceholder text)
  else if segments = [] then .error (.missingSuffix text)
  else
    let suffix := ['.'].intercalate segments
    if suffix.contains '{' || suffix.contains '}' then .error (.latePlaceholder text)
    else
      match validateDomain suffix with
      | some suffix => .ok { suffix := suffix, placeholders := placeholders }
      | none => .error (.badSuffix text)

def parseMatchTarget (text : Text) : Except TargetError MatchTarget :=
  let text := text.trim
  if text = [] ∨ text = ['*'] then .ok .MatchAll
  else
    match Text.stripPrefix "group:".toList text with
    | some name =>
        if name = [] ∨ name.contains ',' ∨ name.contains '{' ∨ name.contains '}' then
          .error (.groupReference text)
        else .ok (.Group name)
    | none =>
        if text.contains '{' ∨ text.contains '}' then
          ((text.splitOn ',').mapM fun part => parseTemplate (Text.trim part)).map .Template
        else (parseInlineDomains text).map .InlineDomains

/-! ### What the grammar lets through -/

theorem validateDomain_idem {text domain : Text} (valid : validateDomain text = some domain) :
    validateDomain domain = some domain := by
  obtain rfl := eq_of_validateDomain valid
  exact valid

theorem mapM_cons_eq_ok_iff {Item Result Error : Type} {parse : Item → Except Error Result}
    {item : Item} {items : List Item} {results : List Result} :
    (item :: items).mapM parse = .ok results ↔
      ∃ result others, parse item = .ok result ∧ items.mapM parse = .ok others ∧
        results = result :: others := by
  rw [List.mapM_cons]
  cases parse item with
  | error error => simp [bind, Except.bind]
  | ok result =>
      cases items.mapM parse with
      | error error => simp [bind, Except.bind]
      | ok others => simp [bind, Except.bind, pure, Except.pure, eq_comm]

theorem forall_mem_of_mapM_ok {Item Result Error : Type} {parse : Item → Except Error Result}
    {property : Result → Prop} (sound : ∀ {item result}, parse item = .ok result → property result)
    {items : List Item} {results : List Result} (parsed : items.mapM parse = .ok results) :
    ∀ result ∈ results, property result := by
  induction items generalizing results with
  | nil =>
      cases parsed
      exact List.forall_mem_nil _
  | cons item items inductionHypothesis =>
      obtain ⟨result, others, first, rest, rfl⟩ := mapM_cons_eq_ok_iff.mp parsed
      exact List.forall_mem_cons.mpr ⟨sound first, inductionHypothesis rest⟩

theorem parseInlineDomains_valid {text : Text} {domains : List Text}
    (parsed : parseInlineDomains text = .ok domains) :
    domains ≠ [] ∧ ∀ domain ∈ domains, validateDomain domain = some domain := by
  simp only [parseInlineDomains, bind, Except.bind] at parsed
  split at parsed
  · cases parsed
  · rename_i found items
    split at parsed
    · cases parsed
    · rename_i nonempty
      cases parsed
      refine ⟨nonempty, forall_mem_of_mapM_ok ?_ items⟩
      intro item domain accepted
      split at accepted
      · rename_i valid
        cases accepted
        exact validateDomain_idem valid
      · cases accepted

theorem zero_not_mem_parsePlaceholders {template : Text} {segments rest : List Text}
    {placeholders : List UInt32}
    (parsed : parsePlaceholders template segments = .ok (placeholders, rest)) :
    0 ∉ placeholders := by
  induction segments generalizing placeholders with
  | nil =>
      cases parsed
      exact List.not_mem_nil
  | cons segment segments inductionHypothesis =>
      unfold parsePlaceholders at parsed
      split at parsed
      · cases parsed
        exact List.not_mem_nil
      · split at parsed
        · cases parsed
        · cases parsed
        · rename_i number nonzero numbered
          cases later : parsePlaceholders template segments with
          | error error => simp [later, bind, Except.bind] at parsed
          | ok found =>
              obtain ⟨others, left⟩ := found
              simp only [later, bind, Except.bind, pure, Except.pure, Except.ok.injEq,
                Prod.mk.injEq] at parsed
              obtain ⟨rfl, rfl⟩ := parsed
              rw [List.mem_cons, not_or]
              refine ⟨?_, inductionHypothesis later⟩
              intro wraps
              have value := congrArg UInt32.toNat wraps
              rw [UInt32.toNat_ofNat_of_lt' (Text.parseUnsigned_lt numbered)] at value
              exact nonzero value.symm

theorem parseTemplate_valid {text : Text} {pattern : TemplatePattern}
    (parsed : parseTemplate text = .ok pattern) :
    pattern.placeholders ≠ [] ∧ 0 ∉ pattern.placeholders ∧
      validateDomain pattern.suffix = some pattern.suffix := by
  cases front : parsePlaceholders text (text.splitOn '.') with
  | error error => simp [parseTemplate, front, bind, Except.bind] at parsed
  | ok found =>
      obtain ⟨placeholders, segments⟩ := found
      simp only [parseTemplate, front, bind, Except.bind] at parsed
      split at parsed
      · cases parsed
      · rename_i numbered
        split at parsed
        · cases parsed
        · split at parsed
          · cases parsed
          · split at parsed
            · rename_i valid
              cases parsed
              exact ⟨numbered, zero_not_mem_parsePlaceholders front, validateDomain_idem valid⟩
            · cases parsed

theorem parseMatchTarget_cases {text : Text} {target : MatchTarget}
    (parsed : parseMatchTarget text = .ok target) :
    target = .MatchAll ∨
    (∃ name, Text.stripPrefix "group:".toList text.trim = some name ∧
      ¬ (name = [] ∨ name.contains ',' ∨ name.contains '{' ∨ name.contains '}') ∧
      target = .Group name) ∨
    (∃ patterns, ((text.trim.splitOn ',').mapM fun part => parseTemplate (Text.trim part)) =
        .ok patterns ∧
      target = .Template patterns) ∨
    ∃ domains, parseInlineDomains text.trim = .ok domains ∧ target = .InlineDomains domains := by
  unfold parseMatchTarget at parsed
  simp only at parsed
  split at parsed
  · cases parsed
    exact .inl rfl
  · split at parsed
    · rename_i name stripped
      split at parsed
      · cases parsed
      · rename_i accepted
        cases parsed
        exact .inr (.inl ⟨name, stripped, accepted, rfl⟩)
    · split at parsed
      · cases templates : (text.trim.splitOn ',').mapM fun part => parseTemplate (Text.trim part) with
        | error error => simp [templates, Except.map] at parsed
        | ok patterns =>
            rw [templates] at parsed
            cases parsed
            exact .inr (.inr (.inl ⟨patterns, rfl, rfl⟩))
      · cases domains : parseInlineDomains text.trim with
        | error error => simp [domains, Except.map] at parsed
        | ok found =>
            rw [domains] at parsed
            cases parsed
            exact .inr (.inr (.inr ⟨found, rfl, rfl⟩))

end Rsdns.Plugins
