import Rsdns.Library.LabelKey
import Rsdns.Plugins.MatchTarget

/-!
# Match targets and their text

A target that is accepted can be written down again, in one way of its own; and what is
written so is read back as the target it was.
-/

namespace Rsdns.Plugins

/-! ### Well-formed targets -/

structure IsGroupName (name : Text) : Prop where
  nonempty : name ≠ []
  noComma : ',' ∉ name
  noBrace : '{' ∉ name ∧ '}' ∉ name
  trimmed : ∀ char ∈ name.getLast?, Text.isWhitespace char = false

structure IsPattern (pattern : TemplatePattern) : Prop where
  numbered : pattern.placeholders ≠ []
  positive : ∀ number ∈ pattern.placeholders, 1 ≤ number
  suffix : validateDomain pattern.suffix = some pattern.suffix

/-- The targets that have a text. -/
def MatchTarget.Grammatical : MatchTarget → Prop
  | .MatchAll => True
  | .Group name => IsGroupName name
  | .InlineDomains domains =>
      domains ≠ [] ∧ ∀ domain ∈ domains, validateDomain domain = some domain
  | .Template patterns => patterns ≠ [] ∧ ∀ pattern ∈ patterns, IsPattern pattern

/-! ### Canonical texts -/

def placeholderText (number : UInt32) : Text := '{' :: Text.ofNat number.toNat ++ ['}']

def TemplatePattern.text (pattern : TemplatePattern) : Text :=
  ['.'].intercalate (pattern.placeholders.map placeholderText ++ [pattern.suffix])

def MatchTarget.text : MatchTarget → Text
  | .MatchAll => []
  | .Group name => "group:".toList ++ name
  | .InlineDomains domains => [','].intercalate domains
  | .Template patterns => [','].intercalate (patterns.map TemplatePattern.text)

/-! ### Accepted targets are well formed -/

theorem isPattern_of_parseTemplate {text : Text} {pattern : TemplatePattern}
    (parsed : parseTemplate text = .ok pattern) : IsPattern pattern := by
  obtain ⟨numbered, nonzero, suffix⟩ := parseTemplate_valid parsed
  refine ⟨numbered, fun number member => ?_, suffix⟩
  have different : number.toNat ≠ 0 := by
    intro zero
    have isZero : number = 0 := UInt32.toNat_inj.mp zero
    exact nonzero (isZero ▸ member)
  exact UInt32.le_iff_toNat_le.mpr (Nat.one_le_iff_ne_zero.mpr different)

theorem ne_nil_of_mapM_ok {Item Result Error : Type} {parse : Item → Except Error Result}
    {items : List Item} {results : List Result} (nonempty : items ≠ [])
    (parsed : items.mapM parse = .ok results) : results ≠ [] := by
  cases items with
  | nil => exact absurd rfl nonempty
  | cons item items =>
      obtain ⟨result, others, _, _, rfl⟩ := mapM_cons_eq_ok_iff.mp parsed
      exact List.cons_ne_nil _ _

theorem isGroupName_of_stripPrefix {text name : Text}
    (stripped : Text.stripPrefix "group:".toList text.trim = some name)
    (accepted : ¬ (name = [] ∨ name.contains ',' ∨ name.contains '{' ∨ name.contains '}')) :
    IsGroupName name := by
  simp only [not_or, List.contains_iff_mem] at accepted
  obtain ⟨nonempty, noComma, noOpening, noClosing⟩ := accepted
  refine ⟨nonempty, noComma, ⟨noOpening, noClosing⟩, fun char last => ?_⟩
  have whole := Text.stripPrefix_eq_some_iff.mp stripped
  apply @Text.isWhitespace_getLast?_trim text
  rw [whole, List.getLast?_append_of_ne_nil _ nonempty]
  exact last

theorem grammatical_of_parseMatchTarget {text : Text} {target : MatchTarget}
    (parsed : parseMatchTarget text = .ok target) : target.Grammatical := by
  rcases parseMatchTarget_cases parsed with rfl | ⟨name, stripped, accepted, rfl⟩ |
    ⟨patterns, templates, rfl⟩ | ⟨domains, inline, rfl⟩
  · trivial
  · exact isGroupName_of_stripPrefix stripped accepted
  · exact ⟨ne_nil_of_mapM_ok (List.splitOn_ne_nil _ _) templates,
      forall_mem_of_mapM_ok isPattern_of_parseTemplate templates⟩
  · exact parseInlineDomains_valid inline

/-! ### The characters of a text -/

/-- A character of a domain: it separates nothing and is no white space. -/
structure IsDomainChar (char : Char) : Prop where
  notWhite : Text.isWhitespace char = false
  notMark : char ≠ ',' ∧ char ≠ '{' ∧ char ≠ '}' ∧ char ≠ ':' ∧ char ≠ '*'

theorem isDomainChar_of_label {char : Char}
    (plain : (char.isAlphanum || char == '-' || char == '_') = true) : IsDomainChar char := by
  rw [Bool.or_eq_true, Bool.or_eq_true, beq_iff_eq, beq_iff_eq] at plain
  rcases plain with (isPlain | rfl) | rfl
  · refine ⟨Text.isWhitespace_of_isAlphanum isPlain, ?_, ?_, ?_, ?_, ?_⟩
    all_goals
      rintro rfl
      cases isPlain
  · exact ⟨by decide, by decide⟩
  · exact ⟨by decide, by decide⟩

theorem isDomainChar_dot : IsDomainChar '.' := ⟨by decide, by decide⟩

theorem validateDomain_labels {domain : Text} (valid : validateDomain domain = some domain) :
    ∀ label ∈ domain.splitOn '.', isDomainLabel label = true := by
  unfold validateDomain at valid
  split at valid
  · cases valid
  · exact List.all_eq_true.mp (Option.ite_none_right_eq_some.mp valid).1

theorem isDomainChar_of_isDomainLabel {label : Text} (isLabel : isDomainLabel label = true) :
    ∀ char ∈ label, IsDomainChar char := by
  rw [isDomainLabel, Bool.and_eq_true] at isLabel
  intro char inside
  exact isDomainChar_of_label (List.all_eq_true.mp isLabel.2 char inside)

theorem isDomainChar_of_valid {domain : Text} (valid : validateDomain domain = some domain) :
    ∀ char ∈ domain, IsDomainChar char := by
  intro char member
  rw [← (List.intercalate_splitOn '.' : _ = domain)] at member
  rcases LabelKey.of_mem_intercalate member with rfl | ⟨label, inLabels, inside⟩
  · exact isDomainChar_dot
  · exact isDomainChar_of_isDomainLabel (validateDomain_labels valid label inLabels) char inside

theorem trim_of_notWhite {text : Text} (notWhite : ∀ char ∈ text, Text.isWhitespace char = false) :
    text.trim = text :=
  Text.trim_eq_self (fun char first => notWhite char (List.mem_of_mem_head? first))
    fun char last => notWhite char (List.mem_of_mem_getLast? last)

/-! ### Domains are read back -/

theorem mapM_eq_ok {Item Result Error : Type} {parse : Item → Except Error Result}
    {build : Result → Item} {results : List Result}
    (reads : ∀ result ∈ results, parse (build result) = .ok result) :
    (results.map build).mapM parse = .ok results := by
  induction results with
  | nil => rfl
  | cons result results inductionHypothesis =>
      obtain ⟨here, later⟩ := List.forall_mem_cons.mp reads
      exact mapM_cons_eq_ok_iff.mpr ⟨result, results, here, inductionHypothesis later, rfl⟩

theorem parseInlineDomains_intercalate {domains : List Text} (nonempty : domains ≠ [])
    (valid : ∀ domain ∈ domains, validateDomain domain = some domain) :
    parseInlineDomains ([','].intercalate domains) = .ok domains := by
  have cut : ([','].intercalate domains).splitOn ',' = domains :=
    List.splitOn_intercalate ',' (fun domain member inside =>
      (isDomainChar_of_valid (valid domain member) ',' inside).notMark.1 rfl) nonempty
  have trimmed : domains.map Text.trim = domains := by
    refine (List.map_congr_left fun domain member => ?_).trans (List.map_id domains)
    exact trim_of_notWhite fun char inside =>
      (isDomainChar_of_valid (valid domain member) char inside).notWhite
  have kept : domains.filter (· ≠ []) = domains := by
    rw [List.filter_eq_self]
    intro domain member
    exact decide_eq_true (validateDomain_ends (valid domain member)).1
  have readBack : ∀ parse : Text → Except TargetError Text,
      (∀ domain ∈ domains, parse domain = .ok domain) → domains.mapM parse = .ok domains := by
    intro parse reads
    have whole := @mapM_eq_ok _ _ _ parse id domains reads
    rwa [List.map_id] at whole
  unfold parseInlineDomains
  rw [cut, trimmed, kept]
  simp only [bind, Except.bind]
  rw [readBack]
  · exact if_neg nonempty
  · intro domain member
    rw [valid domain member]

/-! ### Templates are read back -/

theorem isAlphanum_of_isDigit {char : Char} (digit : char.isDigit = true) :
    char.isAlphanum = true := by
  rw [Char.isAlphanum, digit, Bool.or_true]

theorem placeholderText_chars (number : UInt32) :
    ∀ char ∈ placeholderText number,
      Text.isWhitespace char = false ∧ char ≠ ',' ∧ char ≠ '.' := by
  intro char member
  unfold placeholderText at member
  rcases List.mem_append.mp member with inFront | isClosing
  · rcases List.mem_cons.mp inFront with rfl | inDigits
    · decide
    · have digit := Text.isDigit_of_mem_ofNat inDigits
      refine ⟨Text.isWhitespace_of_isAlphanum (isAlphanum_of_isDigit digit), ?_, ?_⟩
      · rintro rfl
        cases digit
      · rintro rfl
        cases digit
  · rw [List.mem_singleton.mp isClosing]
    decide

theorem pattern_chars {pattern : TemplatePattern} (isPattern : IsPattern pattern) :
    ∀ char ∈ pattern.text, Text.isWhitespace char = false ∧ char ≠ ',' := by
  intro char member
  rcases LabelKey.of_mem_intercalate member with rfl | ⟨piece, inPieces, inside⟩
  · decide
  · rcases List.mem_append.mp inPieces with placeholder | isSuffix
    · obtain ⟨number, _, rfl⟩ := List.mem_map.mp placeholder
      obtain ⟨notWhite, notComma, _⟩ := placeholderText_chars number char inside
      exact ⟨notWhite, notComma⟩
    · rw [List.mem_singleton.mp isSuffix] at inside
      have plain := isDomainChar_of_valid isPattern.suffix char inside
      exact ⟨plain.notWhite, plain.notMark.1⟩

theorem pattern_head? {pattern : TemplatePattern} (isPattern : IsPattern pattern) :
    pattern.text.head? = some '{' := by
  obtain ⟨number, numbers, placeholders⟩ := List.exists_cons_of_ne_nil isPattern.numbered
  unfold TemplatePattern.text
  rw [placeholders, List.map_cons, List.cons_append,
    List.intercalate_cons_of_ne_nil (by simp), List.append_assoc]
  rfl

theorem strip_placeholderText (number : UInt32) :
    (Text.stripPrefix ['{'] (placeholderText number).trim).bind (Text.stripSuffix ['}']) =
      some (Text.ofNat number.toNat) := by
  have whole : (placeholderText number).trim = placeholderText number :=
    trim_of_notWhite fun char member => (placeholderText_chars number char member).1
  have opened : Text.stripPrefix ['{'] (placeholderText number) =
      some (Text.ofNat number.toNat ++ ['}']) :=
    Text.stripPrefix_eq_some_iff.mpr rfl
  rw [whole, opened, Option.bind_some]
  exact Text.stripSuffix_eq_some_iff.mpr rfl

theorem parsePlaceholders_append (template : Text) {labels : List Text}
    (plain : ∀ label ∈ labels.head?, Text.stripPrefix ['{'] label.trim = none)
    {placeholders : List UInt32} (positive : ∀ number ∈ placeholders, 1 ≤ number) :
    parsePlaceholders template (placeholders.map placeholderText ++ labels) =
      .ok (placeholders, labels) := by
  induction placeholders with
  | nil =>
      rw [List.map_nil, List.nil_append]
      cases labels with
      | nil => rfl
      | cons label labels =>
          unfold parsePlaceholders
          rw [plain label rfl]
          rfl
  | cons number numbers inductionHypothesis =>
      obtain ⟨here, later⟩ := List.forall_mem_cons.mp positive
      have nonzero : number.toNat ≠ 0 :=
        Nat.one_le_iff_ne_zero.mp (UInt32.le_iff_toNat_le.mp here)
      rw [List.map_cons, List.cons_append, parsePlaceholders, strip_placeholderText]
      dsimp only
      rw [Text.parseUnsigned_ofNat number.toNat_lt]
      split
      · next isNone => cases isNone
      · next isZero => exact absurd (Option.some.inj isZero) nonzero
      · next value _ isValue =>
          cases isValue
          rw [inductionHypothesis later]
          simp only [bind, Except.bind, pure, Except.pure, UInt32.ofNat_toNat]

theorem splitOn_pattern_text (pattern : TemplatePattern) :
    pattern.text.splitOn '.' =
      pattern.placeholders.map placeholderText ++ pattern.suffix.splitOn '.' := by
  have uncut : (pattern.placeholders.map placeholderText).flatMap (fun piece =>
      piece.splitOn '.') = pattern.placeholders.map placeholderText := by
    induction pattern.placeholders with
    | nil => rfl
    | cons number numbers inductionHypothesis =>
        have noDot : '.' ∉ placeholderText number := fun member =>
          (placeholderText_chars number '.' member).2.2 rfl
        rw [List.map_cons, List.flatMap_cons, List.splitOn_eq_singleton noDot,
          inductionHypothesis]
        rfl
  unfold TemplatePattern.text
  rw [LabelKey.splitOn_intercalate_flatMap (by simp), List.flatMap_append, uncut,
    List.flatMap_singleton]

theorem parseTemplate_text {pattern : TemplatePattern} (isPattern : IsPattern pattern) :
    parseTemplate pattern.text = .ok pattern := by
  have labels := validateDomain_labels isPattern.suffix
  have plain : ∀ label ∈ (pattern.suffix.splitOn '.').head?,
      Text.stripPrefix ['{'] (Text.trim label) = none := by
    intro label isFirst
    have chars := isDomainChar_of_isDomainLabel (labels label (List.mem_of_mem_head? isFirst))
    rw [trim_of_notWhite fun char inside => (chars char inside).notWhite]
    cases stripped : Text.stripPrefix ['{'] label with
    | none => rfl
    | some rest =>
        have opening : '{' ∈ label := by
          rw [Text.stripPrefix_eq_some_iff.mp stripped]
          exact List.mem_cons_self
        exact absurd rfl (chars '{' opening).notMark.2.1
  have unbraced : ∀ brace ∈ ['{', '}'], pattern.suffix.contains brace = false := by
    intro brace isBrace
    rw [Bool.eq_false_iff, ne_eq, List.contains_iff_mem]
    intro inside
    have notMark := (isDomainChar_of_valid isPattern.suffix brace inside).notMark
    simp only [List.mem_cons, List.not_mem_nil, or_false] at isBrace
    rcases isBrace with rfl | rfl
    · exact notMark.2.1 rfl
    · exact notMark.2.2.1 rfl
  unfold parseTemplate
  rw [splitOn_pattern_text, parsePlaceholders_append _ plain isPattern.positive]
  simp only [bind, Except.bind, isPattern.numbered, List.splitOn_ne_nil, if_false,
    List.intercalate_splitOn, unbraced '{' (by simp), unbraced '}' (by simp), Bool.or_self,
    Bool.false_eq_true, isPattern.suffix]

/-! ### Targets are read back -/

theorem parseMatchTarget_group {name : Text} (isName : IsGroupName name) :
    parseMatchTarget ("group:".toList ++ name) = .ok (.Group name) := by
  have untrimmed : Text.trim ("group:".toList ++ name) = "group:".toList ++ name := by
    apply Text.trim_eq_self
    · intro char first
      cases first
      decide
    · intro char last
      rw [List.getLast?_append_of_ne_nil _ isName.nonempty] at last
      exact isName.trimmed char last
  have stripped : Text.stripPrefix "group:".toList ("group:".toList ++ name) = some name :=
    Text.stripPrefix_eq_some_iff.mpr rfl
  have accepted : ¬ (name = [] ∨ name.contains ',' ∨ name.contains '{' ∨ name.contains '}') := by
    simp only [not_or, List.contains_iff_mem]
    exact ⟨isName.nonempty, isName.noComma, isName.noBrace⟩
  unfold parseMatchTarget
  dsimp only
  rw [untrimmed, if_neg (by simp), stripped]
  exact if_neg accepted

theorem stripPrefix_group_eq_none {text : Text} (noColon : ':' ∉ text) :
    Text.stripPrefix "group:".toList text = none := by
  cases stripped : Text.stripPrefix "group:".toList text with
  | none => rfl
  | some name =>
      have whole := Text.stripPrefix_eq_some_iff.mp stripped
      exact absurd (whole ▸ by simp) noColon

theorem parseMatchTarget_domains {domains : List Text} (nonempty : domains ≠ [])
    (valid : ∀ domain ∈ domains, validateDomain domain = some domain) :
    parseMatchTarget ([','].intercalate domains) = .ok (.InlineDomains domains) := by
  have chars : ∀ char ∈ [','].intercalate domains, char = ',' ∨ IsDomainChar char := by
    intro char member
    rcases LabelKey.of_mem_intercalate member with isComma | ⟨domain, inDomains, inside⟩
    · exact .inl isComma
    · exact .inr (isDomainChar_of_valid (valid domain inDomains) char inside)
  have untrimmed : Text.trim ([','].intercalate domains) = [','].intercalate domains := by
    apply trim_of_notWhite
    intro char member
    rcases chars char member with rfl | plain
    · decide
    · exact plain.notWhite
  have absent : ∀ mark ∈ ['{', '}', ':', '*'], mark ∉ [','].intercalate domains := by
    intro mark isMark member
    simp only [List.mem_cons, List.not_mem_nil, or_false] at isMark
    rcases chars mark member with rfl | plain
    · exact absurd isMark (by decide)
    · obtain ⟨_, noOpening, noClosing, noColon, noStar⟩ := plain.notMark
      rcases isMark with same | same | same | same
      · exact noOpening same
      · exact noClosing same
      · exact noColon same
      · exact noStar same
  have someText : [','].intercalate domains ≠ [] := by
    obtain ⟨first, rest, rfl⟩ := List.exists_cons_of_ne_nil nonempty
    have firstNonempty := (validateDomain_ends (valid first List.mem_cons_self)).1
    intro empty
    have whole := congrArg (List.splitOn ',') empty
    rw [List.splitOn_intercalate ',' (fun domain member inside =>
      (isDomainChar_of_valid (valid domain member) ',' inside).notMark.1 rfl) nonempty] at whole
    exact firstNonempty (List.cons.inj whole).1
  have noStar : [','].intercalate domains ≠ ['*'] := by
    intro same
    exact absent '*' (by simp) (same ▸ List.mem_singleton_self _)
  unfold parseMatchTarget
  dsimp only
  rw [untrimmed, if_neg (not_or.mpr ⟨someText, noStar⟩),
    stripPrefix_group_eq_none (absent ':' (by simp))]
  dsimp only
  rw [if_neg, parseInlineDomains_intercalate nonempty valid]
  · rfl
  · simp only [List.contains_iff_mem, not_or]
    exact ⟨absent '{' (by simp), absent '}' (by simp)⟩

theorem parseMatchTarget_templates {patterns : List TemplatePattern} (nonempty : patterns ≠ [])
    (arePatterns : ∀ pattern ∈ patterns, IsPattern pattern) :
    parseMatchTarget ([','].intercalate (patterns.map TemplatePattern.text)) =
      .ok (.Template patterns) := by
  have untrimmed : Text.trim ([','].intercalate (patterns.map TemplatePattern.text)) =
      [','].intercalate (patterns.map TemplatePattern.text) := by
    apply trim_of_notWhite
    intro char member
    rcases LabelKey.of_mem_intercalate member with rfl | ⟨piece, inPieces, inside⟩
    · decide
    · obtain ⟨pattern, inPatterns, rfl⟩ := List.mem_map.mp inPieces
      exact (pattern_chars (arePatterns pattern inPatterns) char inside).1
  have cut : ([','].intercalate (patterns.map TemplatePattern.text)).splitOn ',' =
      patterns.map TemplatePattern.text := by
    apply List.splitOn_intercalate
    · intro piece inPieces inside
      obtain ⟨pattern, inPatterns, rfl⟩ := List.mem_map.mp inPieces
      exact (pattern_chars (arePatterns pattern inPatterns) ',' inside).2 rfl
    · simpa using nonempty
  have opening : ∃ rest, [','].intercalate (patterns.map TemplatePattern.text) = '{' :: rest := by
    obtain ⟨first, others, rfl⟩ := List.exists_cons_of_ne_nil nonempty
    obtain ⟨rest, starts⟩ :=
      List.head?_eq_some_iff.mp (pattern_head? (arePatterns first List.mem_cons_self))
    by_cases single : others = []
    · exact ⟨rest, by rw [single, List.map_singleton, List.intercalate_singleton, starts]⟩
    · rw [List.map_cons, List.intercalate_cons_of_ne_nil (by simpa using single), starts]
      exact ⟨_, rfl⟩
  obtain ⟨rest, starts⟩ := opening
  have readBack : (patterns.map TemplatePattern.text).mapM
      (fun part => parseTemplate (Text.trim part)) = .ok patterns := by
    apply mapM_eq_ok
    intro pattern inPatterns
    have isPattern := arePatterns pattern inPatterns
    rw [trim_of_notWhite fun char inside => (pattern_chars isPattern char inside).1]
    exact parseTemplate_text isPattern
  unfold parseMatchTarget
  dsimp only
  rw [untrimmed, cut, readBack, starts, if_neg (by simp)]
  have noReference : Text.stripPrefix "group:".toList ('{' :: rest) = none := rfl
  rw [noReference]
  exact if_pos (.inl (by simp))

/-- Accepted targets are grammatical, and grammatical ones are read back from their text. -/
theorem match_target_round_trip :
    (∀ text target, parseMatchTarget text = .ok target → target.Grammatical) ∧
      ∀ target : MatchTarget, target.Grammatical → parseMatchTarget target.text = .ok target := by
  refine ⟨fun text target => grammatical_of_parseMatchTarget, fun target grammatical => ?_⟩
  cases target with
  | MatchAll => rfl
  | Group name => exact parseMatchTarget_group grammatical
  | InlineDomains domains => exact parseMatchTarget_domains grammatical.1 grammatical.2
  | Template patterns => exact parseMatchTarget_templates grammatical.1 grammatical.2

def twoTemplates : MatchTarget :=
  .Template [⟨"a.com".toList, [1, 2]⟩, ⟨"b.com".toList, [1]⟩]

theorem two_templates_round_trip :
    parseMatchTarget "{1}.{2}.a.com,{1}.b.com".toList = .ok twoTemplates ∧
      twoTemplates.Grammatical := by
  have grammatical : twoTemplates.Grammatical := by
    refine ⟨by decide, fun pattern member => ?_⟩
    simp only [List.mem_cons, List.not_mem_nil, or_false] at member
    rcases member with rfl | rfl
    · exact ⟨by decide, by simp, by decide⟩
    · exact ⟨by decide, by simp, by decide⟩
  have parsed : parseMatchTarget "{1}.{2}.a.com,{1}.b.com".toList = .ok twoTemplates :=
    match_target_round_trip.2 twoTemplates grammatical
  exact ⟨parsed, match_target_round_trip.1 _ _ parsed⟩

end Rsdns.Plugins
