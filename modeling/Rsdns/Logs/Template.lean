import Rsdns.Plugins.Logs
import Rsdns.Rules.Substitution

/-!
# What a log template becomes

A template is cut into literal text and tokens in the one way there is.  A token that names
a field becomes one, everything else is literal text again, and texts that meet are one
segment.
-/

namespace Rsdns.Plugins

/-! ### Segments of a cut text -/

namespace Segment

def written : Segment → Text
  | .text literal => literal
  | .field named => '{' :: named.key ++ ['}']

def isText : Segment → Bool
  | .text _ => true
  | .field _ => false

end Segment

namespace Piece

/-- A token is a field if it names one. -/
def segment : Piece → Segment
  | .literal text => .text text
  | .token inner =>
      match Field.parse inner with
      | some field => .field field
      | none => .text ('{' :: inner ++ ['}'])

theorem written_segment (piece : Piece) : piece.segment.written = piece.written := by
  cases piece with
  | literal text => rfl
  | token inner =>
      rw [segment]
      cases named : Field.parse inner with
      | none => rfl
      | some field =>
          rw [Field.parse_eq_some_iff.mp named]
          rfl

theorem segment_eq_field_iff {piece : Piece} {field : Field} :
    piece.segment = .field field ↔ piece = .token field.key := by
  cases piece with
  | literal text => simp [segment]
  | token inner =>
      rw [segment, Piece.token.injEq, ← Field.parse_eq_some_iff]
      cases Field.parse inner with
      | none => simp
      | some other => simp

end Piece

/-- Texts that meet are one segment, empty ones are none. -/
def merged : Text → List Segment → List Segment
  | text, [] => flushText [] text
  | text, .text literal :: rest => merged (text ++ literal) rest
  | text, .field field :: rest => flushText [] text ++ .field field :: merged [] rest

theorem flushText_eq_append (segments : List Segment) (text : Text) :
    flushText segments text = segments ++ flushText [] text := by
  unfold flushText
  split <;> simp

/-- The loop makes the segments of the rest, with the pending text in front. -/
theorem compileFrom_eq {rest : Text} {split : List Piece} (splits : Splits rest split) {fuel : Nat}
    (enough : rest.length ≤ fuel) (segments : List Segment) (text : Text) :
    compileFrom fuel segments text rest =
      segments ++ merged text (split.map Piece.segment) := by
  induction splits generalizing fuel segments text with
  | @plain rest unopened =>
      have flushed : compileFrom fuel segments text rest = flushText segments (text ++ rest) := by
        cases fuel with
        | zero => rfl
        | succ fuel =>
            rw [compileFrom]
            simp only [Text.splitOnce_eq_none_iff.mpr unopened]
      rw [flushed, flushText_eq_append]
      rfl
  | @unclosed literal after unopened open_ =>
      have flushed : compileFrom fuel segments text (literal ++ '{' :: after) =
          flushText segments (text ++ (literal ++ '{' :: after)) := by
        cases fuel with
        | zero => rfl
        | succ fuel =>
            rw [compileFrom]
            simp only [Text.splitOnce_append unopened, Text.splitOnce_eq_none_iff.mpr open_,
              List.append_assoc]
      rw [flushed, flushText_eq_append]
      rfl
  | @token literal inner rest split unopened open_ others inductionHypothesis =>
      simp only [List.length_append, List.length_cons] at enough
      cases fuel with
      | zero => omega
      | succ fuel =>
          rw [compileFrom]
          simp only [Text.splitOnce_append unopened, Text.splitOnce_append open_, List.map_cons,
            Piece.segment, merged]
          cases Field.parse inner with
          | none =>
              simp only [merged]
              rw [inductionHypothesis (by omega), List.append_assoc (text ++ literal)]
          | some field =>
              simp only [merged]
              rw [inductionHypothesis (by omega), flushText_eq_append]
              simp

theorem segments_compileTemplate {template : Text} {split : List Piece}
    (splits : Splits template split) :
    (compileTemplate template).segments = merged [] (split.map Piece.segment) :=
  compileFrom_eq splits le_rfl [] []

/-! ### Merging -/

theorem flatMap_merged {Item : Type} (shown : Segment → List Item)
    (empty : shown (.text []) = [])
    (append : ∀ first second, shown (.text (first ++ second)) =
      shown (.text first) ++ shown (.text second)) (text : Text) (segments : List Segment) :
    (merged text segments).flatMap shown = shown (.text text) ++ segments.flatMap shown := by
  have flushed : ∀ text, (flushText [] text).flatMap shown = shown (.text text) := by
    intro text
    unfold flushText
    split
    · next nothing => rw [nothing, empty, List.flatMap_nil]
    · simp
  induction segments generalizing text with
  | nil => rw [merged, flushed, List.flatMap_nil, List.append_nil]
  | cons segment segments inductionHypothesis =>
      cases segment with
      | text literal => rw [merged, inductionHypothesis, append, List.append_assoc]; rfl
      | field field =>
          rw [merged, List.flatMap_append, flushed, List.flatMap_cons, inductionHypothesis, empty]
          rfl

theorem written_merged (text : Text) (segments : List Segment) :
    (merged text segments).flatMap Segment.written = text ++ segments.flatMap Segment.written :=
  flatMap_merged Segment.written rfl (fun _ _ => rfl) text segments

theorem eq_of_mem_flushText {text : Text} {segment : Segment}
    (member : segment ∈ flushText [] text) : text ≠ [] ∧ segment = .text text := by
  unfold flushText at member
  split at member
  · cases member
  · next nonempty => exact ⟨nonempty, List.mem_singleton.mp member⟩

theorem ne_nil_of_mem_merged {text literal : Text} {segments : List Segment}
    (member : .text literal ∈ merged text segments) : literal ≠ [] := by
  induction segments generalizing text with
  | nil =>
      obtain ⟨nonempty, same⟩ := eq_of_mem_flushText member
      cases same
      exact nonempty
  | cons segment segments inductionHypothesis =>
      cases segment with
      | text more => exact inductionHypothesis member
      | field field =>
          rcases List.mem_append.mp member with inText | inRest
          · obtain ⟨nonempty, same⟩ := eq_of_mem_flushText inText
            cases same
            exact nonempty
          · rcases List.mem_cons.mp inRest with same | later
            · cases same
            · exact inductionHypothesis later

theorem isChain_merged (text : Text) (segments : List Segment) :
    (merged text segments).IsChain fun first second =>
      ¬ (first.isText = true ∧ second.isText = true) := by
  induction segments generalizing text with
  | nil =>
      rw [merged, flushText]
      split <;> simp
  | cons segment segments inductionHypothesis =>
      cases segment with
      | text more => exact inductionHypothesis (text ++ more)
      | field field =>
          have rest : (Segment.field field :: merged [] segments).IsChain fun first second =>
              ¬ (first.isText = true ∧ second.isText = true) := by
            have later := inductionHypothesis []
            generalize merged [] segments = rest at later ⊢
            cases rest with
            | nil => exact .singleton _
            | cons second others =>
                exact .cons_cons (fun both => Bool.false_ne_true both.1) later
          rw [merged, flushText]
          split
          · exact rest
          · exact .cons_cons (fun both => Bool.false_ne_true both.2) rest

/-! ### Tokens and fields -/

theorem field_notMem_flushText (text : Text) (field : Field) :
    Segment.field field ∉ flushText [] text := by
  intro member
  cases (eq_of_mem_flushText member).2

theorem merged_append_field (text : Text) (front : List Segment) (field : Field)
    (back : List Segment) :
    merged text (front ++ .field field :: back) =
      merged text front ++ .field field :: merged [] back := by
  induction front generalizing text with
  | nil => rfl
  | cons segment front inductionHypothesis =>
      cases segment with
      | text literal => exact inductionHypothesis (text ++ literal)
      | field other =>
          rw [List.cons_append, merged, merged, inductionHypothesis, List.append_assoc,
            List.cons_append]

theorem of_merged_eq_append_field {text : Text} {segments before after : List Segment}
    {field : Field} (cut : merged text segments = before ++ .field field :: after) :
    ∃ front back, segments = front ++ .field field :: back ∧ before = merged text front := by
  induction segments generalizing text before with
  | nil =>
      have member : Segment.field field ∈ flushText [] text := by
        rw [merged] at cut
        simp [cut]
      exact absurd member (field_notMem_flushText text field)
  | cons segment segments inductionHypothesis =>
      cases segment with
      | text literal =>
          obtain ⟨front, back, rfl, rfl⟩ := inductionHypothesis cut
          exact ⟨.text literal :: front, back, rfl, rfl⟩
      | field other =>
          rw [merged] at cut
          rcases List.append_eq_append_iff.mp cut with ⟨between, rfl, rest⟩ | ⟨between, flushed, rest⟩
          · cases between with
            | nil =>
                cases rest
                exact ⟨[], segments, rfl, by rw [List.append_nil]; rfl⟩
            | cons first between =>
                obtain ⟨rfl, later⟩ := List.cons_eq_cons.mp rest
                obtain ⟨front, back, rfl, rfl⟩ := inductionHypothesis later
                exact ⟨.field other :: front, back, rfl, rfl⟩
          · cases between with
            | nil =>
                cases rest
                refine ⟨[], segments, rfl, ?_⟩
                rw [List.append_nil] at flushed
                exact flushed.symm
            | cons first between =>
                obtain ⟨rfl, _⟩ := List.cons_eq_cons.mp rest
                have member : Segment.field field ∈ flushText [] text := by simp [flushed]
                exact absurd member (field_notMem_flushText text field)

/-- Two tokens of a cut text with the same text in front of them are one. -/
theorem token_eq_of_written_eq {front back other later : List Piece} {inner found : Text}
    (cut : front ++ .token inner :: back = other ++ .token found :: later)
    (offset : front.flatMap Piece.written = other.flatMap Piece.written) : inner = found := by
  have written : ∀ (before : List Piece) (token : Text) (between : List Piece),
      (before ++ Piece.token token :: between).flatMap Piece.written ≠
        before.flatMap Piece.written := by
    intro before token between same
    have length := congrArg List.length same
    simp [Piece.written] at length
  rcases List.append_eq_append_iff.mp cut with ⟨between, rfl, rest⟩ | ⟨between, rfl, rest⟩
  · cases between with
    | nil => exact Piece.token.inj (List.cons_eq_cons.mp rest).1
    | cons first between =>
        obtain ⟨rfl, _⟩ := List.cons_eq_cons.mp rest
        exact absurd offset.symm (written front inner between)
  · cases between with
    | nil => exact (Piece.token.inj (List.cons_eq_cons.mp rest).1).symm
    | cons first between =>
        obtain ⟨rfl, _⟩ := List.cons_eq_cons.mp rest
        exact absurd offset (written other found between)

theorem written_map_segment (split : List Piece) :
    (split.map Piece.segment).flatMap Segment.written = split.flatMap Piece.written := by
  rw [List.flatMap_map]
  exact List.flatMap_congr fun piece _ => piece.written_segment

theorem token_of_field {split : List Piece} {before after : List Segment} {field : Field}
    (cut : merged [] (split.map Piece.segment) = before ++ .field field :: after) :
    ∃ front back, split = front ++ .token field.key :: back ∧
      before.flatMap Segment.written = front.flatMap Piece.written := by
  obtain ⟨frontSegments, backSegments, mapped, rfl⟩ := of_merged_eq_append_field cut
  obtain ⟨front, rest, rfl, rfl, others⟩ := List.map_eq_append_iff.mp mapped
  obtain ⟨piece, back, rfl, isField, _⟩ := List.map_eq_cons_iff.mp others
  rw [Piece.segment_eq_field_iff.mp isField]
  refine ⟨front, back, rfl, ?_⟩
  rw [written_merged, List.nil_append, written_map_segment]

/-- A token becomes the field it names, and no field if it names none. -/
theorem field_iff_token {front back : List Piece} {inner : Text} {field : Field} :
    (∃ before after, merged [] ((front ++ .token inner :: back).map Piece.segment) =
        before ++ .field field :: after ∧
      before.flatMap Segment.written = front.flatMap Piece.written) ↔ inner = field.key := by
  constructor
  · rintro ⟨before, after, cut, offset⟩
    obtain ⟨other, later, same, otherOffset⟩ := token_of_field cut
    exact token_eq_of_written_eq same (offset.symm.trans otherOffset)
  · rintro rfl
    have isField : Piece.segment (.token field.key) = .field field :=
      Piece.segment_eq_field_iff.mpr rfl
    refine ⟨merged [] (front.map Piece.segment), merged [] (back.map Piece.segment), ?_, ?_⟩
    · rw [List.map_append, List.map_cons, isField, merged_append_field]
    · rw [written_merged, List.nil_append, written_map_segment]

/-! ### Lines -/

def Piece.rendered (value : Field → Text) : Piece → Text
  | .literal text => text
  | .token inner =>
      match Field.parse inner with
      | some field => value field
      | none => '{' :: inner ++ ['}']

def Segment.rendered (value : Field → Text) : Segment → List UInt8
  | .text literal => Utf8.encode literal
  | .field named => Utf8.encode (value named)

theorem rendered_segment (value : Field → Text) (piece : Piece) :
    piece.segment.rendered value = Utf8.encode (piece.rendered value) := by
  cases piece with
  | literal text => rfl
  | token inner =>
      rw [Piece.segment, Piece.rendered]
      cases Field.parse inner with
      | none => rfl
      | some field => rfl

theorem encode_flatMap_rendered (value : Field → Text) (split : List Piece) :
    Utf8.encode (split.flatMap (Piece.rendered value)) =
      (split.map Piece.segment).flatMap (Segment.rendered value) := by
  induction split with
  | nil => rfl
  | cons piece split inductionHypothesis =>
      rw [List.flatMap_cons, Utf8.encode_append, inductionHypothesis, List.map_cons,
        List.flatMap_cons, rendered_segment]

namespace QueryLog

theorem formatInto_eq_flatMap (self : QueryLog) (printing : Printing)
    (template : CompiledTemplate) :
    self.formatInto printing template =
      template.segments.flatMap (Segment.rendered (self.value printing)) := by
  have appended : ∀ (segments : List Segment) (out : List UInt8),
      segments.foldl
          (fun out segment =>
            match segment with
            | .text literal => out ++ Utf8.encode literal
            | .field field => out ++ Utf8.encode (self.value printing field)) out =
        out ++ segments.flatMap (Segment.rendered (self.value printing)) := by
    intro segments
    induction segments with
    | nil => simp
    | cons segment segments inductionHypothesis =>
        intro out
        rw [List.foldl_cons, inductionHypothesis, List.flatMap_cons, ← List.append_assoc]
        cases segment with
        | text literal => rfl
        | field field => rfl
  exact appended template.segments []

theorem formatInto_compileTemplate {template : Text} {split : List Piece}
    (splits : Splits template split) (self : QueryLog) (printing : Printing) :
    self.formatInto printing (compileTemplate template) =
      Utf8.encode (split.flatMap (Piece.rendered (self.value printing))) := by
  rw [formatInto_eq_flatMap, segments_compileTemplate splits, encode_flatMap_rendered,
    flatMap_merged (Segment.rendered (self.value printing)) rfl Utf8.encode_append]
  rfl

end QueryLog

/-- Written out, the segments are the template; no text is empty and no two meet.  There is
one way to cut the template, the fields are the tokens that name them, and a line is the
template with these replaced. -/
theorem compile_template_lossless (template : Text) :
    let segments := (compileTemplate template).segments
    segments.flatMap Segment.written = template ∧
    (∀ literal, .text literal ∈ segments → literal ≠ []) ∧
    (segments.IsChain fun first second => ¬ (first.isText = true ∧ second.isText = true)) ∧
    (∃! split, Splits template split) ∧
    ∀ split, Splits template split →
      (∀ before field after, segments = before ++ .field field :: after →
        ∃ front back, split = front ++ .token field.key :: back ∧
          before.flatMap Segment.written = front.flatMap Piece.written) ∧
      (∀ front inner back field, split = front ++ .token inner :: back →
        ((∃ before after, segments = before ++ .field field :: after ∧
            before.flatMap Segment.written = front.flatMap Piece.written) ↔
          inner = field.key)) ∧
      ∀ (log : QueryLog) (printing : Printing),
        log.line printing (compileTemplate template) =
          Utf8.encode (split.flatMap (Piece.rendered (log.value printing))) ++ [0x0a] := by
  have splits : Splits template (pieces template) := splits_iff.mpr rfl
  intro segments
  have made : segments = merged [] ((pieces template).map Piece.segment) :=
    segments_compileTemplate splits
  refine ⟨?_, fun literal member => ?_, ?_, ⟨_, splits, fun split => splits_iff.mp⟩, ?_⟩
  · rw [made, written_merged, List.nil_append, written_map_segment, splits.written]
  · exact ne_nil_of_mem_merged (made ▸ member)
  · rw [made]
    exact isChain_merged [] _
  · intro split isSplit
    have madeOf : segments = merged [] (split.map Piece.segment) := segments_compileTemplate isSplit
    refine ⟨fun before field after cut => token_of_field (madeOf ▸ cut), ?_, ?_⟩
    · rintro front inner back field rfl
      rw [madeOf]
      exact field_iff_token
    · intro log printing
      rw [QueryLog.line, log.formatInto_compileTemplate isSplit printing]

/-- A field behind an unknown token and in front of a brace that is never closed. -/
example : (compileTemplate "a{b}{name}\x7d \x7b".toList).segments =
    [.text "a{b}".toList, .field .Name, .text "\x7d \x7b".toList] := by decide

end Rsdns.Plugins
