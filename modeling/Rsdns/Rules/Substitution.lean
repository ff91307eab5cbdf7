import Rsdns.Rules.Placeholders

/-!
# What substitution leaves and what it replaces

A text is cut from the left into literal text and tokens, and there is one way to do it.
Substitution writes the literal text as it is and for a token the capture it asks for,
if there is one.  What has been written is not looked at again.
-/

namespace Rsdns.Plugins

/-! ### The one way to cut a text -/

/-- A token goes on to the first closing brace; without one the rest is literal. -/
inductive Splits : Text → List Piece → Prop where
  | plain {text : Text} (unopened : '{' ∉ text) : Splits text [.literal text]
  | unclosed {literal after : Text} (unopened : '{' ∉ literal) (open_ : '}' ∉ after) :
      Splits (literal ++ '{' :: after) [.literal (literal ++ '{' :: after)]
  | token {literal inner rest : Text} {split : List Piece} (unopened : '{' ∉ literal)
      (open_ : '}' ∉ inner) (others : Splits rest split) :
      Splits (literal ++ '{' :: (inner ++ '}' :: rest)) (.literal literal :: .token inner :: split)

namespace Splits

theorem piecesFrom (fuel : Nat) {text : Text} (enough : text.length ≤ fuel) :
    Splits text (Plugins.piecesFrom fuel text) := by
  induction fuel generalizing text with
  | zero =>
      rw [List.length_eq_zero_iff.mp (Nat.le_zero.mp enough)]
      exact plain List.not_mem_nil
  | succ fuel inductionHypothesis =>
      unfold Plugins.piecesFrom
      cases opened : Text.splitOnce '{' text with
      | none => exact plain (Text.splitOnce_eq_none_iff.mp opened)
      | some found =>
          obtain ⟨literal, after⟩ := found
          obtain ⟨unopened, rfl⟩ := Text.splitOnce_eq_some_iff.mp opened
          cases closed : Text.splitOnce '}' after with
          | none =>
              simp only [closed]
              exact unclosed unopened (Text.splitOnce_eq_none_iff.mp closed)
          | some found =>
              obtain ⟨inner, rest⟩ := found
              obtain ⟨open_, rfl⟩ := Text.splitOnce_eq_some_iff.mp closed
              simp only [closed]
              simp only [List.length_append, List.length_cons] at enough
              exact token unopened open_ (inductionHypothesis (by omega))

theorem eq_piecesFrom {text : Text} {split : List Piece} (splits : Splits text split) {fuel : Nat}
    (enough : text.length ≤ fuel) : split = Plugins.piecesFrom fuel text := by
  induction splits generalizing fuel with
  | plain unopened =>
      cases fuel with
      | zero => rfl
      | succ fuel =>
          unfold Plugins.piecesFrom
          rw [Text.splitOnce_eq_none_iff.mpr unopened]
  | unclosed unopened open_ =>
      cases fuel with
      | zero => rfl
      | succ fuel =>
          unfold Plugins.piecesFrom
          rw [Text.splitOnce_append unopened]
          simp only [Text.splitOnce_eq_none_iff.mpr open_]
  | token unopened open_ others inductionHypothesis =>
      simp only [List.length_append, List.length_cons] at enough
      cases fuel with
      | zero => omega
      | succ fuel =>
          unfold Plugins.piecesFrom
          rw [Text.splitOnce_append unopened]
          simp only [Text.splitOnce_append open_]
          rw [← inductionHypothesis (by omega)]

end Splits

theorem splits_iff {text : Text} {split : List Piece} :
    Splits text split ↔ split = pieces text := by
  constructor
  · exact fun splits => splits.eq_piecesFrom le_rfl
  · rintro rfl
    exact Splits.piecesFrom _ le_rfl

theorem Splits.written {text : Text} {split : List Piece} (splits : Splits text split) :
    split.flatMap Piece.written = text := by
  induction splits with
  | plain unopened => simp [Piece.written]
  | unclosed unopened open_ => simp [Piece.written]
  | token unopened open_ others inductionHypothesis =>
      simp [Piece.written, inductionHypothesis]

/-! ### What is written for a piece -/

/-- A token with a number from one on up to the number of captures is replaced. -/
def replaced (captures : List Text) : Piece → Text
  | .literal text => text
  | .token inner =>
      match Text.parseUnsigned (2 ^ 32) inner with
      | some number =>
          if 1 ≤ number ∧ number ≤ captures.length then captures.getD (number - 1) []
          else '{' :: inner ++ ['}']
      | none => '{' :: inner ++ ['}']

theorem fill_captured (captures : List Text) (piece : Piece) :
    Piece.fill (captured captures) piece = replaced captures piece := by
  cases piece with
  | literal text => rfl
  | token inner =>
      rw [Piece.fill_token, replaced]
      cases Text.parseUnsigned (2 ^ 32) inner with
      | none => rfl
      | some number =>
          rw [Option.bind_some, captured]
          by_cases inRange : 1 ≤ number ∧ number ≤ captures.length
          · have inside : number - 1 < captures.length := by omega
            simp only [if_pos inRange, if_pos inRange.1, List.getElem?_eq_getElem inside,
              Option.getD_some, List.getD_eq_getElem?_getD]
          · simp only [if_neg inRange]
            by_cases positive : number ≥ 1
            · have outside : captures.length ≤ number - 1 := by omega
              rw [if_pos positive, List.getElem?_eq_none outside, Option.getD_none]
            · rw [if_neg positive, Option.getD_none]

theorem replaced_nil (piece : Piece) : replaced [] piece = piece.written := by
  rw [← fill_captured]
  have nothing : ∀ number, captured [] number = none := by
    intro number
    simp [captured]
  cases piece with
  | literal text => rfl
  | token inner =>
      rw [Piece.fill_token]
      cases Text.parseUnsigned (2 ^ 32) inner with
      | none => rfl
      | some number => rw [Option.bind_some, nothing, Option.getD_none, Piece.written]

/-! ### The loop -/

/-- The loop as it is written, with what it has put out.  Every round takes two braces
off the rest. -/
def substituteLoop (captures : List Text) (out rest : Text) : Text :=
  match _opened : Text.splitOnce '{' rest with
  | none => out ++ rest
  | some (literal, after) =>
      match _closed : Text.splitOnce '}' after with
      | none => out ++ literal ++ '{' :: after
      | some (inner, tail) =>
          let substituted :=
            match Text.parseUnsigned (2 ^ 32) inner with
            | some n => if n ≥ 1 then captures[n - 1]? else none
            | none => none
          substituteLoop captures (out ++ literal ++ substituted.getD ('{' :: inner ++ ['}'])) tail
termination_by rest.length
decreasing_by
  have outer := congrArg List.length (Text.splitOnce_eq_some_iff.mp _opened).2
  have inside := congrArg List.length (Text.splitOnce_eq_some_iff.mp _closed).2
  simp only [List.length_append, List.length_cons] at outer inside
  omega

theorem substituteLoop_eq (captures : List Text) (fuel : Nat) (out : Text) {rest : Text}
    (enough : rest.length ≤ fuel) :
    substituteLoop captures out rest = out ++ substituteFrom captures fuel rest := by
  induction fuel generalizing out rest with
  | zero =>
      rw [List.length_eq_zero_iff.mp (Nat.le_zero.mp enough), substituteLoop]
      rfl
  | succ fuel inductionHypothesis =>
      rw [substituteLoop, substituteFrom]
      split
      · next unopened => rw [unopened]
      · next literal after opened =>
          rw [opened]
          obtain ⟨_, rfl⟩ := Text.splitOnce_eq_some_iff.mp opened
          split
          · next unclosed => simp only [unclosed, List.append_assoc]
          · next inner tail closed =>
              obtain ⟨_, rfl⟩ := Text.splitOnce_eq_some_iff.mp closed
              simp only [List.length_append, List.length_cons] at enough
              simp only [closed]
              rw [inductionHypothesis _ (by omega)]
              cases Text.parseUnsigned (2 ^ 32) inner <;> simp only [List.append_assoc]

/-! ### Substitution by pieces -/

/-- There is one way to cut a text, substitution replaces the tokens that have a capture
and nothing else, and without captures it changes nothing. -/
theorem substitute_placeholders_exact (text : Text) (captures : List Text) :
    (∃! split, Splits text split) ∧
    (∀ split, Splits text split →
      split.flatMap Piece.written = text ∧
        substitutePlaceholders text captures = split.flatMap (replaced captures)) ∧
    substituteLoop captures [] text = substitutePlaceholders text captures ∧
    substitutePlaceholders text [] = text := by
  have byPieces : ∀ captures, substitutePlaceholders text captures =
      (pieces text).flatMap (replaced captures) := by
    intro captures
    rw [substitutePlaceholders_eq_flatMap]
    exact List.flatMap_congr fun piece _ => fill_captured captures piece
  have whole := Splits.written (splits_iff.mpr (Eq.refl (pieces text)))
  refine ⟨⟨pieces text, splits_iff.mpr rfl, fun split => splits_iff.mp⟩, ?_, ?_, ?_⟩
  · intro split splits
    exact ⟨splits.written, by rw [byPieces, splits_iff.mp splits]⟩
  · exact substituteLoop_eq captures text.length [] le_rfl
  · calc substitutePlaceholders text [] = (pieces text).flatMap (replaced []) := byPieces []
      _ = (pieces text).flatMap Piece.written :=
        List.flatMap_congr fun piece _ => replaced_nil piece
      _ = text := whole

/-- A capture with braces in it is put in and not read again. -/
example : substitutePlaceholders "{1}.{{2}}.{3}".toList ["{2}".toList, "x".toList] =
    "{2}.{{2}}.{3}".toList := by decide

end Rsdns.Plugins
