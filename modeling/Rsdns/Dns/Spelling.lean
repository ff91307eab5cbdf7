import Rsdns.Dns.ByteName

/-!
# A name can be read off its text

No text of a byte starts the text of another one, and none starts with a dot, so
the text of a name can be read from left to right.  It can be read without the
dots at its end as well: one that was escaped leaves an open backslash behind.
-/

namespace Rsdns.Dns

namespace NameText

variable {Name : Type} [NameApi Name] (text : NameText Name)

/-- No text of a byte starts the text of another one. -/
def Readable : Prop :=
  ∀ first byte other, text.write first byte <+: text.write first other → byte = other

/-- The same labels, up to letter case. -/
def SameName (first second : Name) : Prop :=
  (text.labels first).map (fun label => Text.toAsciiLowercase (label.map byteChar)) =
    (text.labels second).map fun label => Text.toAsciiLowercase (label.map byteChar)

def EndsLabel (rest : Text) : Prop := ∀ char ∈ rest.head?, char = '.'

theorem not_endsLabel_write (first : Bool) (byte : UInt8) (back : Text) :
    ¬ EndsLabel (text.write first byte ++ back) := by
  intro ends
  cases written : text.write first byte with
  | nil => exact text.write_ne_nil first byte written
  | cons char rest =>
      rw [written] at ends
      have isDot : char = '.' := ends char rfl
      subst isDot
      apply text.write_head?_ne first byte
      rw [written]
      rfl

theorem part_append_injective (readable : text.Readable) {bytes others : List UInt8}
    {first : Bool} {rest other : Text} (restEnds : EndsLabel rest) (otherEnds : EndsLabel other)
    (same : text.part first bytes ++ rest = text.part first others ++ other) :
    bytes = others ∧ rest = other := by
  induction bytes generalizing others first with
  | nil =>
      cases others with
      | nil => exact ⟨rfl, same⟩
      | cons byte others =>
          rw [part_nil, List.nil_append, part_cons, List.append_assoc] at same
          rw [same] at restEnds
          exact absurd restEnds (text.not_endsLabel_write _ _ _)
  | cons byte bytes inductionHypothesis =>
      rw [part_cons, List.append_assoc] at same
      cases others with
      | nil =>
          rw [part_nil, List.nil_append] at same
          rw [← same] at otherEnds
          exact absurd otherEnds (text.not_endsLabel_write _ _ _)
      | cons otherByte others =>
          rw [part_cons, List.append_assoc] at same
          have starts : text.write first byte <+:
              text.write first otherByte ++ (text.part false others ++ other) :=
            ⟨_, same⟩
          have sameByte : byte = otherByte := by
            rcases List.prefix_or_prefix_of_prefix starts (List.prefix_append _ _) with
              shorter | longer
            · exact readable _ _ _ shorter
            · exact (readable _ _ _ longer).symm
          subst sameByte
          obtain ⟨sameBytes, sameRest⟩ :=
            inductionHypothesis (List.append_cancel_left same)
          exact ⟨by rw [sameBytes], sameRest⟩

/-! ### Labels joined by dots -/

def joined (labels : List (List UInt8)) : Text :=
  ['.'].intercalate (labels.map (text.part true))

def behind : List (List UInt8) → Text
  | [] => []
  | label :: labels => '.' :: text.joined (label :: labels)

theorem joined_cons (label : List UInt8) (labels : List (List UInt8)) :
    text.joined (label :: labels) = text.part true label ++ text.behind labels := by
  cases labels with
  | nil => simp [joined, behind]
  | cons next labels => simp [joined, behind]

theorem endsLabel_behind (labels : List (List UInt8)) : EndsLabel (text.behind labels) := by
  cases labels with
  | nil => exact fun _ => nofun
  | cons label labels => exact fun char head => (Option.mem_some.mp head).symm

theorem behind_injective {labels others : List (List UInt8)}
    (injective : text.joined labels = text.joined others → labels = others)
    (same : text.behind labels = text.behind others) : labels = others := by
  cases labels with
  | nil =>
      cases others with
      | nil => rfl
      | cons label others => cases same
  | cons label labels =>
      cases others with
      | nil => cases same
      | cons other others => exact injective (List.cons.inj same).2

theorem part_ne_nil {label : List UInt8} (nonempty : label ≠ []) : text.part true label ≠ [] := by
  obtain ⟨byte, bytes, rfl⟩ := List.exists_cons_of_ne_nil nonempty
  rw [part_cons]
  exact List.append_ne_nil_of_left_ne_nil (text.write_ne_nil true byte) _

theorem joined_injective (readable : text.Readable) {labels others : List (List UInt8)}
    (nonempty : ∀ label ∈ labels, label ≠ []) (othersNonempty : ∀ label ∈ others, label ≠ [])
    (same : text.joined labels = text.joined others) : labels = others := by
  induction labels generalizing others with
  | nil =>
      cases others with
      | nil => rfl
      | cons label others =>
          rw [joined_cons] at same
          have empty := (List.append_eq_nil_iff.mp same.symm).1
          exact absurd empty (text.part_ne_nil (othersNonempty label List.mem_cons_self))
  | cons label labels inductionHypothesis =>
      cases others with
      | nil =>
          rw [joined_cons] at same
          have empty := (List.append_eq_nil_iff.mp same).1
          exact absurd empty (text.part_ne_nil (nonempty label List.mem_cons_self))
      | cons other others =>
          rw [joined_cons, joined_cons] at same
          obtain ⟨sameLabel, sameBehind⟩ := text.part_append_injective readable
            (text.endsLabel_behind labels) (text.endsLabel_behind others) same
          have sameRest : labels = others := by
            apply text.behind_injective _ sameBehind
            apply inductionHypothesis
            · exact fun label member => nonempty label (List.mem_cons_of_mem _ member)
            · exact fun label member => othersNonempty label (List.mem_cons_of_mem _ member)
          rw [sameLabel, sameRest]

/-! ### The text without the dots at its end -/

theorem openAfter_joined (labels : List (List UInt8)) :
    openAfter false (text.joined labels) = false := by
  induction labels with
  | nil => rfl
  | cons label labels inductionHypothesis =>
      rw [joined_cons, openAfter_append, openAfter_part]
      cases labels with
      | nil => rfl
      | cons next labels => exact inductionHypothesis

theorem exists_joined_concat (labels : List (List UInt8)) (label : List UInt8) :
    ∃ before, openAfter false before = false ∧
      text.joined (labels ++ [label]) = before ++ text.part true label := by
  induction labels with
  | nil => exact ⟨[], rfl, by simp [joined]⟩
  | cons first labels inductionHypothesis =>
      obtain ⟨before, closed, whole⟩ := inductionHypothesis
      refine ⟨text.part true first ++ '.' :: before, ?_, ?_⟩
      · rw [openAfter_append, openAfter_part]
        exact closed
      · have behind : text.behind (labels ++ [label]) =
            '.' :: text.joined (labels ++ [label]) := by
          cases labels <;> rfl
        rw [List.cons_append, joined_cons, behind, whole, List.append_assoc, List.cons_append]

/-- A dot that an open backslash lost is put back. -/
def restored (key : Text) : Text := if openAfter false key then key ++ ['.'] else key

theorem restored_trimEndMatches_joined {labels : List (List UInt8)}
    (nonempty : ∀ label ∈ labels, label ≠ []) :
    restored (Text.trimEndMatches '.' (text.joined labels)) = text.joined labels := by
  rcases List.eq_nil_or_concat' labels with rfl | ⟨front, label, rfl⟩
  · rfl
  · obtain ⟨before, closed, whole⟩ := text.exists_joined_concat front label
    have labelNonempty : label ≠ [] := nonempty label (by simp)
    rcases List.eq_nil_or_concat' label with empty | ⟨bytes, byte, rfl⟩
    · exact absurd empty labelNonempty
    · rw [part_append, part_nil, List.append_nil] at whole
      by_cases isDot : byteChar byte = '.'
      · have shape : text.joined (front ++ [bytes ++ [byte]]) =
            (before ++ text.part true bytes ++ ['\\']) ++ ['.'] := by
          rw [whole, text.dot _ byte isDot]
          simp
        have trimmed : Text.trimEndMatches '.' (text.joined (front ++ [bytes ++ [byte]])) =
            before ++ text.part true bytes ++ ['\\'] := by
          rw [shape, Text.trimEndMatches, List.rdropWhile_concat_pos _ _ _ (by decide),
            List.rdropWhile_concat_neg _ _ _ (by decide)]
        have opened : openAfter false (before ++ text.part true bytes ++ ['\\']) = true := by
          rw [openAfter_append, openAfter_append, closed, openAfter_part]
          rfl
        rw [trimmed, restored, if_pos opened, shape]
      · have last : (text.joined (front ++ [bytes ++ [byte]])).getLast? ≠ some '.' := by
          intro isLast
          rw [whole, ← List.append_assoc,
            List.getLast?_append_of_ne_nil _ (text.write_ne_nil _ byte)] at isLast
          exact text.dot_not_mem_write isDot (List.mem_of_getLast? isLast)
        rw [Text.trimEndMatches_eq_self last, restored, text.openAfter_joined]
        rfl

theorem labels_eq_of_trimEndMatches_eq (readable : text.Readable) {first second : Name}
    (same : Text.trimEndMatches '.' (NameApi.toAscii first) =
      Text.trimEndMatches '.' (NameApi.toAscii second)) :
    text.labels first = text.labels second := by
  have spelled : ∀ name, restored (Text.trimEndMatches '.' (NameApi.toAscii name)) =
      text.joined (text.labels name) := by
    intro name
    rw [← text.restored_trimEndMatches_joined (text.nonempty name), text.toAscii]
    cases text.absolute name with
    | true =>
        congr 1
        exact List.rdropWhile_concat_pos _ _ _ (by decide)
    | false =>
        rw [if_neg Bool.false_ne_true, List.append_nil]
        rfl
  apply text.joined_injective readable (text.nonempty first) (text.nonempty second)
  rw [← spelled first, ← spelled second, same]

end NameText

/-! ### Bytes -/

namespace ByteName

/-- The byte whose text is in front: a character, or one or three behind a backslash. -/
def readByte : Text → Option UInt8
  | [] => none
  | char :: rest =>
      if char = '\\' then
        match rest with
        | [] => none
        | first :: rest =>
            if first.isDigit then
              match rest with
              | second :: third :: _ =>
                  some (UInt8.ofNat
                    (64 * (first.toNat - 48) + 8 * (second.toNat - 48) + (third.toNat - 48)))
              | _ => none
            else some (UInt8.ofNat first.toNat)
      else some (UInt8.ofNat char.toNat)

theorem readByte_append {front : Text} {byte : UInt8} (reads : readByte front = some byte)
    (back : Text) : readByte (front ++ back) = some byte := by
  cases front with
  | nil => cases reads
  | cons char rest =>
      rw [List.cons_append]
      unfold readByte at reads ⊢
      dsimp only at reads ⊢
      by_cases escape : char = '\\'
      · rw [if_pos escape] at reads ⊢
        cases rest with
        | nil => cases reads
        | cons first rest =>
            dsimp only [List.cons_append] at reads ⊢
            by_cases octal : first.isDigit = true
            · rw [if_pos octal] at reads ⊢
              match rest with
              | [] => cases reads
              | [_] => cases reads
              | _ :: _ :: _ => exact reads
            · rw [if_neg octal] at reads ⊢
              exact reads
      · rw [if_neg escape] at reads ⊢
        exact reads

theorem readByte_writeByte (first : Bool) : ∀ byte,
    readByte (writeByte first byte) = some byte := by
  apply forall_byte
  revert first
  decide +kernel

theorem text_readable : text.Readable := by
  rintro first byte other ⟨back, whole⟩
  have reads : readByte (writeByte first byte) = some byte := readByte_writeByte first byte
  have longer := readByte_append reads back
  have starts : writeByte first byte ++ back = writeByte first other := whole
  rw [starts, readByte_writeByte] at longer
  exact (Option.some.inj longer).symm

end ByteName

end Rsdns.Dns
