import Mathlib.Data.List.Basic
import Mathlib.Data.List.Induction

/-!
# Separated sequences read backwards

A sequence is cut into labels at every separator.  Writing the labels in the
opposite order turns "ends with these labels" into "starts with these labels",
so the longest label suffix found in a map can be read off by one scan over
the prefixes of the reversed sequence.  `scan_eq_some_iff` says what that scan
finds, in terms of the sequence itself.
-/

universe u v

namespace LabelKey

variable {Symbol : Type u} {separator : Symbol}

theorem intercalate_append {front back : List (List Symbol)} (frontNonempty : front ≠ [])
    (backNonempty : back ≠ []) :
    [separator].intercalate (front ++ back) =
      [separator].intercalate front ++ separator :: [separator].intercalate back := by
  induction front with
  | nil => exact absurd rfl frontNonempty
  | cons label labels inductionHypothesis =>
      cases labels with
      | nil => simp [List.intercalate_cons_of_ne_nil backNonempty]
      | cons next labels =>
          have rest := inductionHypothesis (by simp)
          have whole : [separator].intercalate (label :: next :: labels) =
              label ++ [separator] ++ [separator].intercalate (next :: labels) :=
            List.intercalate_cons_of_ne_nil (by simp)
          rw [whole, List.cons_append, List.intercalate_cons_of_ne_nil (by simp), rest]
          simp only [List.append_assoc]

theorem of_mem_intercalate {labels : List (List Symbol)} {symbol : Symbol}
    (member : symbol ∈ [separator].intercalate labels) :
    symbol = separator ∨ ∃ label ∈ labels, symbol ∈ label := by
  induction labels with
  | nil => exact absurd member List.not_mem_nil
  | cons label labels inductionHypothesis =>
      by_cases single : labels = []
      · rw [single, List.intercalate_singleton] at member
        exact .inr ⟨label, List.mem_cons_self, member⟩
      · rw [List.intercalate_cons_of_ne_nil single, List.append_assoc] at member
        rcases List.mem_append.mp member with here | behind
        · exact .inr ⟨label, List.mem_cons_self, here⟩
        · rcases List.mem_cons.mp behind with isSeparator | later
          · exact .inl isSeparator
          · rcases inductionHypothesis later with isSeparator | ⟨other, inRest, inside⟩
            · exact .inl isSeparator
            · exact .inr ⟨other, List.mem_cons_of_mem _ inRest, inside⟩

theorem intercalate_reverse_perm (labels : List (List Symbol)) :
    ([separator].intercalate labels.reverse).Perm ([separator].intercalate labels) := by
  induction labels with
  | nil => exact .refl _
  | cons label labels inductionHypothesis =>
      by_cases single : labels = []
      · subst single
        exact .refl _
      · have reversedNonempty : labels.reverse ≠ [] := by simpa using single
        rw [List.reverse_cons, intercalate_append reversedNonempty (by simp),
          List.intercalate_singleton, List.intercalate_cons_of_ne_nil single,
          List.append_assoc, List.singleton_append]
        refine List.perm_append_comm.trans ?_
        rw [List.cons_append]
        refine List.Perm.trans ?_ List.perm_middle.symm
        exact List.Perm.cons _ (List.Perm.append_left _ inductionHypothesis)

variable [DecidableEq Symbol]

omit [DecidableEq Symbol] in
theorem of_mem_splitOnP {cuts : Symbol → Bool} {word label : List Symbol}
    (member : label ∈ word.splitOnP cuts) :
    ∀ symbol ∈ label, symbol ∈ word ∧ cuts symbol = false := by
  induction word generalizing label with
  | nil =>
      simp only [List.splitOnP_nil, List.mem_singleton] at member
      simp [member]
  | cons first word inductionHypothesis =>
      have weaken : ∀ label ∈ word.splitOnP cuts, ∀ symbol ∈ label,
          symbol ∈ first :: word ∧ cuts symbol = false := by
        intro label later symbol inside
        have found := inductionHypothesis later symbol inside
        exact ⟨List.mem_cons_of_mem _ found.1, found.2⟩
      rw [List.splitOnP_cons_eq_if_modifyHead] at member
      split at member
      · rcases List.mem_cons.mp member with empty | later
        · simp [empty]
        · exact weaken label later
      · next different =>
          cases pieces : word.splitOnP cuts with
          | nil => exact absurd pieces (List.splitOnP_ne_nil cuts word)
          | cons head tail =>
              rw [pieces, List.modifyHead_cons] at member
              rcases List.mem_cons.mp member with whole | later
              · subst whole
                have uncut : cuts first = false := by simpa using different
                exact List.forall_mem_cons.mpr
                  ⟨⟨List.mem_cons_self, uncut⟩, weaken head (by simp [pieces])⟩
              · exact weaken label (by simp [pieces, later])

theorem not_mem_of_mem_splitOn {word label : List Symbol}
    (member : label ∈ word.splitOn separator) : separator ∉ label := by
  intro inside
  have uncut := (of_mem_splitOnP member separator inside).2
  simp at uncut

def reverseLabels (separator : Symbol) (word : List Symbol) : List Symbol :=
  [separator].intercalate (word.splitOn separator).reverse

theorem reverseLabels_perm (word : List Symbol) :
    (reverseLabels separator word).Perm word := by
  have permuted : (reverseLabels separator word).Perm
      ([separator].intercalate (word.splitOn separator)) :=
    intercalate_reverse_perm _
  simpa using permuted

@[simp]
theorem length_reverseLabels (word : List Symbol) :
    (reverseLabels separator word).length = word.length :=
  (reverseLabels_perm word).length_eq

@[simp]
theorem reverseLabels_reverseLabels (word : List Symbol) :
    reverseLabels separator (reverseLabels separator word) = word := by
  have split : (reverseLabels separator word).splitOn separator =
      (word.splitOn separator).reverse := by
    apply List.splitOn_intercalate
    · intro label member
      exact not_mem_of_mem_splitOn (List.mem_reverse.mp member)
    · simp
  rw [reverseLabels, split, List.reverse_reverse, List.intercalate_splitOn]

theorem reverseLabels_append_cons (front back : List Symbol) :
    reverseLabels separator (front ++ separator :: back) =
      reverseLabels separator back ++ separator :: reverseLabels separator front := by
  rw [reverseLabels, List.splitOn_append_cons_self, List.reverse_append,
    intercalate_append (by simp) (by simp)]
  rfl

/-! ### Label suffixes -/

/-- `suffix` is `word` or follows a separator at the end of it. -/
def Covers (separator : Symbol) (suffix word : List Symbol) : Prop :=
  word = suffix ∨ ∃ front, word = front ++ separator :: suffix

omit [DecidableEq Symbol] in
theorem Covers.isSuffix {suffix word : List Symbol} (covers : Covers separator suffix word) :
    suffix <:+ word := by
  rcases covers with rfl | ⟨front, rfl⟩
  · exact List.suffix_rfl
  · exact ⟨front ++ [separator], by simp⟩

omit [DecidableEq Symbol] in
theorem Covers.length_le {suffix word : List Symbol} (covers : Covers separator suffix word) :
    suffix.length ≤ word.length :=
  covers.isSuffix.length_le

instance (suffix word : List Symbol) : Decidable (Covers separator suffix word) :=
  decidable_of_iff (word = suffix ∨ separator :: suffix <:+ word)
    (or_congr_right (exists_congr fun _ => eq_comm))

theorem covers_dropWhile_iff {suffix : List Symbol} (first : suffix.head? ≠ some separator)
    (word : List Symbol) :
    Covers separator suffix (word.dropWhile (· == separator)) ↔ Covers separator suffix word := by
  induction word with
  | nil => rfl
  | cons symbol word inductionHypothesis =>
      by_cases isSeparator : symbol = separator
      · subst isSeparator
        rw [List.dropWhile_cons_of_pos (p := (· == symbol)) (beq_self_eq_true symbol),
          inductionHypothesis]
        constructor
        · rintro (rfl | ⟨front, rfl⟩)
          · exact .inr ⟨[], rfl⟩
          · exact .inr ⟨symbol :: front, rfl⟩
        · rintro (rfl | ⟨front, whole⟩)
          · exact absurd rfl first
          · cases front with
            | nil => exact .inl (List.cons.inj whole).2
            | cons _ front => exact .inr ⟨front, (List.cons.inj whole).2⟩
      · rw [List.dropWhile_cons_of_neg (by simpa using isSeparator)]

/-- A prefix of this length ends where a label ends. -/
def Boundary (separator : Symbol) (word : List Symbol) (size : Nat) : Prop :=
  0 < size ∧ (size = word.length ∨ word[size]? = some separator)

instance (word : List Symbol) (size : Nat) : Decidable (Boundary separator word size) :=
  inferInstanceAs (Decidable (_ ∧ _))

/-- The prefixes of the reversed word that end with a label are the reversals of
the nonempty label suffixes. -/
theorem boundary_reverseLabels_iff {word : List Symbol} {size : Nat} :
    Boundary separator (reverseLabels separator word) size ↔
      ∃ suffix, suffix ≠ [] ∧ suffix.length = size ∧ Covers separator suffix word ∧
        (reverseLabels separator word).take size = reverseLabels separator suffix := by
  constructor
  · rintro ⟨positive, whole | inside⟩
    · subst whole
      refine ⟨word, ?_, by simp, .inl rfl, List.take_length⟩
      rintro rfl
      simp at positive
    · rcases List.getElem?_eq_some_iff.mp inside with ⟨bound, symbol⟩
      have cut := List.take_append_drop size (reverseLabels separator word)
      rw [List.drop_eq_getElem_cons bound, symbol] at cut
      have original := congrArg (reverseLabels separator) cut
      rw [reverseLabels_reverseLabels, reverseLabels_append_cons] at original
      have size_eq : ((reverseLabels separator word).take size).length = size :=
        List.length_take_of_le (Nat.le_of_lt bound)
      refine ⟨reverseLabels separator ((reverseLabels separator word).take size),
        ?_, by rw [length_reverseLabels, size_eq], .inr ⟨_, original.symm⟩, by simp⟩
      intro empty
      have := congrArg List.length empty
      rw [length_reverseLabels, size_eq] at this
      simp at this
      omega
  · rintro ⟨suffix, nonempty, rfl, covers, _⟩
    have positive : 0 < suffix.length := List.length_pos_iff.mpr nonempty
    rcases covers with rfl | ⟨front, rfl⟩
    · exact ⟨positive, .inl (by simp)⟩
    · refine ⟨positive, .inr ?_⟩
      rw [reverseLabels_append_cons, List.getElem?_append_right (by simp)]
      simp

theorem take_reverseLabels_of_covers {suffix word : List Symbol}
    (covers : Covers separator suffix word) :
    (reverseLabels separator word).take suffix.length = reverseLabels separator suffix := by
  rcases covers with rfl | ⟨front, rfl⟩
  · exact List.take_of_length_le (by simp)
  · rw [reverseLabels_append_cons]
    exact List.take_left' (by simp)

/-! ### Scanning for the longest key -/

variable {Value : Type v}

/-- What a map holds under the prefix of this length, if a label ends there. -/
def hit (separator : Symbol) (get : List Symbol → Option Value) (word : List Symbol)
    (size : Nat) : Option Value :=
  if Boundary separator word size then get (word.take size) else none

/-- Look up every prefix that ends with a label, shortest first, and keep the
last hit. -/
def scan (separator : Symbol) (get : List Symbol → Option Value) (word : List Symbol) :
    Option Value :=
  (List.range word.length).foldl (fun last index =>
    if index + 1 = word.length ∨ word[index + 1]? = some separator then
      (get (word.take (index + 1))).or last
    else last) none

theorem scan_congr {left right : List Symbol → Option Value} {word : List Symbol}
    (agree : ∀ key, key <+: word → left key = right key) :
    scan separator left word = scan separator right word := by
  unfold scan
  apply List.foldl_ext
  intro last index _
  rw [agree _ (List.take_prefix _ _)]

/-- Following every value while scanning, if that never fails, is following the last. -/
theorem scan_bind {Other : Type v} {get : List Symbol → Option Value} (word : List Symbol)
    {follow : Value → Option Other}
    (total : ∀ key value, get key = some value → (follow value).isSome = true) :
    (scan separator get word).bind follow =
      scan separator (fun key => (get key).bind follow) word := by
  have step : ∀ (last : Option Value) (index : Nat),
      (if index + 1 = word.length ∨ word[index + 1]? = some separator then
        ((get (word.take (index + 1))).bind follow).or (last.bind follow)
      else last.bind follow) =
      (if index + 1 = word.length ∨ word[index + 1]? = some separator then
        (get (word.take (index + 1))).or last
      else last).bind follow := by
    intro last index
    split
    · cases found : get (word.take (index + 1)) with
      | none => simp
      | some value =>
          obtain ⟨other, followed⟩ := Option.isSome_iff_exists.mp (total _ _ found)
          simp [followed]
    · rfl
  exact (List.foldl_hom (fun last => Option.bind last follow) step).symm

theorem scan_map {Other : Type v} (get : List Symbol → Option Value) (word : List Symbol)
    (read : Value → Other) :
    (scan separator get word).map read = scan separator (fun key => (get key).map read) word := by
  have total : ∀ key value, get key = some value → (some (read value)).isSome = true :=
    fun _ _ _ => rfl
  simpa only [Option.map_eq_bind, Function.comp_def] using scan_bind word total

theorem scan_of_whole {get : List Symbol → Option Value} {word : List Symbol} {value : Value}
    (nonempty : word ≠ []) (found : get word = some value) :
    scan separator get word = some value := by
  obtain ⟨count, length⟩ : ∃ count, word.length = count + 1 :=
    Nat.exists_eq_add_one.mpr (List.length_pos_iff.mpr nonempty)
  have whole : word.take (count + 1) = word := List.take_of_length_le (by omega)
  unfold scan
  rw [length, List.range_succ, List.foldl_append, List.foldl_cons, List.foldl_nil,
    if_pos (.inl rfl), whole, found, Option.some_or]

theorem scan_of_none {get : List Symbol → Option Value} {word : List Symbol}
    (absent : ∀ key, key <+: word → get key = none) : scan separator get word = none := by
  rw [scan_congr absent]
  apply List.foldl_fixed'
  simp

theorem scan_step (get : List Symbol → Option Value) (word : List Symbol) (index : Nat)
    (last : Option Value) :
    (if index + 1 = word.length ∨ word[index + 1]? = some separator then
      (get (word.take (index + 1))).or last
    else last) = (hit separator get word (index + 1)).or last := by
  simp only [hit, Boundary, Nat.succ_pos, true_and]
  split <;> simp

theorem scan_eq (get : List Symbol → Option Value) (word : List Symbol) :
    scan separator get word = (List.range word.length).foldl
      (fun last index => (hit separator get word (index + 1)).or last) none := by
  simp only [scan, scan_step]

theorem foldl_hit_eq_some_iff {hits : Nat → Option Value} {count : Nat} {value : Value} :
    (List.range count).foldl (fun last index => (hits (index + 1)).or last) none =
        some value ↔
      ∃ size, 0 < size ∧ size ≤ count ∧ hits size = some value ∧
        ∀ larger, size < larger → larger ≤ count → hits larger = none := by
  induction count with
  | zero =>
      simp only [List.range_zero, List.foldl_nil, reduceCtorEq, false_iff]
      rintro ⟨size, positive, bound, _⟩
      omega
  | succ count inductionHypothesis =>
      rw [List.range_succ, List.foldl_append, List.foldl_cons, List.foldl_nil]
      cases final : hits (count + 1) with
      | some found =>
          simp only [Option.some_or, Option.some.injEq]
          constructor
          · rintro rfl
            exact ⟨count + 1, by omega, (Nat.le_refl _), final, fun larger _ _ => by omega⟩
          · rintro ⟨size, _, bound, hitSize, later⟩
            rcases Nat.lt_or_ge size (count + 1) with smaller | same
            · have := later (count + 1) smaller (Nat.le_refl _)
              simp [final] at this
            · obtain rfl : size = count + 1 := by omega
              exact Option.some.inj (final.symm.trans hitSize)
      | none =>
          rw [Option.none_or, inductionHypothesis]
          constructor
          · rintro ⟨size, positive, bound, hitSize, later⟩
            refine ⟨size, positive, by omega, hitSize, fun larger above below => ?_⟩
            rcases Nat.lt_or_ge larger (count + 1) with smaller | same
            · exact later larger above (by omega)
            · obtain rfl : larger = count + 1 := by omega
              exact final
          · rintro ⟨size, positive, bound, hitSize, later⟩
            have notFinal : size ≠ count + 1 := by
              rintro rfl
              simp [final] at hitSize
            exact ⟨size, positive, by omega, hitSize,
              fun larger above below => later larger above (by omega)⟩

theorem foldl_hit_eq_none_iff {hits : Nat → Option Value} {count : Nat} :
    (List.range count).foldl (fun last index => (hits (index + 1)).or last) none = none ↔
      ∀ size, 0 < size → size ≤ count → hits size = none := by
  induction count with
  | zero =>
      simp only [List.range_zero, List.foldl_nil, true_iff]
      intro size positive bound
      omega
  | succ count inductionHypothesis =>
      rw [List.range_succ, List.foldl_append, List.foldl_cons, List.foldl_nil,
        Option.or_eq_none_iff, inductionHypothesis]
      constructor
      · rintro ⟨final, earlier⟩ size positive bound
        rcases Nat.lt_or_ge size (count + 1) with smaller | same
        · exact earlier size positive (by omega)
        · obtain rfl : size = count + 1 := by omega
          exact final
      · intro missed
        exact ⟨missed (count + 1) (by omega) (Nat.le_refl _),
          fun size positive bound => missed size positive (by omega)⟩

/-- `front` is `word` or is followed by a separator in it. -/
def Opens (separator : Symbol) (front word : List Symbol) : Prop :=
  word = front ∨ ∃ back, word = front ++ separator :: back

omit [DecidableEq Symbol] in
theorem Opens.isPrefix {front word : List Symbol} (opens : Opens separator front word) :
    front <+: word := by
  rcases opens with rfl | ⟨back, rfl⟩
  · exact List.prefix_rfl
  · exact List.prefix_append _ _

omit [DecidableEq Symbol] in
theorem opens_take_iff {word : List Symbol} {size : Nat} (bound : size ≤ word.length) :
    Opens separator (word.take size) word ↔
      size = word.length ∨ word[size]? = some separator := by
  constructor
  · rintro (whole | ⟨back, cut⟩)
    · left
      have length := congrArg List.length whole
      rw [List.length_take_of_le bound] at length
      exact length.symm
    · right
      rw [cut, List.getElem?_append_right (List.length_take_le size word),
        List.length_take_of_le bound, Nat.sub_self]
      rfl
  · rintro (rfl | inside)
    · exact .inl List.take_length.symm
    · obtain ⟨below, symbol⟩ := List.getElem?_eq_some_iff.mp inside
      have cut := List.take_append_drop size word
      rw [List.drop_eq_getElem_cons below, symbol] at cut
      exact .inr ⟨_, cut.symm⟩

/-- The scan finds the longest key among the fronts that end with a label. -/
theorem scan_eq_some_iff {get : List Symbol → Option Value} {word : List Symbol} {value : Value} :
    scan separator get word = some value ↔
      ∃ front, front ≠ [] ∧ Opens separator front word ∧ get front = some value ∧
        ∀ longer, Opens separator longer word → front.length < longer.length →
          get longer = none := by
  have hits : ∀ size found, 0 < size → size ≤ word.length →
      (hit separator get word size = some found ↔
        Opens separator (word.take size) word ∧ get (word.take size) = some found) := by
    intro size found positive bound
    simp only [hit, Boundary, positive, true_and, opens_take_iff bound,
      Option.ite_none_right_eq_some]
  rw [scan_eq, foldl_hit_eq_some_iff]
  constructor
  · rintro ⟨size, positive, bound, found, later⟩
    obtain ⟨opens, isKey⟩ := (hits size value positive bound).mp found
    have length : (word.take size).length = size := List.length_take_of_le bound
    refine ⟨word.take size, ?_, opens, isKey, fun longer longerOpens above => ?_⟩
    · exact List.ne_nil_of_length_pos (by omega)
    · have longerBound := longerOpens.isPrefix.length_le
      have whole := List.prefix_iff_eq_take.mp longerOpens.isPrefix
      cases other : get longer with
      | none => rfl
      | some otherValue =>
          rw [whole] at longerOpens other
          have missed := later longer.length (by omega) longerBound
          rw [(hits longer.length otherValue (by omega) longerBound).mpr ⟨longerOpens, other⟩]
            at missed
          cases missed
  · rintro ⟨front, nonempty, opens, isKey, later⟩
    have positive := List.length_pos_iff.mpr nonempty
    have bound := opens.isPrefix.length_le
    have whole := List.prefix_iff_eq_take.mp opens.isPrefix
    refine ⟨front.length, positive, bound, ?_, fun larger above largerBound => ?_⟩
    · rw [hits _ _ positive bound, ← whole]
      exact ⟨opens, isKey⟩
    · cases other : hit separator get word larger with
      | none => rfl
      | some otherValue =>
          obtain ⟨longerOpens, isOther⟩ := (hits larger otherValue (by omega) largerBound).mp other
          have longer : front.length < (word.take larger).length := by
            rwa [List.length_take_of_le largerBound]
          rw [later _ longerOpens longer] at isOther
          cases isOther

theorem hit_reverseLabels_of_covers (get : List Symbol → Option Value)
    {suffix word : List Symbol} (nonempty : suffix ≠ [])
    (covers : Covers separator suffix word) :
    hit separator get (reverseLabels separator word) suffix.length =
      get (reverseLabels separator suffix) := by
  have boundary : Boundary separator (reverseLabels separator word) suffix.length :=
    boundary_reverseLabels_iff.mpr
      ⟨suffix, nonempty, rfl, covers, take_reverseLabels_of_covers covers⟩
  rw [hit, if_pos boundary, take_reverseLabels_of_covers covers]

theorem hit_reverseLabels_eq_some {get : List Symbol → Option Value}
    {word : List Symbol} {size : Nat} {value : Value}
    (found : hit separator get (reverseLabels separator word) size = some value) :
    ∃ suffix, suffix ≠ [] ∧ suffix.length = size ∧ Covers separator suffix word ∧
      get (reverseLabels separator suffix) = some value := by
  have boundary : Boundary separator (reverseLabels separator word) size := by
    by_contra outside
    simp [hit, outside] at found
  rcases boundary_reverseLabels_iff.mp boundary with
    ⟨suffix, nonempty, length, covers, reversed⟩
  rw [hit, if_pos boundary, reversed] at found
  exact ⟨suffix, nonempty, length, covers, found⟩

/-- The scan over a reversed word finds the longest label suffix whose reversal
is a key. -/
theorem scan_reverseLabels_eq_some_iff {get : List Symbol → Option Value}
    {word : List Symbol} {value : Value} :
    scan separator get (reverseLabels separator word) = some value ↔
      ∃ suffix, suffix ≠ [] ∧ Covers separator suffix word ∧
        get (reverseLabels separator suffix) = some value ∧
        ∀ longer, Covers separator longer word → suffix.length < longer.length →
          get (reverseLabels separator longer) = none := by
  rw [scan_eq, foldl_hit_eq_some_iff, length_reverseLabels]
  constructor
  · rintro ⟨size, _, _, found, later⟩
    rcases hit_reverseLabels_eq_some found with ⟨suffix, nonempty, rfl, covers, isKey⟩
    refine ⟨suffix, nonempty, covers, isKey, fun longer longerCovers above => ?_⟩
    have longerNonempty : longer ≠ [] := by
      rintro rfl
      simp at above
    rw [← hit_reverseLabels_of_covers get longerNonempty longerCovers]
    exact later longer.length above longerCovers.length_le
  · rintro ⟨suffix, nonempty, covers, isKey, later⟩
    refine ⟨suffix.length, List.length_pos_iff.mpr nonempty, covers.length_le, ?_,
      fun larger above _ => ?_⟩
    · rw [hit_reverseLabels_of_covers get nonempty covers, isKey]
    · cases found : hit separator get (reverseLabels separator word) larger with
      | none => rfl
      | some other =>
          rcases hit_reverseLabels_eq_some found with ⟨longer, _, rfl, longerCovers, otherKey⟩
          rw [later longer longerCovers above] at otherKey
          cases otherKey

theorem scan_reverseLabels_eq_none_iff {get : List Symbol → Option Value}
    {word : List Symbol} :
    scan separator get (reverseLabels separator word) = none ↔
      ∀ suffix, suffix ≠ [] → Covers separator suffix word →
        get (reverseLabels separator suffix) = none := by
  rw [scan_eq, foldl_hit_eq_none_iff, length_reverseLabels]
  constructor
  · intro missed suffix nonempty covers
    rw [← hit_reverseLabels_of_covers get nonempty covers]
    exact missed _ (List.length_pos_iff.mpr nonempty) covers.length_le
  · intro absent size _ _
    cases found : hit separator get (reverseLabels separator word) size with
    | none => rfl
    | some value =>
        rcases hit_reverseLabels_eq_some found with ⟨suffix, nonempty, _, covers, isKey⟩
        rw [absent suffix nonempty covers] at isKey
        cases isKey

/-! ### Labels that hold separators -/

section Fragments

variable {Symbol : Type u} {separator : Symbol} [DecidableEq Symbol]

/-- Label suffixes are suffixes of the list of labels. -/
theorem covers_iff_splitOn {suffix word : List Symbol} :
    Covers separator suffix word ↔ suffix.splitOn separator <:+ word.splitOn separator := by
  constructor
  · rintro (rfl | ⟨front, rfl⟩)
    · exact List.suffix_rfl
    · exact ⟨front.splitOn separator, (List.splitOn_append_cons_self front suffix).symm⟩
  · rintro ⟨front, whole⟩
    have joined := congrArg [separator].intercalate whole
    rw [List.intercalate_splitOn] at joined
    by_cases empty : front = []
    · left
      simpa [empty] using joined.symm
    · right
      refine ⟨[separator].intercalate front, ?_⟩
      rw [← joined, intercalate_append empty (List.splitOn_ne_nil _ _), List.intercalate_splitOn]

theorem splitOn_append_of_not_mem {front : List Symbol} (uncut : separator ∉ front)
    (back : List Symbol) :
    (front ++ back).splitOn separator =
      (back.splitOn separator).modifyHead fun piece => front ++ piece := by
  induction front with
  | nil =>
      rw [List.nil_append]
      cases back.splitOn separator with
      | nil => rfl
      | cons first rest => rfl
  | cons symbol front inductionHypothesis =>
      have different : symbol ≠ separator := fun same => uncut (by simp [same])
      have rest : separator ∉ front := fun member => uncut (List.mem_cons_of_mem _ member)
      rw [List.cons_append, List.splitOn_cons_eq_if_modifyHead, inductionHypothesis rest]
      simp only [beq_iff_eq, different, if_false]
      cases back.splitOn separator with
      | nil => rfl
      | cons first rest => rfl

theorem length_splitOn_le (word : List Symbol) :
    (word.splitOn separator).length ≤ word.length + 1 := by
  induction word with
  | nil => simp
  | cons symbol word inductionHypothesis =>
      rw [List.splitOn_cons_eq_if_modifyHead]
      split
      · simpa using inductionHypothesis
      · rw [List.length_modifyHead, List.length_cons]
        omega

theorem splitOn_intercalate_flatMap {labels : List (List Symbol)} (nonempty : labels ≠ []) :
    ([separator].intercalate labels).splitOn separator =
      labels.flatMap fun label => label.splitOn separator := by
  induction labels with
  | nil => exact absurd rfl nonempty
  | cons label labels inductionHypothesis =>
      by_cases single : labels = []
      · simp [single]
      · rw [List.intercalate_cons_of_ne_nil single, List.append_assoc, List.singleton_append,
          List.splitOn_append_cons_self, inductionHypothesis single, List.flatMap_cons]

variable {Label : Type u} {Piece : Type v} {front : Label → List Piece} {last : Label → Piece}
  {plain : Piece → Prop}

omit [DecidableEq Symbol] in
theorem front_eq_nil (broken : ∀ label, ∀ piece ∈ front label, ¬ plain piece)
    {pieces before : List Piece} (allPlain : ∀ piece ∈ pieces, plain piece)
    (nonempty : pieces ≠ []) {label : Label} (ends : pieces <:+ before ++ front label) :
    front label = [] := by
  rcases List.eq_nil_or_concat (front label) with empty | ⟨init, final, cut⟩
  · exact empty
  · rw [cut, List.concat_eq_append, ← List.append_assoc, List.suffix_concat_iff] at ends
    rcases ends with empty | ⟨rest, rfl, _⟩
    · exact absurd empty nonempty
    · have inFront : final ∈ front label := by simp [cut]
      exact absurd (allPlain final (by simp)) (broken label final inFront)

/-- Where every piece of a label but the last is broken, plain pieces at the end are
the last pieces of the last labels, all of them uncut but possibly the first. -/
theorem suffix_flatMap_iff (broken : ∀ label, ∀ piece ∈ front label, ¬ plain piece)
    {pieces : List Piece} (allPlain : ∀ piece ∈ pieces, plain piece) (nonempty : pieces ≠ [])
    (labels : List Label) :
    pieces <:+ labels.flatMap (fun label => front label ++ [last label]) ↔
      ∃ before label after, labels = before ++ label :: after ∧
        pieces = last label :: after.map last ∧ ∀ other ∈ after, front other = [] := by
  constructor
  · intro ends
    induction labels using List.reverseRecOn generalizing pieces with
    | nil => exact absurd (List.suffix_nil.mp ends) nonempty
    | append_singleton labels label inductionHypothesis =>
        rw [List.flatMap_append, List.flatMap_singleton, ← List.append_assoc,
          List.suffix_concat_iff] at ends
        rcases ends with empty | ⟨init, rfl, ends⟩
        · exact absurd empty nonempty
        · by_cases single : init = []
          · exact ⟨labels, label, [], rfl, by simp [single], by simp⟩
          · have initPlain : ∀ piece ∈ init, plain piece :=
              fun piece member => allPlain piece (List.mem_append_left _ member)
            have uncut := front_eq_nil broken initPlain single ends
            rw [uncut, List.append_nil] at ends
            obtain ⟨before, other, after, rfl, rfl, later⟩ :=
              inductionHypothesis initPlain single ends
            refine ⟨before, other, after ++ [label], by simp, by simp, fun next member => ?_⟩
            rcases List.mem_append.mp member with inAfter | final
            · exact later next inAfter
            · rw [List.mem_singleton.mp final, uncut]
  · rintro ⟨before, label, after, rfl, rfl, uncut⟩
    have rest : after.flatMap (fun label => front label ++ [last label]) = after.map last := by
      rw [List.map_eq_flatMap]
      refine List.flatMap_congr fun other member => ?_
      rw [uncut other member, List.nil_append]
    refine ⟨before.flatMap (fun label => front label ++ [last label]) ++ front label, ?_⟩
    rw [List.flatMap_append, List.flatMap_cons, rest]
    simp

end Fragments

end LabelKey
