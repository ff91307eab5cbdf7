import Mathlib.Data.List.Sort
import Mathlib.Data.List.TakeWhile
import Mathlib.Order.Basic

/-!
# Cutting a stably sorted list

A list is sorted by a key, stably, and cut to its front.  The elements that
remain are the ones with the least keys.  When they still stand in the order of
the unsorted list is decided by the pairs that the sort exchanges: the first
of such a pair has to fall behind the cut.  What holds along the sorted list is
decided by the pairs of the unsorted one.
-/

universe u v

namespace StableCut

variable {Item : Type u} {Key : Type v} [LinearOrder Key]

def sortBy (key : Item → Key) (items : List Item) : List Item :=
  items.insertionSort fun left right => key left ≤ key right

variable {key : Item → Key}

theorem sortBy_perm (key : Item → Key) (items : List Item) : (sortBy key items).Perm items :=
  List.perm_insertionSort _ _

theorem sortBy_sorted (key : Item → Key) (items : List Item) :
    (sortBy key items).Pairwise fun left right => key left ≤ key right :=
  haveI : Std.Total fun left right : Item => key left ≤ key right :=
    ⟨fun left right => le_total (key left) (key right)⟩
  haveI : IsTrans Item fun left right => key left ≤ key right :=
    ⟨fun _ _ _ first second => le_trans first second⟩
  List.pairwise_insertionSort _ _

theorem sortBy_eq_self {items : List Item}
    (sorted : items.Pairwise fun left right => key left ≤ key right) :
    sortBy key items = items :=
  sorted.insertionSort_eq

theorem filter_sortBy (key : Item → Key) (value : Key) (items : List Item) :
    (sortBy key items).filter (fun item => key item = value) =
      items.filter fun item => key item = value := by
  have level : (items.filter fun item => key item = value).Pairwise
      fun left right => key left ≤ key right := by
    apply List.pairwise_of_forall_mem_list
    intro left leftMember right rightMember
    have leftKey := (List.mem_filter.mp leftMember).2
    have rightKey := (List.mem_filter.mp rightMember).2
    simp only [decide_eq_true_eq] at leftKey rightKey
    exact le_of_eq (leftKey.trans rightKey.symm)
  have stable := (List.sublist_insertionSort level List.filter_sublist).filter
    fun item => key item = value
  rw [List.filter_filter] at stable
  simp only [Bool.and_self] at stable
  refine (stable.eq_of_length ?_).symm
  exact (((sortBy_perm key items).filter _).length_eq).symm

/-- Elements can be replaced before or after sorting, if their keys are in the same order. -/
theorem map_sortBy {Other OtherKey : Type*} [LinearOrder OtherKey] {otherKey : Other → OtherKey}
    (change : Item → Other) {items : List Item}
    (agrees : ∀ left ∈ items, ∀ right ∈ items,
      key left ≤ key right ↔ otherKey (change left) ≤ otherKey (change right)) :
    (sortBy key items).map change = sortBy otherKey (items.map change) :=
  List.map_insertionSort _ _ _ _ agrees

/-- The list is in the order of the keys, and the elements with one key are in their old order. -/
structure IsStableSort (key : Item → Key) (items arranged : List Item) : Prop where
  sorted : arranged.Pairwise fun left right => key left ≤ key right
  stable : ∀ value, arranged.filter (fun item => key item = value) =
    items.filter fun item => key item = value

theorem sortBy_isStableSort (key : Item → Key) (items : List Item) :
    IsStableSort key items (sortBy key items) where
  sorted := sortBy_sorted key items
  stable value := filter_sortBy key value items

theorem take_le_drop (key : Item → Key) (items : List Item) (count : Nat) :
    ∀ kept ∈ (sortBy key items).take count, ∀ dropped ∈ (sortBy key items).drop count,
      key kept ≤ key dropped := by
  have sorted := sortBy_sorted key items
  rw [← List.take_append_drop count (sortBy key items), List.pairwise_append] at sorted
  exact sorted.2.2

/-! ### When the cut keeps the order -/

theorem sortBy_cons_of_le {item : Item} {items : List Item}
    (least : ∀ other ∈ items, key item ≤ key other) :
    sortBy key (item :: items) = item :: sortBy key items :=
  List.insertionSort_cons_of_forall_rel _ least

/-- The other element has the smaller key. -/
def below (key : Item → Key) (item other : Item) : Bool := key other < key item

theorem length_takeWhile_below {item : Item} {items : List Item}
    (sorted : items.Pairwise fun left right => key left ≤ key right) :
    (items.takeWhile (below key item)).length = items.countP (below key item) := by
  induction items with
  | nil => rfl
  | cons first items inductionHypothesis =>
      obtain ⟨least, rest⟩ := List.pairwise_cons.mp sorted
      cases smaller : below key item first with
      | true =>
          rw [List.takeWhile_cons_of_pos smaller, List.length_cons, inductionHypothesis rest,
            List.countP_cons_of_pos smaller]
      | false =>
          have noneBelow : (first :: items).countP (below key item) = 0 := by
            apply List.countP_eq_zero.mpr
            intro other member otherBelow
            have least : key first ≤ key other := by
              rcases List.mem_cons.mp member with same | later
              · exact le_of_eq (congrArg key same.symm)
              · exact least other later
            simp only [below, decide_eq_true_eq] at otherBelow
            simp only [below, decide_eq_false_iff_not] at smaller
            exact smaller (lt_of_le_of_lt least otherBelow)
          rw [List.takeWhile_cons_of_neg (by simp [smaller]), noneBelow]
          rfl

theorem sortBy_cons (item : Item) (items : List Item) :
    sortBy key (item :: items) =
      (sortBy key items).takeWhile (below key item) ++
        item :: (sortBy key items).dropWhile (below key item) := by
  have placed := List.insertionSort_cons_eq_take_drop
    (fun left right : Item => key left ≤ key right) item items
  simp only [not_le] at placed
  exact placed

theorem length_takeWhile_sortBy (item : Item) (items : List Item) :
    ((sortBy key items).takeWhile (below key item)).length = items.countP (below key item) := by
  rw [length_takeWhile_below (sortBy_sorted key items), (sortBy_perm key items).countP_eq]

theorem take_sortBy_cons {item : Item} {items : List Item} {count : Nat}
    (before : count ≤ items.countP (below key item)) :
    (sortBy key (item :: items)).take count = (sortBy key items).take count := by
  have fits : count ≤ ((sortBy key items).takeWhile (below key item)).length :=
    before.trans_eq (length_takeWhile_sortBy item items).symm
  rw [sortBy_cons, List.take_append_of_le_length fits]
  conv_rhs => rw [← List.takeWhile_append_dropWhile (p := below key item) (l := sortBy key items)]
  rw [List.take_append_of_le_length fits]

/-- The kept elements stand in their first order if of every two that the sort
exchanges the first one is cut off. -/
theorem take_sortBy_sublist {items : List Item} {count : Nat}
    (cutOff : ∀ first second, [first, second].Sublist items → key second < key first →
      count ≤ items.countP (below key first)) :
    ((sortBy key items).take count).Sublist items := by
  induction items generalizing count with
  | nil => simp [sortBy]
  | cons item items inductionHypothesis =>
      by_cases least : ∀ other ∈ items, key item ≤ key other
      · cases count with
        | zero => simp
        | succ count =>
            rw [sortBy_cons_of_le least, List.take_succ_cons]
            apply List.Sublist.cons_cons
            apply inductionHypothesis
            intro first second inside exchanged
            have bound := cutOff first second (inside.cons item) exchanged
            have counted := List.countP_cons (p := below key first) (a := item) (l := items)
            split at counted <;> omega
      · push Not at least
        obtain ⟨other, member, smaller⟩ := least
        have pair : [item, other].Sublist (item :: items) :=
          (List.singleton_sublist.mpr member).cons_cons item
        have before := cutOff item other pair smaller
        rw [List.countP_cons_of_neg (by simp [below])] at before
        rw [take_sortBy_cons before]
        apply List.Sublist.cons
        apply inductionHypothesis
        intro first second inside exchanged
        have bound := cutOff first second (inside.cons item) exchanged
        by_cases itemBelow : below key first item = true
        · refine before.trans (List.countP_mono_left fun third _ thirdBelow => ?_)
          simp only [below, decide_eq_true_eq] at itemBelow thirdBelow ⊢
          exact lt_trans thirdBelow itemBelow
        · rwa [List.countP_cons_of_neg itemBelow] at bound

/-- A cut behind an element that the sort moves back breaks the order. -/
theorem count_le_of_take_sortBy_sublist {item other : Item} {items : List Item} {count : Nat}
    (absent : item ∉ items) (member : other ∈ items) (smaller : key other < key item)
    (kept : ((sortBy key (item :: items)).take count).Sublist (item :: items)) :
    count ≤ items.countP (below key item) := by
  by_contra behind
  have some : 0 < items.countP (below key item) :=
    List.countP_pos_iff.mpr ⟨other, member, by simpa [below] using smaller⟩
  rw [sortBy_cons] at kept
  rw [← length_takeWhile_sortBy item items] at behind some
  cases front : (sortBy key items).takeWhile (below key item) with
  | nil => simp [front] at some
  | cons head front' =>
      have headBelow : below key item head = true := by
        have inFront : head ∈ (sortBy key items).takeWhile (below key item) := by simp [front]
        exact List.mem_takeWhile_imp inFront
      have different : head ≠ item := by
        intro same
        subst same
        simp [below] at headBelow
      rw [front, List.length_cons] at behind
      rw [front] at kept
      cases count with
      | zero => exact behind (Nat.zero_le _)
      | succ count =>
          -- The kept elements start with a smaller one, so all of them are among the rest.
          rw [List.cons_append, List.take_succ_cons] at kept
          have inside := (kept.of_cons_of_ne different).subset
          have itemKept : item ∈ (front' ++
              item :: (sortBy key items).dropWhile (below key item)).take count := by
            have room : 0 < count - front'.length := by omega
            obtain ⟨left, equal⟩ := Nat.exists_eq_add_of_lt room
            rw [List.take_append, equal]
            simp
          exact absent (inside (List.mem_cons_of_mem _ itemKept))

/-- And only then, if no two elements are the same. -/
theorem cutOff_of_take_sortBy_sublist {items : List Item} {count : Nat}
    (distinct : items.Nodup) (kept : ((sortBy key items).take count).Sublist items)
    {first second : Item} (pair : [first, second].Sublist items)
    (exchanged : key second < key first) : count ≤ items.countP (below key first) := by
  induction items generalizing count with
  | nil => cases pair
  | cons item items inductionHypothesis =>
      obtain ⟨absent, distinct⟩ := List.nodup_cons.mp distinct
      by_cases least : ∀ other ∈ items, key item ≤ key other
      · have inside : [first, second].Sublist items := by
          cases pair with
          | cons _ inside => exact inside
          | cons_cons _ inside =>
              exact absurd exchanged (not_lt.mpr (least second (inside.subset (by simp))))
        cases count with
        | zero => exact Nat.zero_le _
        | succ count =>
            rw [sortBy_cons_of_le least, List.take_succ_cons, List.cons_sublist_cons] at kept
            have bound := inductionHypothesis distinct kept inside
            have itemBelow : below key first item = true := by
              have member : second ∈ items := inside.subset (by simp)
              simpa [below] using lt_of_le_of_lt (least second member) exchanged
            rw [List.countP_cons_of_pos itemBelow]
            exact Nat.succ_le_succ bound
      · push Not at least
        obtain ⟨other, member, smaller⟩ := least
        have before := count_le_of_take_sortBy_sublist absent member smaller kept
        rw [take_sortBy_cons before] at kept
        have itemDropped : item ∉ (sortBy key items).take count := fun inFront =>
          absent ((sortBy_perm key items).mem_iff.mp (List.mem_of_mem_take inFront))
        have keptInside : ((sortBy key items).take count).Sublist items := by
          rcases List.sublist_cons_iff.mp kept with inside | ⟨rest, starts, _⟩
          · exact inside
          · exact absurd (starts ▸ List.mem_cons_self) itemDropped
        rw [List.sublist_cons_iff] at pair
        rcases pair with inside | ⟨_, starts, _⟩
        · have bound := inductionHypothesis distinct keptInside inside
          exact bound.trans ((List.sublist_cons_self item items).countP_le)
        · cases starts
          exact before.trans ((List.sublist_cons_self _ items).countP_le)

/-! ### What holds of every pair -/

theorem le_of_mem_dropWhile_below {item other : Item} {items : List Item}
    (sorted : items.Pairwise fun left right => key left ≤ key right)
    (behind : other ∈ items.dropWhile (below key item)) : key item ≤ key other := by
  cases dropped : items.dropWhile (below key item) with
  | nil =>
      rw [dropped] at behind
      cases behind
  | cons first rest =>
      have least : key item ≤ key first := by
        have nonempty : items.dropWhile (below key item) ≠ [] := by simp [dropped]
        have notBelow := List.head_dropWhile_not (below key item) nonempty
        simpa [dropped, below] using notBelow
      have stillSorted := sorted.sublist (List.dropWhile_sublist (below key item))
      rw [dropped] at behind stillSorted
      rcases List.mem_cons.mp behind with rfl | later
      · exact least
      · exact least.trans ((List.pairwise_cons.mp stillSorted).1 other later)

/-- A relation holds along the sorted list if it holds of every pair in the order in
which the sort leaves it. -/
theorem pairwise_sortBy_iff {relation : Item → Item → Prop} {items : List Item} :
    (sortBy key items).Pairwise relation ↔
      items.Pairwise fun first second =>
        (key first ≤ key second → relation first second) ∧
          (key second < key first → relation second first) := by
  induction items with
  | nil => simp [sortBy]
  | cons item items inductionHypothesis =>
      have sorted := sortBy_sorted key items
      have whole := List.takeWhile_append_dropWhile (p := below key item) (l := sortBy key items)
      have inFront : ∀ other ∈ (sortBy key items).takeWhile (below key item),
          key other < key item := by
        intro other member
        simpa [below] using List.mem_takeWhile_imp member
      have behind : ∀ other ∈ (sortBy key items).dropWhile (below key item),
          key item ≤ key other :=
        fun other member => le_of_mem_dropWhile_below sorted member
      have eachSide : ∀ other, other ∈ items →
          other ∈ (sortBy key items).takeWhile (below key item) ∨
            other ∈ (sortBy key items).dropWhile (below key item) := by
        intro other member
        rw [← List.mem_append, whole]
        exact (sortBy_perm key items).mem_iff.mpr member
      have ofSide : ∀ other, other ∈ (sortBy key items).takeWhile (below key item) ∨
          other ∈ (sortBy key items).dropWhile (below key item) → other ∈ items := by
        intro other member
        rw [← List.mem_append, whole] at member
        exact (sortBy_perm key items).mem_iff.mp member
      rw [List.pairwise_cons, ← inductionHypothesis, sortBy_cons]
      conv_rhs => rw [← whole]
      rw [List.pairwise_append, List.pairwise_append, List.pairwise_cons]
      constructor
      · rintro ⟨front, ⟨fromItem, back⟩, across⟩
        refine ⟨fun other member => ⟨fun least => ?_, fun smaller => ?_⟩, front, back,
          fun left leftMember right rightMember => ?_⟩
        · rcases eachSide other member with before | after
          · exact absurd (inFront other before) (not_lt.mpr least)
          · exact fromItem other after
        · rcases eachSide other member with before | after
          · exact across other before item List.mem_cons_self
          · exact absurd smaller (not_lt.mpr (behind other after))
        · exact across left leftMember right (List.mem_cons_of_mem item rightMember)
      · rintro ⟨withItem, front, back, across⟩
        refine ⟨front, ⟨fun other after => ?_, back⟩, fun left leftMember right rightMember => ?_⟩
        · exact (withItem other (ofSide other (.inr after))).1 (behind other after)
        · rcases List.mem_cons.mp rightMember with rfl | later
          · exact (withItem left (ofSide left (.inl leftMember))).2 (inFront left leftMember)
          · exact across left leftMember right later

end StableCut
