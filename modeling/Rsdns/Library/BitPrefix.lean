import Mathlib.Tactic.Ring

/-!
# Prefixes of bit vectors

Two words agree on a prefix if their most significant bits do.  They do if a mask of
leading ones, or a shift to the right, makes them the same, and they form an interval.
-/

namespace BitPrefix

variable {width length : Nat}

/-- The first bits are the same, counted from the most significant one. -/
def Agree (length : Nat) (first second : BitVec width) : Prop :=
  ∀ index < length, first.getMsbD index = second.getMsbD index

def behind (width length : Nat) : BitVec width := BitVec.allOnes width >>> length

def lowest (length : Nat) (word : BitVec width) : BitVec width := word &&& ~~~behind width length

def highest (length : Nat) (word : BitVec width) : BitVec width := word ||| behind width length

/-! ### Agreement as an equation -/

theorem and_mask_eq_iff (short : length ≤ width) {first second : BitVec width} :
    first &&& BitVec.allOnes width <<< (width - length) =
        second &&& BitVec.allOnes width <<< (width - length) ↔
      Agree length first second := by
  constructor
  · intro same index inside
    have bit := congrArg (fun word => word.getMsbD index) same
    have masked : index + (width - length) < width := by omega
    simpa [masked] using bit
  · intro agree
    apply BitVec.eq_of_getMsbD_eq
    intro index _
    by_cases masked : index + (width - length) < width
    · simp [agree index (by omega)]
    · simp [masked]

theorem shiftRight_eq_iff (short : length ≤ width) {first second : BitVec width} :
    first >>> (width - length) = second >>> (width - length) ↔ Agree length first second := by
  constructor
  · intro same index inside
    have bit := congrArg (fun word => word.getMsbD (index + (width - length))) same
    have shifted : index + (width - length) < width := by omega
    simpa [BitVec.getMsbD_ushiftRight, shifted] using bit
  · intro agree
    apply BitVec.eq_of_getMsbD_eq
    intro index below
    by_cases vacated : index < width - length
    · simp [BitVec.getMsbD_ushiftRight, vacated]
    · simp [BitVec.getMsbD_ushiftRight, vacated, agree (index - (width - length)) (by omega)]

/-! ### Agreement as an interval -/

theorem toNat_behind (short : length ≤ width) :
    (behind width length).toNat = 2 ^ (width - length) - 1 := by
  have whole : 2 ^ width = 2 ^ (width - length) * 2 ^ length := by
    rw [← Nat.pow_add, Nat.sub_add_cancel short]
  have positive : 0 < 2 ^ length := Nat.two_pow_pos length
  have room : 0 < 2 ^ (width - length) := Nat.two_pow_pos _
  rw [behind, BitVec.toNat_ushiftRight, BitVec.toNat_allOnes, Nat.shiftRight_eq_div_pow, whole]
  apply Nat.div_eq_of_lt_le
  · rw [Nat.sub_mul]
    omega
  · rw [Nat.sub_add_cancel room]
    exact Nat.sub_lt (Nat.mul_pos room positive) Nat.one_pos

theorem lowest_eq_shift (short : length ≤ width) (word : BitVec width) :
    lowest length word = word >>> (width - length) <<< (width - length) := by
  apply BitVec.eq_of_getMsbD_eq
  intro index below
  by_cases kept : index < length
  · have shifted : index + (width - length) < width := by omega
    simp [lowest, behind, BitVec.getMsbD_ushiftRight, kept, shifted, below]
  · have vacated : ¬ index + (width - length) < width := by omega
    have inside : index - length < width := by omega
    simp [lowest, behind, BitVec.getMsbD_ushiftRight, kept, vacated, inside, below]

theorem toNat_lowest (short : length ≤ width) (word : BitVec width) :
    (lowest length word).toNat = word.toNat / 2 ^ (width - length) * 2 ^ (width - length) := by
  rw [lowest_eq_shift short, BitVec.toNat_shiftLeft, BitVec.toNat_ushiftRight,
    Nat.shiftRight_eq_div_pow, Nat.shiftLeft_eq]
  exact Nat.mod_eq_of_lt (lt_of_le_of_lt (Nat.div_mul_le_self _ _) word.isLt)

theorem highest_eq_add (word : BitVec width) :
    highest length word = lowest length word + behind width length := by
  have disjoint : lowest length word &&& behind width length = 0 := by
    rw [lowest, BitVec.and_assoc, BitVec.not_and_self]
    exact BitVec.and_zero
  rw [BitVec.add_eq_or_of_and_eq_zero _ _ disjoint, highest, lowest]
  apply BitVec.eq_of_getMsbD_eq
  intro index below
  rw [BitVec.getMsbD_or, BitVec.getMsbD_or, BitVec.getMsbD_and, BitVec.getMsbD_not]
  cases (behind width length).getMsbD index <;> simp [below]

theorem toNat_highest (short : length ≤ width) (word : BitVec width) :
    (highest length word).toNat + 1 =
      (word.toNat / 2 ^ (width - length) + 1) * 2 ^ (width - length) := by
  have room : 0 < 2 ^ (width - length) := Nat.two_pow_pos _
  have whole : 2 ^ width = 2 ^ length * 2 ^ (width - length) := by
    rw [← Nat.pow_add, Nat.add_sub_cancel' short]
  have block : word.toNat / 2 ^ (width - length) < 2 ^ length := by
    rw [Nat.div_lt_iff_lt_mul room, ← whole]
    exact word.isLt
  have fits : (word.toNat / 2 ^ (width - length) + 1) * 2 ^ (width - length) ≤ 2 ^ width := by
    rw [whole]
    exact Nat.mul_le_mul_right _ block
  rw [Nat.add_one_mul] at fits ⊢
  rw [highest_eq_add, BitVec.toNat_add, toNat_lowest short, toNat_behind short,
    Nat.mod_eq_of_lt (by omega)]
  omega

theorem agree_iff_between (short : length ≤ width) {word other : BitVec width} :
    Agree length word other ↔ lowest length other ≤ word ∧ word ≤ highest length other := by
  have room : 0 < 2 ^ (width - length) := Nat.two_pow_pos _
  have top := toNat_highest short other
  rw [← shiftRight_eq_iff short, ← BitVec.toNat_inj, BitVec.toNat_ushiftRight,
    BitVec.toNat_ushiftRight, Nat.shiftRight_eq_div_pow, Nat.shiftRight_eq_div_pow,
    Nat.div_eq_iff room, BitVec.le_def, BitVec.le_def, toNat_lowest short]
  rw [Nat.add_one_mul] at top
  refine and_congr_right fun _ => ?_
  omega

end BitPrefix
