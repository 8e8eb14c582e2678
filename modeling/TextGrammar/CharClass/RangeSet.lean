import TextGrammar.CharClass.CharRange

set_option autoImplicit false

/-! # Sets of characters as ranges

A set of characters is kept as ascending ranges with a gap between each two neighbours. There is
only one such list for a set, and none with the same members is shorter. Ranges that come in any order
are sorted by their starts and put one after another on a stack, where each is merged with the range on
top if it reaches that far. -/

namespace TextGrammar

/-- The ranges ascend, and no two of them overlap or touch. -/
def Gapped (ranges : List CharRange) : Prop :=
  ranges.Pairwise CharRange.Before

/-- No range begins before one that comes earlier. -/
def Sorted (ranges : List CharRange) : Prop :=
  ranges.Pairwise fun r s => r.lo ≤ s.lo

/-- A code point lies in one of the ranges. -/
def Held (ranges : List CharRange) (n : Nat) : Prop :=
  ∃ r ∈ ranges, r.Holds n

/-! ## Merging -/

/-- Puts a range on a stack of ranges, of which the first is on top: the range on top takes it in, or it
comes to lie on top itself. -/
def pushRange (stack : List CharRange) (r : CharRange) : List CharRange :=
  match stack with
  | [] => [r]
  | top :: below =>
    match top.mergeWith r with
    | some joined => joined :: below
    | none => r :: top :: below

/-- Merges sorted ranges into as few as there can be. -/
def coalesce (ranges : List CharRange) : List CharRange :=
  (ranges.foldl pushRange []).reverse

/-- The ranges in the order of their starts. -/
def sortRanges (ranges : List CharRange) : List CharRange :=
  ranges.mergeSort fun r s => decide (r.lo ≤ s.lo)

/-- Merges ranges that come in any order. -/
def mergeRanges (ranges : List CharRange) : List CharRange :=
  if ranges.length < 2 then ranges else coalesce (sortRanges ranges)

/-! ## Merged ranges leave gaps -/

/-- On a stack, a range that lies below another one lies before it with a gap. -/
def Stacked (stack : List CharRange) : Prop :=
  stack.Pairwise fun upper lower => lower.Before upper

/-- The range on top is merged only with one that reaches it, and then begins where it began. -/
theorem Stacked.push {stack : List CharRange} (h : Stacked stack) (r : CharRange) :
    Stacked (pushRange stack r) := by
  cases stack with
  | nil => exact List.pairwise_singleton _ _
  | cons top below =>
      obtain ⟨under, hbelow⟩ := List.pairwise_cons.mp h
      simp only [pushRange]
      split
      · -- the gap below is still there
        rename_i joined merged
        refine List.pairwise_cons.mpr ⟨fun s hs => ?_, hbelow⟩
        unfold CharRange.Before
        rw [CharRange.lo_of_mergeWith merged]
        exact under s hs
      · rename_i apart
        have gap := CharRange.before_of_mergeWith apart
        refine List.pairwise_cons.mpr ⟨fun s hs => ?_, h⟩
        rcases List.mem_cons.mp hs with rfl | hs
        · exact gap
        · have := under s hs
          have := top.toNat_lo_le
          unfold CharRange.Before at *
          omega

theorem Stacked.pushAll {stack : List CharRange} (h : Stacked stack) (ranges : List CharRange) :
    Stacked (ranges.foldl pushRange stack) := by
  induction ranges generalizing stack with
  | nil => exact h
  | cons r ranges ih => exact ih (h.push r)

theorem gapped_coalesce (ranges : List CharRange) : Gapped (coalesce ranges) :=
  List.pairwise_reverse.mpr (Stacked.pushAll List.Pairwise.nil ranges)

theorem gapped_mergeRanges (ranges : List CharRange) : Gapped (mergeRanges ranges) := by
  unfold mergeRanges
  split
  · match ranges with
    | [] => exact List.Pairwise.nil
    | [r] => exact List.pairwise_singleton _ _
  · exact gapped_coalesce _

/-! ## Merged ranges hold the same -/

@[simp] theorem held_nil (n : Nat) : ¬Held [] n := by
  simp [Held]

@[simp] theorem held_cons (r : CharRange) (ranges : List CharRange) (n : Nat) :
    Held (r :: ranges) n ↔ r.Holds n ∨ Held ranges n := by
  simp [Held]

theorem held_of_perm {ranges others : List CharRange} (h : ranges.Perm others) (n : Nat) :
    Held ranges n ↔ Held others n := by
  simp only [Held, h.mem_iff]

/-- A range that does not begin before the one on top adds just what it holds. -/
theorem held_pushRange {stack : List CharRange} {r : CharRange}
    (ascending : ∀ top ∈ stack.head?, top.lo ≤ r.lo) (n : Nat) :
    Held (pushRange stack r) n ↔ Held stack n ∨ r.Holds n := by
  unfold pushRange
  split
  · simp
  · split
    · rename_i joined merged
      rw [held_cons, held_cons, CharRange.holds_of_mergeWith merged (ascending _ rfl)]
      exact or_right_comm
    · rw [held_cons, or_comm]

/-- The range on top of the stack begins where the last range that was put there began, or before. -/
theorem lo_le_of_mem_head?_pushRange {stack : List CharRange} {r top : CharRange}
    (ascending : ∀ top ∈ stack.head?, top.lo ≤ r.lo) (h : top ∈ (pushRange stack r).head?) :
    top.lo ≤ r.lo := by
  unfold pushRange at h
  split at h
  · cases h
    exact Char.le_refl _
  · split at h
    · rename_i joined merged
      cases h
      rw [CharRange.lo_of_mergeWith merged]
      exact ascending _ rfl
    · cases h
      exact Char.le_refl _

theorem held_foldl_pushRange {ranges stack : List CharRange} (sorted : Sorted ranges)
    (ascending : ∀ top ∈ stack.head?, ∀ r ∈ ranges, top.lo ≤ r.lo) (n : Nat) :
    Held (ranges.foldl pushRange stack) n ↔ Held stack n ∨ Held ranges n := by
  induction ranges generalizing stack with
  | nil => simp
  | cons r ranges ih =>
      obtain ⟨later, sorted⟩ := List.pairwise_cons.mp sorted
      have first : ∀ top ∈ stack.head?, top.lo ≤ r.lo :=
        fun top ht => ascending top ht r List.mem_cons_self
      have still : ∀ top ∈ (pushRange stack r).head?, ∀ s ∈ ranges, top.lo ≤ s.lo :=
        fun top ht s hs => Char.le_trans (lo_le_of_mem_head?_pushRange first ht) (later s hs)
      rw [List.foldl_cons, ih sorted still, held_pushRange first, held_cons, or_assoc]

theorem held_coalesce {ranges : List CharRange} (sorted : Sorted ranges) (n : Nat) :
    Held (coalesce ranges) n ↔ Held ranges n := by
  have folded : Held (ranges.foldl pushRange []) n ↔ Held [] n ∨ Held ranges n :=
    held_foldl_pushRange sorted (by simp) n
  rw [coalesce, held_of_perm (List.reverse_perm _), folded]
  simp

theorem sortRanges_perm (ranges : List CharRange) : (sortRanges ranges).Perm ranges :=
  List.mergeSort_perm ranges _

theorem sorted_sortRanges (ranges : List CharRange) : Sorted (sortRanges ranges) := by
  have sorted := @List.pairwise_mergeSort CharRange (fun r s => decide (r.lo ≤ s.lo))
    (fun r s t hrs hst => by simpa using Char.le_trans (by simpa using hrs) (by simpa using hst))
    (fun r s => by simpa using Char.le_total r.lo s.lo) ranges
  exact sorted.imp (by simp)

theorem held_mergeRanges (ranges : List CharRange) (n : Nat) :
    Held (mergeRanges ranges) n ↔ Held ranges n := by
  unfold mergeRanges
  split
  · rfl
  · rw [held_coalesce (sorted_sortRanges ranges), held_of_perm (sortRanges_perm ranges)]

/-! ## Sets -/

/-- A set of characters in its normal form. -/
structure RangeSet where
  ranges : List CharRange
  gapped : Gapped ranges

namespace RangeSet

/-- The set without members. -/
def empty : RangeSet := ⟨[], List.Pairwise.nil⟩

instance : EmptyCollection RangeSet := ⟨empty⟩

/-- The members of a single range. -/
def ofRange (r : CharRange) : RangeSet := ⟨[r], List.pairwise_singleton _ _⟩

/-- The set of all characters in some ranges. -/
def ofList (ranges : List CharRange) : RangeSet :=
  ⟨mergeRanges ranges, gapped_mergeRanges ranges⟩

def isEmpty (s : RangeSet) : Bool :=
  s.ranges.isEmpty

/-- Membership: of ascending ranges, the first that ends at the character or after it decides. -/
def contains (s : RangeSet) (c : Char) : Bool :=
  match s.ranges.find? (c ≤ ·.hi) with
  | some r => r.lo ≤ c
  | none => false

/-! ## Membership -/

/-- The first range that ends late enough is the only one that can hold a character. -/
theorem contains_eq_any (s : RangeSet) (c : Char) :
    s.contains c = s.ranges.any (·.contains c) := by
  obtain ⟨ranges, h⟩ := s
  unfold contains
  induction ranges with
  | nil => rfl
  | cons r rest ih =>
    obtain ⟨hr, hrest⟩ := List.pairwise_cons.mp h
    by_cases hc : c ≤ r.hi
    · have later : rest.any (·.contains c) = false := by
        rw [List.any_eq_false]
        intro t ht
        have gap := hr t ht
        have := (char_le_iff _ _).mp hc
        rw [CharRange.contains_iff]
        unfold CharRange.Before at gap
        unfold CharRange.Holds
        omega
      rw [List.any_cons, later, Bool.or_false]
      simp [hc, CharRange.contains]
    · simpa [hc, CharRange.contains] using ih hrest

/-- A character is in a set just if its code point lies in one of the ranges. -/
theorem contains_iff (s : RangeSet) (c : Char) : s.contains c = true ↔ Held s.ranges c.toNat := by
  simp only [contains_eq_any, List.any_eq_true, CharRange.contains_iff, Held]

@[simp] theorem contains_empty (c : Char) : empty.contains c = false := rfl

@[simp] theorem contains_ofRange (r : CharRange) (c : Char) :
    (ofRange r).contains c = r.contains c := by
  simp [contains_eq_any, ofRange]

@[simp] theorem contains_ofList (ranges : List CharRange) (c : Char) :
    (ofList ranges).contains c = ranges.any (·.contains c) := by
  rw [Bool.eq_iff_iff, contains_iff, ofList, held_mergeRanges]
  simp only [List.any_eq_true, CharRange.contains_iff, Held]

end RangeSet

end TextGrammar
