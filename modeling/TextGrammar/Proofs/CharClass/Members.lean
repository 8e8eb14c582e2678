import Mathlib.Data.List.Permutation
import Mathlib.Data.Set.Insert
import TextGrammar.CharClass.Basic

set_option autoImplicit false

/-! # What is in a character class

A class is put together from characters and ranges by union, by adding characters and by complement.
An expression says how; it stands for a set of characters, which is read off without any ranges being
sorted or joined. The class that is built has just the members of that set. Among its ranges, the first
that does not end before a character is the only one that can hold it, and since these ranges stand behind
all others, it can be searched for by halves. -/

namespace TextGrammar

/-- How a class is put together. -/
inductive ClassExpr where
  | exact (c : Char)
  /-- A character where a class is asked for. -/
  | ofChar (c : Char)
  /-- The bounds may come in either order. -/
  | between (a b : Char)
  | anyOf (chars : List Char)
  | ofRanges (ranges : List CharRange)
  | empty
  | union (e f : ClassExpr)
  | insert (e : ClassExpr) (c : Char)
  | complement (e : ClassExpr)

namespace ClassExpr

/-- The class that comes of it. -/
def build : ClassExpr → CharClass
  | .exact c => .exact c
  | .ofChar c => c
  | .between a b => .between a b
  | .anyOf chars => .anyOf chars
  | .ofRanges ranges => .ofRanges ranges
  | .empty => .empty
  | .union e f => e.build.union f.build
  | .insert e c => e.build.insert c
  | .complement e => e.build.complement

/-- The set that it stands for. Characters are compared by their code points. -/
def members : ClassExpr → Set Char
  | .exact a => {a}
  | .ofChar a => {a}
  | .between a b => {c | min a.toNat b.toNat ≤ c.toNat ∧ c.toNat ≤ max a.toNat b.toNat}
  | .anyOf chars => {c | c ∈ chars}
  | .ofRanges ranges => {c | ∃ r ∈ ranges, r.lo.toNat ≤ c.toNat ∧ c.toNat ≤ r.hi.toNat}
  | .empty => ∅
  | .union e f => e.members ∪ f.members
  | .insert e a => Insert.insert a e.members
  | .complement e => e.membersᶜ

end ClassExpr

namespace CharRange

theorem toNat_lo_between (a b : Char) : (between a b).lo.toNat = min a.toNat b.toNat := by
  unfold between
  split <;> rename_i h <;> rw [char_le_iff] at h <;> simp only <;> omega

theorem toNat_hi_between (a b : Char) : (between a b).hi.toNat = max a.toNat b.toNat := by
  unfold between
  split <;> rename_i h <;> rw [char_le_iff] at h <;> simp only <;> omega

end CharRange

/-! ## The one range that decides -/

namespace RangeSet

variable {s : RangeSet} {c : Char} {k : Nat}

/-- The ranges before an index end before the character, and those from there on do not. This is what a
search by halves finds. -/
structure Splits (s : RangeSet) (c : Char) (k : Nat) : Prop where
  before : ∀ r ∈ s.ranges.take k, r.hi < c
  behind : ∀ r ∈ s.ranges.drop k, c ≤ r.hi

/-- Behind a range that does not end before a character, none does. -/
theorem pairwise_le_hi (s : RangeSet) (c : Char) :
    s.ranges.Pairwise fun r t => c ≤ r.hi → c ≤ t.hi := by
  refine List.Pairwise.imp (fun {r t} gap reaches => ?_) s.gapped
  have := t.toNat_lo_le
  unfold CharRange.Before at gap
  rw [char_le_iff] at reaches ⊢
  omega

theorem exists_splits (s : RangeSet) (c : Char) : ∃ k, s.Splits c k := by
  obtain ⟨k, before, behind⟩ : ∃ k, (∀ r ∈ s.ranges.take k, r.hi < c) ∧
      ∀ r ∈ s.ranges.drop k, c ≤ r.hi := by
    have ascending := s.pairwise_le_hi c
    generalize s.ranges = ranges at ascending
    induction ranges with
    | nil => exact ⟨0, by simp, by simp⟩
    | cons r ranges ih =>
        obtain ⟨later, ascending⟩ := List.pairwise_cons.mp ascending
        by_cases reaches : c ≤ r.hi
        · exact ⟨0, by simp, List.forall_mem_cons.mpr ⟨reaches, fun t ht => later t ht reaches⟩⟩
        · obtain ⟨k, before, behind⟩ := ih ascending
          exact ⟨k + 1, List.forall_mem_cons.mpr ⟨Char.not_le.mp reaches, before⟩, behind⟩
  exact ⟨k, before, behind⟩

/-- Only the range at this index can hold the character. -/
theorem Splits.contains_eq (h : s.Splits c k) :
    s.contains c = s.ranges[k]?.any fun r => decide (r.lo ≤ c) := by
  have none_before : (s.ranges.take k).find? (c ≤ ·.hi) = none := by
    rw [List.find?_eq_none]
    intro r hr
    simpa using h.before r hr
  have found : s.ranges.find? (c ≤ ·.hi) = s.ranges[k]? := by
    rw [← List.take_append_drop k s.ranges, List.find?_append, none_before, Option.none_or,
      List.take_append_drop, ← List.head?_drop]
    cases rest : s.ranges.drop k with
    | nil => rfl
    | cons r rest' =>
        have reaches : c ≤ r.hi := h.behind r (rest ▸ List.mem_cons_self)
        simp [reaches]
  rw [contains, found]
  cases s.ranges[k]? <;> rfl

end RangeSet

/-! ## Membership by construction -/

namespace CharClass

theorem contains_exact_iff (a c : Char) : (exact a).contains c = true ↔ c = a := by
  rw [contains, beq_iff_eq, eq_comm]

theorem contains_between_iff (a b c : Char) :
    (between a b).contains c = true ↔
      min a.toNat b.toNat ≤ c.toNat ∧ c.toNat ≤ max a.toNat b.toNat := by
  rw [contains_between, CharRange.contains_iff, CharRange.Holds, CharRange.toNat_lo_between,
    CharRange.toNat_hi_between]

theorem contains_ofRanges_iff (ranges : List CharRange) (c : Char) :
    (ofRanges ranges).contains c = true ↔
      ∃ r ∈ ranges, r.lo.toNat ≤ c.toNat ∧ c.toNat ≤ r.hi.toNat := by
  simp only [contains_ofRanges, List.any_eq_true, CharRange.contains_iff, CharRange.Holds]

theorem contains_anyOf_iff (chars : List Char) (c : Char) :
    (anyOf chars).contains c = true ↔ c ∈ chars := by
  rw [contains_anyOf, List.any_beq', List.contains_iff_mem]

end CharClass

/-- A class that has been built contains a character just if the set that its expression stands for
does. So the order and the grouping of unions make no difference to what a class contains, a union of
a class with itself adds nothing, and the complement of a complement has the members of the class. Among
ranges, a search by halves finds a place, and the range at that place decides. -/
theorem ClassExpr.contains_build :
    (∀ (e : ClassExpr) (c : Char), e.build.contains c = true ↔ c ∈ e.members) ∧
      (∀ (k l m : CharClass) (c : Char),
        (k.union l).contains c = (l.union k).contains c ∧
        ((k.union l).union m).contains c = (k.union (l.union m)).contains c ∧
        (k.union k).contains c = k.contains c ∧
        k.complement.complement.contains c = k.contains c) ∧
      ∀ (s : RangeSet) (c : Char), (∃ place, s.Splits c place) ∧
        ∀ place, s.Splits c place →
          (CharClass.ranges s).contains c = s.ranges[place]?.any fun r => decide (r.lo ≤ c) := by
  refine ⟨?_, ?_, fun s c => ⟨s.exists_splits c, fun place splits => ?_⟩⟩
  · intro e c
    induction e with
    | exact a => exact CharClass.contains_exact_iff a c
    | ofChar a => exact CharClass.contains_exact_iff a c
    | between a b => exact CharClass.contains_between_iff a b c
    | anyOf chars => exact CharClass.contains_anyOf_iff chars c
    | ofRanges ranges => exact CharClass.contains_ofRanges_iff ranges c
    | empty => simp [build, members, CharClass.empty, CharClass.contains]
    | union e f ihe ihf =>
        rw [build, members, CharClass.contains_union, Bool.or_eq_true, ihe, ihf]
        rfl
    | insert e a ih =>
        rw [build, members, CharClass.contains_insert, Bool.or_eq_true, ih, beq_iff_eq,
          Set.mem_insert_iff, or_comm, eq_comm]
    | complement e ih =>
        rw [build, members, CharClass.contains_complement, Bool.not_eq_true', Set.mem_compl_iff,
          ← ih, Bool.not_eq_true]
  · intro k l m c
    simp only [CharClass.contains_union, CharClass.contains_complement]
    exact ⟨Bool.or_comm _ _, Bool.or_assoc _ _ _, Bool.or_self _, Bool.not_not _⟩
  · rw [CharClass.contains, splits.contains_eq]

/-- A letter behind the first of two ranges that were given in another order. -/
theorem ClassExpr.contains_build_behind_a_digit :
    let s := RangeSet.ofList [.between 'c' 'a', .single '5']
    s.Splits 'b' 1 ∧ (CharClass.ranges s).contains 'b' = true := by
  intro s
  have sorted : s.ranges = [.single '5', .between 'a' 'c'] := by cbv
  have splits : s.Splits 'b' 1 := by
    constructor <;> rw [sorted] <;> decide
  have decides := (contains_build.2.2 s 'b').2 1 splits
  rw [sorted] at decides
  exact ⟨splits, decides.trans (by decide)⟩

end TextGrammar
