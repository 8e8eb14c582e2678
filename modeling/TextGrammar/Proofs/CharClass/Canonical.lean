import Mathlib.Data.List.Basic
import TextGrammar.CharClass.RangeSet

set_option autoImplicit false

/-! # Ascending ranges are canonical

Ranges are taken as pairs of numbers, both of which belong to the range, so that a range covers all
numbers between its bounds, whether or not there is a character for each of them. Of the lists of
ranges that cover the same numbers there is just one that ascends with a gap between each two
neighbours, and none of them is shorter. -/

namespace TextGrammar

/-- The number lies in one of the ranges. -/
def Covered (bounds : List (Nat × Nat)) (n : Nat) : Prop :=
  ∃ b ∈ bounds, b.1 ≤ n ∧ n ≤ b.2

/-- The bounds of each range are in order, and at least one number lies between each range and those
behind it. -/
structure Ascending (bounds : List (Nat × Nat)) : Prop where
  ordered : ∀ b ∈ bounds, b.1 ≤ b.2
  gapped : bounds.Pairwise fun b c => b.2 + 1 < c.1

@[simp] theorem covered_nil (n : Nat) : ¬Covered [] n := by
  simp [Covered]

theorem covered_cons (b : Nat × Nat) (bounds : List (Nat × Nat)) (n : Nat) :
    Covered (b :: bounds) n ↔ (b.1 ≤ n ∧ n ≤ b.2) ∨ Covered bounds n := by
  simp [Covered]

namespace Ascending

variable {b c : Nat × Nat} {bounds others : List (Nat × Nat)} {n : Nat}

theorem tail (h : Ascending (b :: bounds)) : Ascending bounds :=
  ⟨fun c hc => h.ordered c (List.mem_cons_of_mem _ hc), (List.pairwise_cons.mp h.gapped).2⟩

theorem head_le (h : Ascending (b :: bounds)) : b.1 ≤ b.2 :=
  h.ordered b List.mem_cons_self

/-- What the other ranges cover lies behind the first one, with a gap. -/
theorem lt_of_covered (h : Ascending (b :: bounds)) (hn : Covered bounds n) : b.2 + 1 < n := by
  obtain ⟨c, hc, low, -⟩ := hn
  exact Nat.lt_of_lt_of_le ((List.pairwise_cons.mp h.gapped).1 c hc) low

/-- So they are what is left of all that is covered behind the first one. -/
theorem covered_tail_iff (h : Ascending (b :: bounds)) :
    Covered bounds n ↔ b.2 < n ∧ Covered (b :: bounds) n := by
  rw [covered_cons]
  constructor
  · intro hn
    have := h.lt_of_covered hn
    exact ⟨by omega, .inr hn⟩
  · rintro ⟨behind, within | hn⟩
    · omega
    · exact hn

/-- The first number covered is the lower bound of the first range. -/
theorem le_of_covered (h : Ascending (b :: bounds)) (hn : Covered (b :: bounds) n) : b.1 ≤ n := by
  have := h.head_le
  rcases (covered_cons b bounds n).mp hn with within | hn
  · exact within.1
  · have := h.lt_of_covered hn
    omega

/-- The number behind a range is not covered. -/
theorem not_covered_succ (h : Ascending bounds) (hb : b ∈ bounds) : ¬Covered bounds (b.2 + 1) := by
  induction bounds with
  | nil => cases hb
  | cons c bounds ih =>
      intro hn
      rcases List.mem_cons.mp hb with rfl | hb
      · rcases (covered_cons b bounds _).mp hn with within | hn
        · omega
        · exact Nat.lt_irrefl _ (h.lt_of_covered hn)
      · have low := h.tail.ordered b hb
        have behind := (List.pairwise_cons.mp h.gapped).1 b hb
        exact ih h.tail hb (h.covered_tail_iff.mpr ⟨by omega, hn⟩)

/-- All numbers of the first range are covered, and the one behind it is not. So the first range is the
same in every such list. -/
theorem head_eq (h : Ascending (b :: bounds)) (h' : Ascending (c :: others))
    (same : ∀ n, Covered (b :: bounds) n ↔ Covered (c :: others) n) : b = c := by
  have ordered := h.head_le
  have ordered' := h'.head_le
  have low : b.1 = c.1 := by
    have := h'.le_of_covered ((same b.1).mp ⟨b, List.mem_cons_self, Nat.le_refl _, ordered⟩)
    have := h.le_of_covered ((same c.1).mpr ⟨c, List.mem_cons_self, Nat.le_refl _, ordered'⟩)
    omega
  have high : b.2 = c.2 := by
    rcases Nat.lt_trichotomy b.2 c.2 with shorter | equal | longer
    · exact absurd ((same _).mpr ⟨c, List.mem_cons_self, by omega, shorter⟩)
        (h.not_covered_succ List.mem_cons_self)
    · exact equal
    · exact absurd ((same _).mp ⟨b, List.mem_cons_self, by omega, longer⟩)
        (h'.not_covered_succ List.mem_cons_self)
  exact Prod.ext low high

/-- Ascending ranges that cover the same numbers are the same ranges. -/
theorem eq_of_covered (h : Ascending bounds) (h' : Ascending others)
    (same : ∀ n, Covered bounds n ↔ Covered others n) : bounds = others := by
  induction bounds generalizing others with
  | nil =>
      cases others with
      | nil => rfl
      | cons c others =>
          exact absurd ((same c.1).mpr ⟨c, List.mem_cons_self, Nat.le_refl _, h'.head_le⟩)
            (covered_nil _)
  | cons b bounds ih =>
      cases others with
      | nil =>
          exact absurd ((same b.1).mp ⟨b, List.mem_cons_self, Nat.le_refl _, h.head_le⟩)
            (covered_nil _)
      | cons c others =>
          obtain rfl := h.head_eq h' same
          have rest (n : Nat) : Covered bounds n ↔ Covered others n := by
            rw [h.covered_tail_iff, h'.covered_tail_iff, same]
          rw [ih h.tail h'.tail rest]

/-- Ranges that cover all that ascending ranges cover, but none of the numbers behind one of them, are
no fewer. Each ascending range has one of them for itself, since none reaches over a gap. -/
theorem length_le_of_covers (h : Ascending bounds) (covers : ∀ n, Covered bounds n → Covered others n)
    (leaves : ∀ b ∈ bounds, ¬Covered others (b.2 + 1)) : bounds.length ≤ others.length := by
  induction bounds generalizing others with
  | nil => exact Nat.zero_le _
  | cons b bounds ih =>
      have ordered := h.head_le
      obtain ⟨c, hc, low, high⟩ := covers b.1 ⟨b, List.mem_cons_self, Nat.le_refl _, ordered⟩
      have short : c.2 ≤ b.2 := by
        by_contra reaches
        exact leaves b List.mem_cons_self ⟨c, hc, by omega, by omega⟩
      have covers' (n : Nat) (hn : Covered bounds n) : Covered (others.erase c) n := by
        have behind := h.lt_of_covered hn
        obtain ⟨d, hd, within⟩ := covers n ((covered_cons b bounds n).mpr (.inr hn))
        have other : d ≠ c := by
          rintro rfl
          omega
        exact ⟨d, (List.mem_erase_of_ne other).mpr hd, within⟩
      have leaves' (d : Nat × Nat) (hd : d ∈ bounds) : ¬Covered (others.erase c) (d.2 + 1) := by
        rintro ⟨a, ha, within⟩
        exact leaves d (List.mem_cons_of_mem _ hd) ⟨a, List.mem_of_mem_erase ha, within⟩
      have fewer := ih h.tail covers' leaves'
      have erased := List.length_erase_of_mem hc
      have some := List.length_pos_of_mem hc
      rw [List.length_cons]
      omega

/-- No ranges that cover the same numbers are fewer. -/
theorem length_le_of_covered (h : Ascending bounds) (same : ∀ n, Covered bounds n ↔ Covered others n) :
    bounds.length ≤ others.length :=
  h.length_le_of_covers (fun n => (same n).mp) fun _ hb hn => h.not_covered_succ hb ((same _).mpr hn)

end Ascending

namespace CharRange

/-- The code points of the first and of the last character. -/
def bounds (r : CharRange) : Nat × Nat :=
  (r.lo.toNat, r.hi.toNat)

/-- A range is told by its bounds. -/
theorem bounds_injective : Function.Injective bounds := by
  rintro ⟨lo, hi, _⟩ ⟨lo', hi', _⟩ same
  obtain ⟨hlo, hhi⟩ := Prod.mk.inj same
  obtain rfl := Char.toNat_inj.mp hlo
  obtain rfl := Char.toNat_inj.mp hhi
  rfl

end CharRange

/-- What the bounds of some ranges cover is what the ranges hold. -/
theorem covered_bounds_iff (ranges : List CharRange) (n : Nat) :
    Covered (ranges.map CharRange.bounds) n ↔ Held ranges n := by
  simp [Covered, Held, CharRange.bounds, CharRange.Holds]

theorem Gapped.ascending {ranges : List CharRange} (h : Gapped ranges) :
    Ascending (ranges.map CharRange.bounds) where
  ordered := by
    intro b hb
    obtain ⟨r, -, rfl⟩ := List.mem_map.mp hb
    exact r.toNat_lo_le
  gapped := List.pairwise_map.mpr h

/-- Ranges with gaps that hold the same code points are the same ranges. -/
theorem Gapped.eq_of_held {ranges others : List CharRange} (h : Gapped ranges) (h' : Gapped others)
    (same : ∀ n, Held ranges n ↔ Held others n) : ranges = others := by
  have equal := h.ascending.eq_of_covered h'.ascending fun n => by
    rw [covered_bounds_iff, covered_bounds_iff, same]
  exact List.map_injective_iff.mpr CharRange.bounds_injective equal

/-- Sorting leaves open in what order ranges come that begin at the same character. It makes no
difference to what is merged from them. -/
theorem coalesce_eq_mergeRanges {ranges sorted : List CharRange} (same : sorted.Perm ranges)
    (h : Sorted sorted) : coalesce sorted = mergeRanges ranges := by
  refine (gapped_coalesce sorted).eq_of_held (gapped_mergeRanges ranges) fun n => ?_
  rw [held_coalesce h, held_mergeRanges, held_of_perm same]

end TextGrammar
