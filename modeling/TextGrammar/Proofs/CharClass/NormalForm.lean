import TextGrammar.Proofs.CharClass.Canonical
import TextGrammar.Proofs.CharClass.Members

set_option autoImplicit false

/-! # The normal form of a character class

Every class that is built is in normal form, at every depth. Its ranges ascend with gaps, a union is flat
and holds its ranges first, and no complement is taken twice. So a class that is nothing but ranges has
the one list that there is for what it covers. -/

namespace TextGrammar

namespace CharClass

/-- The normal form. -/
inductive Normal : CharClass → Prop where
  | exact (c : Char) : Normal (.exact c)
  | ranges {members : RangeSet} (ascending : Ascending (members.ranges.map CharRange.bounds)) :
      Normal (.ranges members)
  /-- A union has several members, of which none is a union or a single character. Only the first can
  be a set of ranges, which then is not empty. -/
  | oneOf {members : List CharClass} (several : 2 ≤ members.length)
      (flat : ∀ k ∈ members, (∀ c, k ≠ .exact c) ∧ ∀ ks, k ≠ .oneOf ks)
      (first : ∀ k ∈ members.tail, ∀ s, k ≠ .ranges s)
      (inhabited : ∀ s, .ranges s ∈ members → s.ranges ≠ [])
      (inner : ∀ k ∈ members, Normal k) : Normal (.oneOf members)
  | outside {inner : CharClass} (once : ∀ k, inner ≠ .outside k) (h : Normal inner) :
      Normal (.outside inner)

/-! ## Construction keeps the normal form -/

theorem normal_ranges (members : RangeSet) : (ranges members).Normal :=
  .ranges members.gapped.ascending

/-- The parts that are not ranges are complements in normal form. -/
def Parts.Fine (parts : Parts) : Prop :=
  ∀ k ∈ parts.others, k.Normal ∧ ∃ inner, k = .outside inner

mutual

/-- Of a class in normal form, what ranges cannot hold are complements in normal form. -/
theorem Normal.decompose {k : CharClass} (h : k.Normal) {parts : Parts} (fine : parts.Fine) :
    (k.decompose parts).Fine := by
  cases k with
  | exact c => exact fine
  | ranges members => exact fine
  | oneOf members =>
      cases h with
      | oneOf several flat first inhabited inner => exact Normal.decomposeAll inner fine
  | outside inner =>
      intro l hl
      rcases List.mem_append.mp hl with hl | hl
      · exact fine l hl
      · obtain rfl := List.mem_singleton.mp hl
        exact ⟨h, inner, rfl⟩

theorem Normal.decomposeAll {ks : List CharClass} (h : ∀ k ∈ ks, k.Normal) {parts : Parts}
    (fine : parts.Fine) : (decomposeAll ks parts).Fine := by
  cases ks with
  | nil => exact fine
  | cons k ks =>
      have here := (h k List.mem_cons_self).decompose fine
      exact Normal.decomposeAll (fun l hl => h l (List.mem_cons_of_mem _ hl)) here

end

section

variable {s : RangeSet} {others : List CharClass} {k : CharClass}

theorem mem_of_mem_unionMembers (h : k ∈ unionMembers s others) :
    k = .ranges s ∧ s.ranges ≠ [] ∨ k ∈ others := by
  unfold unionMembers at h
  split at h
  · exact .inr h
  · rename_i some
    rcases List.mem_cons.mp h with rfl | h
    · exact .inl ⟨rfl, fun none => some (List.isEmpty_iff.mpr none)⟩
    · exact .inr h

theorem mem_of_mem_tail_unionMembers (h : k ∈ (unionMembers s others).tail) : k ∈ others := by
  unfold unionMembers at h
  split at h
  · exact List.mem_of_mem_tail h
  · exact h

theorem unionMembers_ne_nil (some : others ≠ []) : unionMembers s others ≠ [] := by
  unfold unionMembers
  split
  · exact some
  · exact List.cons_ne_nil _ _

/-- Ranges and complements make a union in normal form, if they are several. -/
theorem normal_oneOf_unionMembers (fine : ∀ k ∈ others, k.Normal ∧ ∃ inner, k = .outside inner)
    (several : 2 ≤ (unionMembers s others).length) : (oneOf (unionMembers s others)).Normal := by
  refine .oneOf several (fun k hk => ?flat) (fun k hk => ?first) (fun t ht => ?inhabited)
    fun k hk => ?inner
  case flat =>
    rcases mem_of_mem_unionMembers hk with ⟨rfl, -⟩ | hk
    · exact ⟨by simp, by simp⟩
    · obtain ⟨-, inner, rfl⟩ := fine k hk
      exact ⟨by simp, by simp⟩
  case first =>
    obtain ⟨-, inner, rfl⟩ := fine k (mem_of_mem_tail_unionMembers hk)
    simp
  case inhabited =>
    rcases mem_of_mem_unionMembers ht with ⟨same, inhabited⟩ | ht
    · cases same
      exact inhabited
    · obtain ⟨-, inner, same⟩ := fine _ ht
      cases same
  case inner =>
    rcases mem_of_mem_unionMembers hk with ⟨rfl, -⟩ | hk
    · exact normal_ranges s
    · exact (fine k hk).1

theorem normal_assemble (s : RangeSet) (fine : ∀ k ∈ others, k.Normal ∧ ∃ inner, k = .outside inner) :
    (assemble s others).Normal := by
  unfold assemble
  split
  · exact normal_ranges s
  · rename_i some
    have nonempty : unionMembers s others ≠ [] :=
      unionMembers_ne_nil fun none => some (List.isEmpty_iff.mpr none)
    split
    · rename_i only single
      -- a single part is one of the others, or the ranges
      have part : only ∈ unionMembers s others := by
        rw [single]
        exact List.mem_cons_self
      rcases mem_of_mem_unionMembers part with ⟨rfl, -⟩ | part
      · exact normal_ranges s
      · exact (fine only part).1
    · rename_i several
      refine normal_oneOf_unionMembers fine ?_
      match parts : unionMembers s others with
      | [] => exact absurd parts nonempty
      | [k] => exact absurd parts (several k)
      | _ :: _ :: _ => simp

end

theorem normal_reassemble {k l : CharClass} (hk : k.Normal) (hl : l.Normal) :
    (reassemble k l).Normal :=
  normal_assemble _ (hl.decompose (hk.decompose fun _ none => nomatch none))

theorem Normal.union {k l : CharClass} (hk : k.Normal) (hl : l.Normal) : (k.union l).Normal := by
  unfold CharClass.union
  split
  · split
    · exact hk
    · exact normal_reassemble hk hl
  · split
    · exact hl
    · exact normal_reassemble hk hl
  · split
    · exact hk
    · exact normal_reassemble hk hl
  · exact normal_ranges _
  · exact normal_reassemble hk hl

theorem Normal.insert {k : CharClass} (h : k.Normal) (c : Char) : (k.insert c).Normal := by
  unfold CharClass.insert
  split
  · exact h
  · split
    · exact normal_ranges _
    · exact normal_ranges _
    · exact h.union (.exact c)

theorem Normal.complement {k : CharClass} (h : k.Normal) : k.complement.Normal := by
  cases h with
  | exact c => exact .outside (by simp) (.exact c)
  | ranges ascending => exact .outside (by simp) (.ranges ascending)
  | oneOf several flat first inhabited inner =>
      exact .outside (by simp) (.oneOf several flat first inhabited inner)
  | outside once h => exact h

/-- The ranges of a class that is nothing but ranges leave gaps. -/
theorem gapped_of_ranges? {k : CharClass} {rs : List CharRange} (h : k.ranges? = some rs) :
    Gapped rs := by
  cases k with
  | ranges members =>
      cases h
      exact members.gapped
  | exact c => cases h
  | oneOf members => cases h
  | outside inner => cases h

end CharClass

/-- Every class that is built is in normal form. Of two classes that are nothing but ranges, and whose
ranges cover the same code points, both have the same list of ranges, and no ranges at all that cover
these code points are fewer. A range covers all numbers between its bounds. The order in which sorting
leaves ranges that begin at the same character makes no difference. -/
theorem ClassExpr.normal_build :
    (∀ e : ClassExpr, e.build.Normal) ∧
      (∀ (k : CharClass) (rs : List CharRange), k.ranges? = some rs →
        (∀ (l : CharClass) (ss : List CharRange), l.ranges? = some ss →
          (∀ n, Covered (rs.map CharRange.bounds) n ↔ Covered (ss.map CharRange.bounds) n) →
            rs = ss) ∧
        ∀ others : List (Nat × Nat),
          (∀ n, Covered (rs.map CharRange.bounds) n ↔ Covered others n) →
            rs.length ≤ others.length) ∧
      ∀ ranges sorted : List CharRange, sorted.Perm ranges → Sorted sorted →
        (CharClass.ofRanges ranges).ranges? = some (coalesce sorted) := by
  refine ⟨fun e => ?_, fun k rs hk => ⟨fun l ss hl same => ?_, fun others same => ?_⟩,
    fun ranges sorted same h => ?_⟩
  · induction e with
    | exact c => exact .exact c
    | ofChar c => exact .exact c
    | between a b => exact CharClass.normal_ranges _
    | anyOf chars => exact CharClass.normal_ranges _
    | ofRanges ranges => exact CharClass.normal_ranges _
    | empty => exact CharClass.normal_ranges _
    | union e f ihe ihf => exact ihe.union ihf
    | insert e c ih => exact ih.insert c
    | complement e ih => exact ih.complement
  · refine (CharClass.gapped_of_ranges? hk).eq_of_held (CharClass.gapped_of_ranges? hl) fun n => ?_
    rw [← covered_bounds_iff, ← covered_bounds_iff, same]
  · have fewest := (CharClass.gapped_of_ranges? hk).ascending.length_le_of_covered same
    rwa [List.length_map] at fewest
  · rw [coalesce_eq_mergeRanges same h]
    rfl

/-- Two ranges that touch, in either order, and their characters one by one in another order. -/
theorem ClassExpr.ranges_in_another_order :
    let k := (ClassExpr.union (.between 'd' 'f') (.between 'c' 'a')).build
    let l := (ClassExpr.anyOf ['f', 'b', 'd', 'a', 'c', 'e']).build
    let whole : CharRange := ⟨'a', 'f', by decide⟩
    let early := CharRange.between 'c' 'a'
    let late := CharRange.between 'd' 'f'
    k.ranges? = some [whole] ∧ l.ranges? = some [whole] ∧
      k.ranges? = l.ranges? ∧
      (∀ n, Covered [whole.bounds] n ↔ Covered [(100, 102), (97, 101)] n) ∧
      [whole].length ≤ [(100, 102), (97, 101)].length ∧
      (CharClass.ofRanges [late, early]).ranges? = some (coalesce [early, late]) := by
  intro k l whole early late
  have hk : k.ranges? = some [whole] := by cbv
  have hl : l.ranges? = some [whole] := by cbv
  have covers (n : Nat) : Covered [whole.bounds] n ↔ Covered [(100, 102), (97, 101)] n := by
    have bounds : whole.bounds = (97, 102) := by rfl
    simp [covered_cons, bounds]
    omega
  obtain ⟨equal, fewest⟩ := normal_build.2.1 k [whole] hk
  have same : [whole] = [whole] := equal l [whole] hl fun _ => Iff.rfl
  have sorted : Sorted [early, late] := List.pairwise_pair.mpr (by decide)
  exact ⟨hk, hl, hk.trans ((congrArg some same).trans hl.symm), covers, fewest _ covers,
    normal_build.2.2 _ _ (.swap late early []) sorted⟩

end TextGrammar
