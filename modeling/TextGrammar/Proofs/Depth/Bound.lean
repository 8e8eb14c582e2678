import Mathlib.Data.List.Basic
import TextGrammar.Proofs.Depth.Upheld

set_option autoImplicit false

/-! # How deeply rules have to be nested

A meaning ends if some depth of nesting is enough for it. If one more level lets no further rule end
from a number on, no level beyond it does either. As there are no more pairs of a rule and a place
than rules times places, this is so after as many levels at the latest, and the depth that
`Grammar.meaning` allows for is enough for all that ends. -/

namespace TextGrammar

/-- The result was not given up as endless. -/
def Ends {α : Type} (result : Except ErrorAt (α × Nat)) : Prop :=
  ∀ m, result ≠ .error (.endlessRecursion, m)

namespace Meaning

variable {α : Type} {w : Setting} {n start : Nat} {x y z : Except ErrorAt (α × Nat)}

theorem not_ends_iff : ¬Ends x ↔ ∃ m, x = .error (.endlessRecursion, m) := by
  simp [Ends]

/-- A result that ends is upheld only by itself. -/
theorem Upheld.eq (h : Upheld w n x y) (ends : Ends x) : y = x := by
  cases h with
  | ok ahead within => rfl
  | error => rfl
  | endless => exact absurd rfl (ends _)

theorem Upheld.trans (h : Upheld w n x y) (h' : Upheld w n y z) : Upheld w n x z := by
  cases h with
  | ok ahead within => exact h'
  | error => exact h'
  | endless => exact .endless

end Meaning

namespace Grammar

open Meaning

variable {ρ : Type → Type} (g : Grammar ρ) {α : Type} {w : Setting} {n start depth : Nat}

/-- A rule keeps its meaning if rules may be nested more deeply. -/
theorem upheld_callMeaning (depth more : Nat) (r : ρ α) :
    UpheldFrom w 0 (g.callMeaning depth r) (g.callMeaning (depth + more) r) := by
  induction depth generalizing α with
  | zero => exact fun _ _ => .endless
  | succ depth ih =>
      rw [Nat.succ_add]
      exact upheld_meaning (fun r => ih r) (g.define r)

/-! ## Levels -/

/-- From the number `start` on, no rule needs one level of nesting more than `depth`. -/
def Stable (w : Setting) (start depth : Nat) : Prop :=
  ∀ {β : Type} (r : ρ β) (n : Nat), start ≤ n → n ≤ w.text.length →
    Ends (g.callMeaning (depth + 1) r w n) → Ends (g.callMeaning depth r w n)

variable {g}

/-- Then no rule needs any more levels at all. -/
theorem Stable.upheld (h : g.Stable w start depth) (more : Nat) (r : ρ α) :
    UpheldFrom w start (g.callMeaning (depth + more) r) (g.callMeaning depth r) := by
  have last : ∀ {β : Type} (r : ρ β),
      UpheldFrom w start (g.callMeaning (depth + 1) r) (g.callMeaning depth r) := by
    intro β r n since within
    by_cases ends : Ends (g.callMeaning (depth + 1) r w n)
    · have deeper := g.upheld_callMeaning depth 1 r (Nat.zero_le n) within
      have same := deeper.eq (h r n since within ends)
      rw [same] at deeper ⊢
      exact deeper
    · obtain ⟨m, endless⟩ := not_ends_iff.mp ends
      rw [endless]
      exact .endless
  induction more generalizing α with
  | zero => exact fun {_} _ within => g.upheld_callMeaning depth 0 r (Nat.zero_le _) within
  | succ more ih =>
      intro n since within
      have one_less : UpheldFrom w start (g.callMeaning (depth + more + 1) r)
          (g.callMeaning (depth + 1) r) := upheld_meaning (fun r => ih r) (g.define r)
      exact (one_less since within).trans (last r since within)

variable (g)

/-- The rules at the places from a number on. -/
def places (w : Setting) (start : Nat) : List (AnyRule ρ × Nat) :=
  g.all.flatMap fun r => (List.range (w.left start + 1)).map fun i => (r, start + i)

theorem length_places (w : Setting) (start : Nat) :
    (g.places w start).length = g.all.length * (w.left start + 1) := by
  simp [places, List.length_flatMap, List.map_const']

theorem mem_places (r : ρ α) (since : start ≤ n) (within : n ≤ w.text.length) :
    (⟨α, r⟩, n) ∈ g.places w start := by
  refine List.mem_flatMap.mpr ⟨⟨α, r⟩, g.mem_all r, List.mem_map.mpr ⟨n - start, ?_, ?_⟩⟩
  · rw [List.mem_range]
    unfold Setting.left
    omega
  · rw [Nat.add_sub_cancel' since]

open Classical in
/-- The rules that end with a depth of nesting, each at every place where it does. -/
noncomputable def ending (w : Setting) (start depth : Nat) : List (AnyRule ρ × Nat) :=
  (g.places w start).filter fun (r, n) =>
    decide (n ≤ w.text.length ∧ Ends (g.callMeaning depth r.2 w n))

theorem mem_ending (r : ρ α) (since : start ≤ n) (within : n ≤ w.text.length) :
    (⟨α, r⟩, n) ∈ g.ending w start depth ↔ Ends (g.callMeaning depth r w n) := by
  simp only [ending, List.mem_filter, decide_eq_true_eq]
  exact ⟨fun h => h.2.2, fun ends => ⟨g.mem_places r since within, within, ends⟩⟩

/-- Until the levels are stable, each lets one more rule end somewhere. -/
theorem length_ending_lt (unstable : ¬g.Stable w start depth) :
    (g.ending w start depth).length < (g.ending w start (depth + 1)).length := by
  unfold Stable at unstable
  push Not at unstable
  obtain ⟨β, r, n, since, within, ends, endless⟩ := unstable
  -- what ends keeps ending, so equally many would be the same ones
  have all_kept : (g.ending w start depth).Sublist (g.ending w start (depth + 1)) := by
    refine List.monotone_filter_right _ fun (r, n) => ?_
    simp only [decide_eq_true_eq]
    rintro ⟨within, ends⟩
    refine ⟨within, ?_⟩
    rw [(g.upheld_callMeaning depth 1 r.2 (Nat.zero_le n) within).eq ends]
    exact ends
  refine Nat.lt_of_le_of_ne all_kept.length_le fun same => endless ?_
  rw [← g.mem_ending r since within, all_kept.eq_of_length same, g.mem_ending r since within]
  exact ends

/-- The levels are stable after as many as there are rules and places. -/
theorem exists_stable (w : Setting) (start : Nat) :
    ∃ depth ≤ g.all.length * (w.left start + 1), g.Stable w start depth := by
  by_contra unstable
  push Not at unstable
  -- if no level were stable, each would add a pair, and there are not that many
  have grows : ∀ depth ≤ g.all.length * (w.left start + 1) + 1,
      depth ≤ (g.ending w start depth).length := by
    intro depth
    induction depth with
    | zero => exact fun _ => Nat.zero_le _
    | succ depth ih =>
        intro hdepth
        have before := ih (Nat.le_of_succ_le hdepth)
        have more := g.length_ending_lt (unstable depth (Nat.le_of_succ_le_succ hdepth))
        omega
  have many := grows _ (Nat.le_refl _)
  have few : (g.ending w start (g.all.length * (w.left start + 1) + 1)).length
      ≤ (g.places w start).length := List.length_filter_le _ _
  rw [length_places] at few
  omega

/-- Every depth of nesting that is enough comes to what the meaning over the grammar is. -/
theorem meaning_eq_of_ends (p : Parser ρ α) (depth : Nat) (within : n ≤ w.text.length)
    (ends : Ends (p.meaning (g.callMeaning depth) w n)) :
    g.meaning p w n = p.meaning (g.callMeaning depth) w n := by
  obtain ⟨enough, bounded, stable⟩ := g.exists_stable w n
  -- deeper than any depth that is asked for, then down to the stable level, and up to the bound
  have deeper := upheld_meaning (fun r => g.upheld_callMeaning depth enough r) p
    (Nat.zero_le n) within
  rw [Nat.add_comm] at deeper
  have back := upheld_meaning (fun r => stable.upheld depth r) p (Nat.le_refl n) within
  obtain ⟨more, hmore⟩ : ∃ more, g.all.length * (w.left n + 1) + 1 = enough + more :=
    ⟨_, (Nat.add_sub_cancel' (by omega)).symm⟩
  have up := upheld_meaning (fun r => g.upheld_callMeaning enough more r) p (Nat.zero_le n) within
  unfold meaning
  rw [hmore]
  exact ((deeper.trans back).trans up).eq ends

end Grammar

end TextGrammar
