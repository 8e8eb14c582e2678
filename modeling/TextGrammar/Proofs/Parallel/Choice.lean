import TextGrammar.Proofs.Parallel.Basic
import TextGrammar.Step.Choice

set_option autoImplicit false

/-! # Going back side by side

Both runs make their marks at the same place and have kept the same characters since. So if they go back,
they go back together. -/

namespace TextGrammar.Step

variable {α α' β β' : Type} {skip : Option CharClass} {related : α → α' → Prop}
  {related' : β → β' → Prop} {p q : Step α} {p' q' : Step α'} {ctx ctx' : Context}

theorem parallel_choose (hp : Parallel skip related p p') (hq : Parallel skip related q q') :
    Parallel skip related (p.choose q) (p'.choose q') := by
  intro ctx ctx' twin
  have ran := hp (twin.onCursor Cursor.mark)
  unfold choose
  generalize p (ctx.onCursor Cursor.mark) = result at ran ⊢
  generalize p' (ctx'.onCursor Cursor.mark) = result' at ran ⊢
  cases ran with
  | error twin => exact .error twin
  | @ok first first' after after' same twin =>
      simp only [same.isSuccessful, same.backtrack]
      by_cases final : (first.isSuccessful || !first.backtrack) = true
      · rw [if_pos final, if_pos final]
        exact .ok (same.allowBacktrack true) (twin.onCursor Cursor.unmark)
      · rw [if_neg final, if_neg final]
        have again := hq (twin.onCursor (Cursor.reset true))
        generalize q (after.onCursor (Cursor.reset true)) = result at again ⊢
        generalize q' (after'.onCursor (Cursor.reset true)) = result' at again ⊢
        cases again with
        | error twin => exact .error twin
        | ok same twin => exact .ok (same.allowBacktrack true) twin

theorem coincide_attempt (h : Parallel skip related p p') (twin : ctx.Twin skip ctx') :
    Running.Coincide skip (Option.Rel (Outcome.Related related)) (p.attempt ctx)
      (p'.attempt ctx') := by
  have ran := h (twin.onCursor Cursor.mark)
  unfold attempt
  generalize p (ctx.onCursor Cursor.mark) = result at ran ⊢
  generalize p' (ctx'.onCursor Cursor.mark) = result' at ran ⊢
  cases ran with
  | error twin => exact .error twin
  | @ok o o' after after' same twin =>
      simp only [same.isSuccessful]
      by_cases success : o.isSuccessful = true
      · rw [if_pos success, if_pos success]
        exact .ok (.some same) (twin.onCursor Cursor.unmark)
      · rw [if_neg success, if_neg success]
        exact .ok .none (twin.onCursor (Cursor.reset true))

theorem parallel_opt {present : α → β} {present' : α' → β'} {absent : β} {absent' : β'}
    (h : Parallel skip related p p') (hpresent : ∀ a a', related a a' →
      related' (present a) (present' a')) (habsent : related' absent absent') :
    Parallel skip related' (p.opt present absent) (p'.opt present' absent') := by
  intro ctx ctx' twin
  have tried := coincide_attempt h twin
  unfold opt
  generalize p.attempt ctx = result at tried ⊢
  generalize p'.attempt ctx' = result' at tried ⊢
  cases tried with
  | error twin => exact .error twin
  | ok found twin =>
      cases found with
      | none => exact .ok (.success habsent) twin
      | some same => exact .ok (same.map hpresent) twin

theorem parallel_lookahead {p p' : Step Unit} (h : Parallel skip Eq p p') :
    Parallel skip Eq p.lookahead p'.lookahead := by
  intro ctx ctx' twin
  have ran := h (twin.onCursor Cursor.mark)
  unfold lookahead
  generalize p (ctx.onCursor Cursor.mark) = result at ran ⊢
  generalize p' (ctx'.onCursor Cursor.mark) = result' at ran ⊢
  cases ran with
  | error twin => exact .error twin
  | ok same twin =>
      have back := twin.onCursor (Cursor.reset true)
      cases same with
      | success h => exact .ok (.success h) back
      | failure => exact .ok .failure back

theorem parallel_not {p p' : Step Unit} (h : Parallel skip Eq p p') :
    Parallel skip Eq p.not p'.not := by
  intro ctx ctx' twin
  have ran := h (twin.onCursor Cursor.mark)
  unfold not
  generalize p (ctx.onCursor Cursor.mark) = result at ran ⊢
  generalize p' (ctx'.onCursor Cursor.mark) = result' at ran ⊢
  cases ran with
  | error twin => exact .error twin
  | ok same twin =>
      have back := twin.onCursor (Cursor.reset true)
      cases same with
      | success h => exact .ok .failure back
      | failure => exact .ok (.success rfl) back

/-- The induction is on the number of characters left, which is the same in both runs. -/
theorem parallel_skipTo (h : Parallel skip related p p') :
    Parallel skip related p.skipTo p'.skipTo := by
  intro ctx ctx' twin
  induction hsize : ctx.size using Nat.strongRecOn generalizing ctx ctx' with
  | ind size ih =>
      have tried := coincide_attempt h twin
      rw [skipTo.eq_def p, skipTo.eq_def p', twin.size]
      generalize p.attempt ctx = result at tried ⊢
      generalize p'.attempt ctx' = result' at tried ⊢
      cases tried with
      | error twin => exact .error twin
      | @ok _ _ back back' found twin =>
          cases found with
          | some same => exact .ok same twin
          | none =>
              have went := Context.coincide_reading Cursor.read twin
              simp only
              generalize Context.reading Cursor.read back = result at went ⊢
              generalize Context.reading Cursor.read back' = result' at went ⊢
              cases went with
              | error twin => exact .error twin
              | @ok c _ next next' same twin =>
                  subst same
                  cases c with
                  | none => exact .ok .failure twin
                  | some c =>
                      simp only [twin.size]
                      by_cases fewer : next.size < ctx.size
                      · rw [if_pos fewer, if_pos fewer]
                        exact ih _ (hsize ▸ fewer) twin rfl
                      · rw [if_neg fewer, if_neg fewer]
                        exact .ok .failure twin

end TextGrammar.Step
