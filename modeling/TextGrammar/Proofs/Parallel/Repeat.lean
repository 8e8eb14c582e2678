import TextGrammar.Proofs.Parallel.Basic
import TextGrammar.Step.Repeat

set_option autoImplicit false

/-! # Repetitions side by side

How often a repetition goes round depends on what its items come to and on where they leave the cursor,
and not on what has been put together of their values. So two repetitions whose items go side by side do
so as well, whatever each of them makes of the values, and what they put together is related if each item
that is added keeps it so. -/

namespace TextGrammar.Step

variable {α α' β β' : Type} {skip : Option CharClass}

/-- Two tallies whose states are related, and which agree in all the rest. -/
inductive Tally.Related (states : β → β' → Prop) : Tally β → Tally β' → Prop where
  | intro {state : β} {state' : β'} {fresh backtrack : Bool} (h : states state state') :
      Related states ⟨state, fresh, backtrack⟩ ⟨state', fresh, backtrack⟩

/-- Two rounds that come to the same with related tallies. -/
inductive Round.Related (states : β → β' → Prop) : Round β → Round β' → Prop where
  | done {tally : Tally β} {tally' : Tally β'} (h : tally.Related states tally') :
      Related states (.done tally) (.done tally')
  | missed {message : String} {backtrack : Bool} {tally : Tally β} {tally' : Tally β'}
      (h : tally.Related states tally') :
      Related states (.missed message backtrack tally) (.missed message backtrack tally')

section

variable {related : α → α' → Prop} {states : β → β' → Prop} {separator : Option (Step Unit)}
  {item : Step α} {item' : Step α'} {add : β → α → β} {add' : β' → α' → β'} {tally : Tally β}
  {tally' : Tally β'} {ctx ctx' : Context}

theorem coincide_separate (hseparator : ∀ s ∈ separator, Parallel skip Eq s s)
    (h : tally.Related states tally') (twin : ctx.Twin skip ctx') :
    Running.Coincide skip (Round.Related states) (separate separator tally ctx)
      (separate separator tally' ctx') := by
  cases h with
  | @intro state state' fresh backtrack h =>
      cases separator with
      | none => exact .ok (.done (.intro h)) twin
      | some s =>
          cases fresh with
          | true => exact .ok (.done (.intro h)) twin
          | false =>
              have ran := hseparator s rfl twin
              unfold separate
              simp only
              generalize s ctx = result at ran ⊢
              generalize s ctx' = result' at ran ⊢
              cases ran with
              | error twin => exact .error twin
              | ok same twin =>
                  cases same with
                  | failure => exact .ok (.missed (.intro h)) twin
                  | success => exact .ok (.done (.intro h)) twin

variable (hseparator : ∀ s ∈ separator, Parallel skip Eq s s) (hitem : Parallel skip related item item')
  (hadd : ∀ state state' a a', states state state' → related a a' →
    states (add state a) (add' state' a'))
include hseparator hitem hadd

/-- One round keeps the states related. -/
theorem coincide_round (h : tally.Related states tally') (twin : ctx.Twin skip ctx') :
    Running.Coincide skip (Round.Related states) (round separator item add tally ctx)
      (round separator item' add' tally' ctx') := by
  have separated := coincide_separate hseparator h twin
  unfold round
  generalize separate separator tally ctx = result at separated ⊢
  generalize separate separator tally' ctx' = result' at separated ⊢
  cases separated with
  | error twin => exact .error twin
  | @ok _ _ between between' same twin =>
      cases same with
      | missed h => exact .ok (.missed h) twin
      | done h =>
          obtain ⟨h⟩ := h
          have ran := hitem twin
          simp only
          generalize item between = result at ran ⊢
          generalize item' between' = result' at ran ⊢
          cases ran with
          | error twin => exact .error twin
          | ok same twin =>
              cases same with
              | failure => exact .ok (.missed (.intro h)) twin
              | success value => exact .ok (.done (.intro (hadd _ _ _ _ h value))) twin

theorem coincide_optionalRound (h : tally.Related states tally') (twin : ctx.Twin skip ctx') :
    Running.Coincide skip (Round.Related states) (optionalRound separator item add tally ctx)
      (optionalRound separator item' add' tally' ctx') := by
  have ran := coincide_round hseparator hitem hadd h (twin.onCursor Cursor.mark)
  unfold optionalRound
  generalize round separator item add tally (ctx.onCursor Cursor.mark) = result at ran ⊢
  generalize round separator item' add' tally' (ctx'.onCursor Cursor.mark) = result' at ran ⊢
  cases ran with
  | error twin => exact .error twin
  | ok same twin =>
      cases same with
      | done h => exact .ok (.done h) (twin.onCursor Cursor.unmark)
      | missed h => exact .ok (.missed h) (twin.onCursor (Cursor.reset true))

theorem coincide_required (n : Nat) (h : tally.Related states tally') (twin : ctx.Twin skip ctx') :
    Running.Coincide skip (Round.Related states) (required separator item add n tally ctx)
      (required separator item' add' n tally' ctx') := by
  induction n generalizing tally tally' ctx ctx' with
  | zero => exact .ok (.done h) twin
  | succ n ih =>
      have ran := coincide_round hseparator hitem hadd h twin
      unfold required
      generalize round separator item add tally ctx = result at ran ⊢
      generalize round separator item' add' tally' ctx' = result' at ran ⊢
      cases ran with
      | error twin => exact .error twin
      | ok same twin =>
          cases same with
          | missed h => exact .ok (.missed h) twin
          | done h => exact ih h twin

/-- Both runs have read something in a round, or neither has. -/
theorem coincide_upTo (isOpen : Bool) (n : Nat) (h : tally.Related states tally')
    (twin : ctx.Twin skip ctx') :
    Running.Coincide skip (Tally.Related states) (upTo isOpen separator item add n tally ctx)
      (upTo isOpen separator item' add' n tally' ctx') := by
  induction n generalizing tally tally' ctx ctx' with
  | zero => exact .ok h twin
  | succ n ih =>
      have ran := coincide_optionalRound hseparator hitem hadd h twin
      unfold upTo
      generalize optionalRound separator item add tally ctx = result at ran ⊢
      generalize optionalRound separator item' add' tally' ctx' = result' at ran ⊢
      cases ran with
      | error twin => exact .error twin
      | ok same next =>
          cases same with
          | missed h => exact .ok h next
          | done h =>
              simp only [next.position, twin.position]
              split
              · exact .ok h next
              · exact ih h next

theorem parallel_repeated (bounds : Repeat) {start : β} {start' : β'} (hstart : states start start') :
    Parallel skip states (repeated bounds separator item add start)
      (repeated bounds separator item' add' start') := by
  intro ctx ctx' twin
  have fresh : (Tally.start start).Related states (.start start') := .intro hstart
  have ran := coincide_required hseparator hitem hadd bounds.min.toNat fresh twin
  unfold repeated
  generalize required separator item add bounds.min.toNat (.start start) ctx = result at ran ⊢
  generalize required separator item' add' bounds.min.toNat (.start start') ctx' = result' at ran ⊢
  cases ran with
  | error twin => exact .error twin
  | @ok _ _ after after' same twin =>
      cases same with
      | missed h => exact .ok .failure twin
      | @done tally tally' h =>
          have optional := coincide_upTo hseparator hitem hadd bounds.isOpen bounds.room h twin
          simp only
          generalize upTo bounds.isOpen separator item add bounds.room tally after = result
            at optional ⊢
          generalize upTo bounds.isOpen separator item' add' bounds.room tally' after' = result'
            at optional ⊢
          cases optional with
          | error twin => exact .error twin
          | ok h twin =>
              obtain ⟨h⟩ := h
              exact .ok (.success h) twin

end

/-- A repetition of the same item, whose values are put together in the same way. -/
theorem parallel_repeated_eq {separator : Option (Step Unit)} {item item' : Step α}
    (hseparator : ∀ s ∈ separator, Parallel skip Eq s s) (hitem : Parallel skip Eq item item')
    (add : β → α → β) (bounds : Repeat) (start : β) :
    Parallel skip Eq (repeated bounds separator item add start)
      (repeated bounds separator item' add start) := by
  refine parallel_repeated hseparator hitem ?_ bounds rfl
  rintro state _ a _ rfl rfl
  rfl

end TextGrammar.Step
