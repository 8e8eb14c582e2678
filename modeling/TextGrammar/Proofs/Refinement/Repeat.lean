import TextGrammar.Meaning.Repeat
import TextGrammar.Proofs.Refinement.Basic

set_option autoImplicit false

/-! # Repetition

A required round goes on from where the last one ended. An optional round runs under a mark, and one
that misses leaves the number at which it began. -/

namespace TextGrammar.Tracking

variable {text : List Char} {t : Tracking text} {skip : Option CharClass} {α β : Type}
  {separator : Option (Step Unit)} {separatorMeaning : Option (Meaning Unit)} {item : Step α}
  {itemMeaning : Meaning α}

/-- The separator does what its meaning says, if there is one. -/
inductive SimulatesOption (t : Tracking text) (skip : Option CharClass) :
    Option (Step Unit) → Option (Meaning Unit) → Prop where
  | none : SimulatesOption t skip none none
  | some {step : Step Unit} {meaning : Meaning Unit} (h : t.Simulates skip step meaning) :
      SimulatesOption t skip (some step) (some meaning)

/-- The item of a round, behind its separator. -/
theorem agrees_item (hitem : t.Simulates skip item itemMeaning) (add : β → α → β)
    (tally : Step.Tally β) {ctx : Context} {n : Nat} {saved : List Nat}
    (stands : t.Stands skip ctx n saved) :
    t.Agrees skip n saved
      (match item ctx with
        | .error e ctx => .error e ctx
        | .ok o ctx =>
          let backtrack := tally.backtrack && o.backtrack
          match o.status with
          | .error message => .ok (Step.Round.missed message backtrack tally) ctx
          | .ok value => .ok (Step.Round.done ⟨add tally.state value, false, backtrack⟩) ctx)
      (itemMeaning ⟨text, skip⟩ n >>= fun (o, m) =>
        let backtrack := tally.backtrack && o.backtrack
        match o.status with
        | .error message => .ok (Step.Round.missed message backtrack tally, m)
        | .ok value => .ok (Step.Round.done ⟨add tally.state value, false, backtrack⟩, m)) := by
  have ran := hitem stands
  generalize item ctx = result at ran ⊢
  generalize itemMeaning ⟨text, skip⟩ n = expected at ran ⊢
  cases ran with
  | fault ahead more interrupted => exact .fault ahead more interrupted
  | error ahead more here => exact .error ahead more here
  | @ok o _ _ ahead here =>
      obtain ⟨status, backtrack, span⟩ := o
      cases status with
      | error message => exact .ok ahead here
      | ok value => exact .ok ahead here

theorem simulates_round (hseparator : t.SimulatesOption skip separator separatorMeaning)
    (hitem : t.Simulates skip item itemMeaning) (add : β → α → β) (tally : Step.Tally β) :
    t.Simulates skip (Step.round separator item add tally)
      (Meaning.round separatorMeaning itemMeaning add tally) := by
  intro ctx n saved stands
  obtain ⟨state, fresh, backtrack⟩ := tally
  have alone := agrees_item hitem add ⟨state, fresh, backtrack⟩ stands
  unfold Step.round Meaning.round
  cases hseparator with
  -- without a separator, the meaning still joins the flag of an empty success
  | none => cases backtrack <;> exact alone
  | @some step meaning h =>
      cases fresh with
      | true => cases backtrack <;> exact alone
      | false =>
          have ran := h stands
          simp only [Step.separate]
          generalize step ctx = result at ran ⊢
          generalize meaning ⟨text, skip⟩ n = expected at ran ⊢
          cases ran with
          | fault ahead more interrupted => exact .fault ahead more interrupted
          | error ahead more here => exact .error ahead more here
          | @ok before after m ahead here =>
              obtain ⟨status, allowed, span⟩ := before
              cases status with
              | error message => exact .ok ahead here
              | ok _ =>
                  exact (agrees_item hitem add ⟨state, false, backtrack && allowed⟩ here).since ahead

/-- A round that misses is taken back to where it began. -/
theorem agrees_optionalRound (hseparator : t.SimulatesOption skip separator separatorMeaning)
    (hitem : t.Simulates skip item itemMeaning) (add : β → α → β) (tally : Step.Tally β)
    {ctx : Context} {n : Nat} {saved : List Nat} (stands : t.Stands skip ctx n saved) :
    t.Agrees skip n saved (Step.optionalRound separator item add tally ctx)
      ((Meaning.round separatorMeaning itemMeaning add tally ⟨text, skip⟩ n).map fun (round, m) =>
        match round with
        | .done tally => (.done tally, m)
        | .missed message backtrack tally => (.missed message backtrack tally, n)) := by
  have ran := simulates_round hseparator hitem add tally stands.mark
  unfold Step.optionalRound
  generalize Step.round separator item add tally (ctx.onCursor Cursor.mark) = result at ran ⊢
  generalize Meaning.round separatorMeaning itemMeaning add tally ⟨text, skip⟩ n = expected
    at ran ⊢
  cases ran with
  | fault ahead more interrupted =>
      exact .fault ahead ((List.suffix_cons n saved).trans more) interrupted
  | error ahead more here => exact .error ahead ((List.suffix_cons n saved).trans more) here
  | @ok round _ _ ahead here =>
      cases round with
      | done tally => exact .ok ahead here.unmark
      | missed message backtrack tally => exact .ok (Nat.le_refl n) here.reset

/-! ## Many rounds -/

theorem simulates_required (hseparator : t.SimulatesOption skip separator separatorMeaning)
    (hitem : t.Simulates skip item itemMeaning) (add : β → α → β) (k : Nat)
    (tally : Step.Tally β) :
    t.Simulates skip (Step.required separator item add k tally)
      (Meaning.required separatorMeaning itemMeaning add k tally) := by
  intro ctx n saved stands
  induction k generalizing ctx n tally with
  | zero => exact .ok (Nat.le_refl n) stands
  | succ k ih =>
      have ran := simulates_round hseparator hitem add tally stands
      unfold Step.required Meaning.required
      generalize Step.round separator item add tally ctx = result at ran ⊢
      generalize Meaning.round separatorMeaning itemMeaning add tally ⟨text, skip⟩ n = expected
        at ran ⊢
      cases ran with
      | fault ahead more interrupted => exact .fault ahead more interrupted
      | error ahead more here => exact .error ahead more here
      | @ok round _ _ ahead here =>
          cases round with
          | missed message backtrack tally => exact .ok ahead here
          | done tally => exact (ih tally here).since ahead

/-- A round has read nothing just if it ends at the position where it began, since the numbers of the
text have different positions. -/
theorem position_eq_iff {ctx next : Context} {m n : Nat} {saved : List Nat}
    (stands : t.Stands skip ctx n saved) (here : t.Stands skip next m saved) :
    next.position = ctx.position ↔ m = n := by
  have before : ctx.position = .ofIndex text n := t.position stands.cursor
  have after : next.position = .ofIndex text m := t.position here.cursor
  rw [before, after]
  constructor
  · intro same
    have index := congrArg Position.index same
    rwa [Position.index_ofIndex (t.within here.cursor),
      Position.index_ofIndex (t.within stands.cursor)] at index
  · rintro rfl
    rfl

theorem simulates_upTo (isOpen : Bool)
    (hseparator : t.SimulatesOption skip separator separatorMeaning)
    (hitem : t.Simulates skip item itemMeaning) (add : β → α → β) (k : Nat)
    (tally : Step.Tally β) :
    t.Simulates skip (Step.upTo isOpen separator item add k tally)
      (Meaning.upTo isOpen separatorMeaning itemMeaning add k tally) := by
  intro ctx n saved stands
  induction k generalizing ctx n tally with
  | zero => exact .ok (Nat.le_refl n) stands
  | succ k ih =>
      have ran := agrees_optionalRound hseparator hitem add tally stands
      unfold Step.upTo Meaning.upTo
      generalize Step.optionalRound separator item add tally ctx = result at ran ⊢
      generalize Meaning.round separatorMeaning itemMeaning add tally ⟨text, skip⟩ n = expected
        at ran ⊢
      rcases expected with e | ⟨_ | _, m⟩
      · cases ran with
        | fault ahead more interrupted => exact .fault ahead more interrupted
        | error ahead more here => exact .error ahead more here
      · cases ran with
        | fault ahead more interrupted => exact .fault ahead more interrupted
        | ok ahead here =>
            simp only [position_eq_iff stands here, bind, Except.bind]
            split
            · exact .ok ahead here
            · exact (ih _ here).since ahead
      · cases ran with
        | fault ahead more interrupted => exact .fault ahead more interrupted
        | ok ahead here => exact .ok ahead here

theorem simulates_repeated (bounds : Repeat)
    (hseparator : t.SimulatesOption skip separator separatorMeaning)
    (hitem : t.Simulates skip item itemMeaning) (add : β → α → β) (start : β) :
    t.Simulates skip (Step.repeated bounds separator item add start)
      (Meaning.repeated bounds separatorMeaning itemMeaning add start) := by
  intro ctx n saved stands
  have ran := simulates_required hseparator hitem add bounds.min.toNat (.start start) stands
  unfold Step.repeated Meaning.repeated
  generalize Step.required separator item add bounds.min.toNat (.start start) ctx = result at ran ⊢
  generalize Meaning.required separatorMeaning itemMeaning add bounds.min.toNat (.start start)
    ⟨text, skip⟩ n = expected at ran ⊢
  cases ran with
  | fault ahead more interrupted => exact .fault ahead more interrupted
  | error ahead more here => exact .error ahead more here
  | @ok round after m ahead here =>
      cases round with
      | missed message backtrack tally => exact .ok ahead here
      | done tally =>
          have optional := (simulates_upTo bounds.isOpen hseparator hitem add bounds.room tally
            here).since ahead
          show t.Agrees skip n saved _
            (Meaning.upTo bounds.isOpen separatorMeaning itemMeaning add bounds.room tally
              ⟨text, skip⟩ m >>= _)
          simp only
          generalize Step.upTo bounds.isOpen separator item add bounds.room tally after = result
            at optional ⊢
          generalize Meaning.upTo bounds.isOpen separatorMeaning itemMeaning add bounds.room tally
            ⟨text, skip⟩ m = expected at optional ⊢
          cases optional with
          | fault later more interrupted => exact .fault later more interrupted
          | error later more there => exact .error later more there
          | ok later there => exact .ok later there

end TextGrammar.Tracking
