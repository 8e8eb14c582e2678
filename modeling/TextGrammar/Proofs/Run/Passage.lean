import TextGrammar.Proofs.Run.Parts

set_option autoImplicit false

/-! # What a run keeps to

All that a parser does beside running its parts is to work on the cursor, to leave remarks, and to
refuse values. So whatever these keep to, and the parts keep to, the parser keeps to as well. What is
kept to is a relation between the state before and the state after, which goes on from one state to
the next, and a restriction on the errors. -/

namespace TextGrammar

/-- What the parts of a run may do. -/
structure Passage where
  /-- A part that begins in the first state may leave the second. -/
  Leads : Context → Context → Prop
  /-- A part may end in the error. -/
  Raises : ParseError → Prop
  refl (ctx : Context) : Leads ctx ctx
  trans {before between after : Context} : Leads before between → Leads between after →
    Leads before after
  onCursor (change : Cursor → Cursor) (ctx : Context) : Leads ctx (ctx.onCursor change)
  log (remark : String) (ctx : Context) : Leads ctx (ctx.log remark)
  source (fault : Fault) : Raises (.source fault)
  mapping (message : String) : Raises (.mapping message)

namespace Passage

variable (P : Passage) {α β γ : Type}

/-- A part that began in `ctx` may come to the result. -/
inductive Admits (ctx : Context) : EStateM.Result ParseError Context α → Prop where
  | ok {a : α} {ctx' : Context} (leads : P.Leads ctx ctx') : Admits ctx (.ok a ctx')
  | error {e : ParseError} {ctx' : Context} (leads : P.Leads ctx ctx') (raises : P.Raises e) :
      Admits ctx (.error e ctx')

/-- Wherever the part begins, it keeps to what is allowed. -/
def Holds (part : Running α) : Prop :=
  ∀ ctx, P.Admits ctx (part ctx)

variable {P} {ctx before : Context} {p q : Step α}

/-- What began in a state that may be left began where that one did. -/
theorem Admits.since {result : EStateM.Result ParseError Context α} (h : P.Admits ctx result)
    (leads : P.Leads before ctx) : P.Admits before result := by
  cases h with
  | ok further => exact .ok (P.trans leads further)
  | error further raises => exact .error (P.trans leads further) raises

theorem Admits.onCursor {result : EStateM.Result ParseError Context α} {change : Cursor → Cursor}
    (h : P.Admits (ctx.onCursor change) result) : P.Admits ctx result :=
  h.since (P.onCursor change ctx)

/-! ## Reading -/

theorem holds_reading (r : Reading Cursor α) : P.Holds (Context.reading r) := by
  intro ctx
  unfold Context.reading
  cases r ctx.cursor with
  | ok a cursor => exact .ok (P.onCursor (fun _ => cursor) ctx)
  | error f cursor => exact .error (P.onCursor (fun _ => cursor) ctx) (P.source f)

theorem holds_passOver : P.Holds Context.passOver := by
  intro ctx
  unfold Context.passOver
  cases ctx.skip with
  | none => exact .ok (P.refl ctx)
  | some skip =>
      have ran := P.holds_reading (Cursor.readWhile skip.contains) ctx
      simp only
      generalize Context.reading (Cursor.readWhile skip.contains) ctx = result at ran ⊢
      cases ran with
      | ok leads => exact .ok leads
      | error leads raises => exact .error leads raises

theorem holds_letter (l : Letter α) : P.Holds l.step := by
  intro ctx
  unfold Letter.step
  cases l.remark? with
  | none => exact P.holds_reading _ ctx
  | some remark => exact (P.holds_reading _ _).since (P.log _ ctx)

/-! ## One after another -/

theorem holds_mapOutcome (f : Outcome α → Outcome β) (hp : P.Holds p) :
    P.Holds (p.mapOutcome f) := by
  intro ctx
  have ran := hp ctx
  unfold Step.mapOutcome
  generalize p ctx = result at ran ⊢
  cases ran with
  | error leads raises => exact .error leads raises
  | ok leads => exact .ok leads

theorem holds_map (f : α → β) (hp : P.Holds p) : P.Holds (p.map f) :=
  holds_mapOutcome (Outcome.map f) hp

theorem holds_tryMap (f : α → Except String β) (hp : P.Holds p) : P.Holds (p.tryMap f) :=
  holds_mapOutcome _ hp

theorem holds_flatMap {next : α → Step β} (hp : P.Holds p) (hnext : ∀ a, P.Holds (next a)) :
    P.Holds (p.flatMap next) := by
  intro ctx
  have ran := hp ctx
  unfold Step.flatMap
  generalize p ctx = result at ran ⊢
  cases ran with
  | error leads raises => exact .error leads raises
  | @ok first between leads =>
      cases status : first.status with
      | error message =>
          simp only [status]
          exact .ok leads
      | ok value =>
          have then_ran := (hnext value between).since leads
          simp only [status]
          generalize next value between = result at then_ran ⊢
          cases then_ran with
          | error leads raises => exact .error leads raises
          | ok leads => exact .ok leads

theorem holds_seq (combine : α → β → γ) {q : Step β} (hp : P.Holds p) (hq : P.Holds q) :
    P.Holds (p.seq combine q) :=
  holds_flatMap hp fun a => holds_map (combine a) hq

theorem holds_tryMapRaising (f : α → Except String β) (hp : P.Holds p) :
    P.Holds (p.tryMapRaising f) := by
  intro ctx
  have ran := hp ctx
  unfold Step.tryMapRaising
  generalize p ctx = result at ran ⊢
  cases ran with
  | error leads raises => exact .error leads raises
  | @ok o after leads =>
      cases status : o.status with
      | error message =>
          simp only [status]
          exact .ok leads
      | ok value =>
          cases mapped : f value with
          | error message =>
              simp only [status, mapped]
              exact .error leads (P.mapping message)
          | ok result =>
              simp only [status, mapped]
              exact .ok leads

theorem holds_capture {p : Step Unit} (hp : P.Holds p) : P.Holds p.capture := by
  intro ctx
  have ran := (hp (ctx.onCursor Cursor.mark)).onCursor
  unfold Step.capture
  generalize p (ctx.onCursor Cursor.mark) = result at ran ⊢
  cases ran with
  | error leads raises => exact .error leads raises
  | @ok o after leads => exact .ok (P.trans leads (P.onCursor _ after))

/-! ## Going back -/

theorem holds_choose (hp : P.Holds p) (hq : P.Holds q) : P.Holds (p.choose q) := by
  intro ctx
  have ran := (hp (ctx.onCursor Cursor.mark)).onCursor
  unfold Step.choose
  generalize p (ctx.onCursor Cursor.mark) = result at ran ⊢
  cases ran with
  | error leads raises => exact .error leads raises
  | @ok first after leads =>
      show P.Admits ctx (if first.isSuccessful || !first.backtrack then _ else _)
      split
      · exact .ok (P.trans leads (P.onCursor _ after))
      · have again := (hq (after.onCursor (Cursor.reset true))).onCursor.since leads
        generalize q (after.onCursor (Cursor.reset true)) = result at again ⊢
        cases again with
        | error leads raises => exact .error leads raises
        | ok leads => exact .ok leads

theorem holds_attempt (hp : P.Holds p) : P.Holds p.attempt := by
  intro ctx
  have ran := (hp (ctx.onCursor Cursor.mark)).onCursor
  unfold Step.attempt
  generalize p (ctx.onCursor Cursor.mark) = result at ran ⊢
  cases ran with
  | error leads raises => exact .error leads raises
  | @ok o after leads =>
      show P.Admits ctx (if o.isSuccessful then _ else _)
      split
      · exact .ok (P.trans leads (P.onCursor _ after))
      · exact .ok (P.trans leads (P.onCursor _ after))

theorem holds_opt (present : α → β) (absent : β) (hp : P.Holds p) :
    P.Holds (p.opt present absent) := by
  intro ctx
  have tried := holds_attempt hp ctx
  unfold Step.opt
  generalize p.attempt ctx = result at tried ⊢
  cases tried with
  | error leads raises => exact .error leads raises
  | @ok found after leads => cases found <;> exact .ok leads

theorem holds_lookahead {p : Step Unit} (hp : P.Holds p) : P.Holds p.lookahead := by
  intro ctx
  have ran := (hp (ctx.onCursor Cursor.mark)).onCursor
  unfold Step.lookahead
  generalize p (ctx.onCursor Cursor.mark) = result at ran ⊢
  cases ran with
  | error leads raises => exact .error leads raises
  | @ok o after leads => exact .ok (P.trans leads (P.onCursor _ after))

theorem holds_not {p : Step Unit} (hp : P.Holds p) : P.Holds p.not := by
  intro ctx
  have ran := (hp (ctx.onCursor Cursor.mark)).onCursor
  unfold Step.not
  generalize p (ctx.onCursor Cursor.mark) = result at ran ⊢
  cases ran with
  | error leads raises => exact .error leads raises
  | @ok o after leads => exact .ok (P.trans leads (P.onCursor _ after))

/-- A search goes from one attempt to the next through a reading. The induction is on the number of
characters left. -/
theorem holds_skipTo (hp : P.Holds p) : P.Holds p.skipTo := by
  intro ctx
  induction hsize : ctx.size using Nat.strongRecOn generalizing ctx with
  | ind size ih =>
      have tried := holds_attempt hp ctx
      rw [Step.skipTo]
      generalize p.attempt ctx = result at tried ⊢
      cases tried with
      | error leads raises => exact .error leads raises
      | @ok found back leads =>
          cases found with
          | some o => exact .ok leads
          | none =>
              have went := (P.holds_reading Cursor.read back).since leads
              simp only
              generalize Context.reading Cursor.read back = result at went ⊢
              cases went with
              | error leads raises => exact .error leads raises
              | @ok c next leads =>
                  cases c with
                  | none => exact .ok leads
                  | some c =>
                      show P.Admits ctx (if next.size < ctx.size then _ else _)
                      split
                      · rename_i fewer
                        exact (ih _ (hsize ▸ fewer) next rfl).since leads
                      · exact .ok leads

/-! ## Repetition -/

section

variable {separator : Option (Step Unit)} (add : β → α → β)

theorem holds_separate (hseparator : ∀ s ∈ separator, P.Holds s) (tally : Step.Tally β) :
    P.Holds (Step.separate separator tally) := by
  intro ctx
  obtain ⟨state, fresh, backtrack⟩ := tally
  cases separator with
  | none => exact .ok (P.refl ctx)
  | some s =>
      cases fresh with
      | true => exact .ok (P.refl ctx)
      | false =>
          have ran := hseparator s rfl ctx
          unfold Step.separate
          simp only
          generalize s ctx = result at ran ⊢
          cases ran with
          | error leads raises => exact .error leads raises
          | @ok o after leads =>
              cases status : o.status with
              | error message =>
                  simp only [status]
                  exact .ok leads
              | ok _ =>
                  simp only [status]
                  exact .ok leads

theorem holds_round (hseparator : ∀ s ∈ separator, P.Holds s) (hitem : P.Holds p)
    (tally : Step.Tally β) : P.Holds (Step.round separator p add tally) := by
  intro ctx
  have separated := holds_separate hseparator tally ctx
  unfold Step.round
  generalize Step.separate separator tally ctx = result at separated ⊢
  cases separated with
  | error leads raises => exact .error leads raises
  | @ok round between leads =>
      cases round with
      | missed message backtrack tally => exact .ok leads
      | done tally =>
          have ran := (hitem between).since leads
          simp only
          generalize p between = result at ran ⊢
          cases ran with
          | error leads raises => exact .error leads raises
          | @ok o after leads =>
              cases status : o.status with
              | error message =>
                  simp only [status]
                  exact .ok leads
              | ok value =>
                  simp only [status]
                  exact .ok leads

theorem holds_optionalRound (hseparator : ∀ s ∈ separator, P.Holds s) (hitem : P.Holds p)
    (tally : Step.Tally β) : P.Holds (Step.optionalRound separator p add tally) := by
  intro ctx
  have ran := (holds_round add hseparator hitem tally (ctx.onCursor Cursor.mark)).onCursor
  unfold Step.optionalRound
  generalize Step.round separator p add tally (ctx.onCursor Cursor.mark) = result at ran ⊢
  cases ran with
  | error leads raises => exact .error leads raises
  | @ok round after leads =>
      cases round with
      | done tally => exact .ok (P.trans leads (P.onCursor _ after))
      | missed message backtrack tally => exact .ok (P.trans leads (P.onCursor _ after))

theorem holds_required (hseparator : ∀ s ∈ separator, P.Holds s) (hitem : P.Holds p) (n : Nat)
    (tally : Step.Tally β) : P.Holds (Step.required separator p add n tally) := by
  intro ctx
  induction n generalizing ctx tally with
  | zero => exact .ok (P.refl ctx)
  | succ n ih =>
      have ran := holds_round add hseparator hitem tally ctx
      unfold Step.required
      generalize Step.round separator p add tally ctx = result at ran ⊢
      cases ran with
      | error leads raises => exact .error leads raises
      | @ok round after leads =>
          cases round with
          | missed message backtrack tally => exact .ok leads
          | done tally => exact (ih tally after).since leads

theorem holds_upTo (isOpen : Bool) (hseparator : ∀ s ∈ separator, P.Holds s) (hitem : P.Holds p)
    (n : Nat) (tally : Step.Tally β) : P.Holds (Step.upTo isOpen separator p add n tally) := by
  intro ctx
  induction n generalizing ctx tally with
  | zero => exact .ok (P.refl ctx)
  | succ n ih =>
      have ran := holds_optionalRound add hseparator hitem tally ctx
      unfold Step.upTo
      generalize Step.optionalRound separator p add tally ctx = result at ran ⊢
      cases ran with
      | error leads raises => exact .error leads raises
      | @ok round after leads =>
          cases round with
          | missed message backtrack tally => exact .ok leads
          | done tally =>
              simp only
              split
              · exact .ok leads
              · exact (ih tally after).since leads

theorem holds_repeated (bounds : Repeat) (hseparator : ∀ s ∈ separator, P.Holds s)
    (hitem : P.Holds p) (start : β) : P.Holds (Step.repeated bounds separator p add start) := by
  intro ctx
  have ran := holds_required add hseparator hitem bounds.min.toNat (.start start) ctx
  unfold Step.repeated
  generalize Step.required separator p add bounds.min.toNat (.start start) ctx = result at ran ⊢
  cases ran with
  | error leads raises => exact .error leads raises
  | @ok round after leads =>
      cases round with
      | missed message backtrack tally => exact .ok leads
      | done tally =>
          have optional := (holds_upTo add bounds.isOpen hseparator hitem bounds.room tally
            after).since leads
          simp only
          generalize Step.upTo bounds.isOpen separator p add bounds.room tally after = result
            at optional ⊢
          cases optional with
          | error leads raises => exact .error leads raises
          | ok leads => exact .ok leads

end

/-! ## Parsers -/

variable {ρ : Type → Type} {call : {β : Type} → ρ β → Step β}

/-- A parser that keeps to it with all its parts, and with the rule that it is, if it is one. -/
theorem holds_body (p : Parser ρ α) (hparts : ∀ q ∈ p.parts, P.Holds (q.2.run call))
    (hrule : ∀ name r, p = .rule name r → P.Holds (call r)) : P.Holds (p.body call) := by
  have single {β : Type} {q : Parser ρ β} (h : p.parts = {⟨β, q⟩}) : P.Holds (q.run call) :=
    hparts ⟨β, q⟩ (by simp [h])
  have pair {β γ : Type} {q : Parser ρ β} {q' : Parser ρ γ} (h : p.parts = {⟨β, q⟩, ⟨γ, q'⟩}) :
      P.Holds (q.run call) ∧ P.Holds (q'.run call) :=
    ⟨hparts ⟨β, q⟩ (by simp [h]), hparts ⟨γ, q'⟩ (by simp [h])⟩
  cases p with
  | primitive p => exact P.holds_reading p.reading
  | letter l => exact P.holds_letter l
  | produce name value => exact fun ctx => .ok (P.refl ctx)
  | seq name combine first second =>
      obtain ⟨hfirst, hsecond⟩ := pair rfl
      exact holds_seq combine hfirst hsecond
  | choice name ofLeft ofRight left right =>
      obtain ⟨hleft, hright⟩ := pair rfl
      exact holds_choose (holds_map ofLeft hleft) (holds_map ofRight hright)
  | opt present absent inner => exact holds_opt present absent (single rfl)
  | cut inner => exact holds_mapOutcome _ (single rfl)
  | skipTo target => exact holds_skipTo (single rfl)
  | lookahead inner => exact holds_lookahead (single rfl)
  | not inner => exact holds_not (single rfl)
  | iterate name bounds fold item =>
      exact holds_map _ (holds_repeated fold.add bounds (by simp) (single rfl) fold.start)
  | iterateSeparated name bounds fold separator item =>
      obtain ⟨hseparator, hitem⟩ := pair rfl
      have separators : ∀ s ∈ some (separator.run call), P.Holds s := by simpa using hseparator
      exact holds_map _ (holds_repeated fold.add bounds separators hitem fold.start)
  | captureWith ofText inner => exact holds_map ofText (holds_capture (single rfl))
  | mapped name f inner => exact holds_map f (single rfl)
  | tryMap f inner => exact holds_tryMap f (single rfl)
  | tryMapRaising f inner => exact holds_tryMapRaising f (single rfl)
  | flatMap first next =>
      exact holds_flatMap (hparts ⟨_, first⟩ (.inl rfl)) fun a => hparts ⟨_, next a⟩ (.inr ⟨a, rfl⟩)
  | rule name r => exact hrule name r rfl

end Passage

end TextGrammar
