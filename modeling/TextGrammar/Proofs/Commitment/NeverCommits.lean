import TextGrammar.Proofs.Run.Parts

set_option autoImplicit false

/-! # Runs that commit to nothing

What parsers are put together with joins the flags of what it runs: an outcome is committed only if one
of those before it was. So a parser of parts that never commit never commits either, unless it is a cut
or a keyword with an index to cut at. A choice and an assertion ask nothing of their parts: whatever
these were committed to is over when they are left. -/

namespace TextGrammar

variable {α β γ : Type}

/-- Unless it is an error, the result is an allowed one. -/
inductive Running.Gives (allowed : α → Prop) : EStateM.Result ParseError Context α → Prop where
  | ok {a : α} {ctx : Context} (h : allowed a) : Gives allowed (.ok a ctx)
  | error {e : ParseError} {ctx : Context} : Gives allowed (.error e ctx)

/-- Another alternative may be tried. -/
def Outcome.Revocable (o : Outcome α) : Prop :=
  o.backtrack = true

namespace Step

/-- Wherever the step begins, it does not come to a committed outcome. -/
def NeverCommits (p : Step α) : Prop :=
  ∀ ctx, Running.Gives Outcome.Revocable (p ctx)

variable {p q : Step α}

/-! ## Reading -/

theorem neverCommits_reading {r : Reading Cursor (Outcome α)}
    (h : ∀ {cur o cur'}, r cur = .ok o cur' → o.Revocable) :
    NeverCommits (Context.reading r) := by
  intro ctx
  unfold Context.reading
  cases ran : r ctx.cursor with
  | ok o cursor => exact .ok (h ran)
  | error f cursor => exact .error

theorem revocable_of_matchOne {accept : Char → Option α} {message : Option Char → String}
    {cur cur' : Cursor} {o : Outcome α}
    (ran : Primitive.matchOne accept message cur = .ok o cur') : o.Revocable := by
  unfold Primitive.matchOne at ran
  split at ran
  · cases ran
  · split at ran
    · cases ran
      rfl
    · split at ran <;> cases ran
      rfl

theorem revocable_of_matchRun {accept : Char → Bool} {min : Nat} {message : Nat → String}
    {cur cur' : Cursor} {o : Outcome Unit}
    (ran : Primitive.matchRun accept min message cur = .ok o cur') : o.Revocable := by
  unfold Primitive.matchRun at ran
  split at ran
  · cases ran
  · cases ran
    split <;> rfl

theorem revocable_of_matchNext {accept : Option Char → Bool} {message : Option Char → String}
    {cur cur' : Cursor} {o : Outcome Unit}
    (ran : Primitive.matchNext accept message cur = .ok o cur') : o.Revocable := by
  unfold Primitive.matchNext at ran
  split at ran
  · cases ran
  · cases ran
    split <;> rfl

/-- A keyword of a set never commits, and neither does the end of the set. -/
theorem revocable_of_matchCandidates {ks : List KeywordSet.Candidate} {offset : Nat}
    {cur cur' : Cursor} {o : Outcome Unit}
    (ran : Primitive.matchCandidates ks offset cur = .ok o cur') : o.Revocable := by
  induction ks generalizing offset cur with
  | nil =>
      cases ran
      rfl
  | cons k ks ih =>
      unfold Primitive.matchCandidates at ran
      split at ran
      · cases ran
      · cases ran
        rfl
      · split at ran
        · split at ran
          · exact ih ran
          · cases ran
            rfl
        · cases ran
          rfl

theorem revocable_of_matchKeyword {k : Keyword} (uncut : k.cut? = none) {cur cur' : Cursor}
    {o : Outcome Unit} (ran : Primitive.matchKeyword k cur = .ok o cur') : o.Revocable := by
  unfold Primitive.matchKeyword at ran
  split at ran
  · cases ran
  · cases ran
    rfl
  · cases ran
    rw [uncut]
    rfl

theorem neverCommits_primitive (p : Primitive) (uncut : ∀ k, p = .keyword k → k.cut? = none) :
    NeverCommits p.step := by
  refine neverCommits_reading fun {cur} _ _ ran => ?_
  cases p with
  | exact c => exact revocable_of_matchOne ran
  | charIn members => exact revocable_of_matchOne ran
  | charsWhileIn members min => exact revocable_of_matchRun ran
  | space min => exact revocable_of_matchRun ran
  | eof => exact revocable_of_matchNext ran
  | bof =>
      simp only [Primitive.reading] at ran
      by_cases first : cur.position.isBof = true
      · rw [if_pos first] at ran
        cases ran
        rfl
      · rw [if_neg first] at ran
        exact revocable_of_matchNext ran
  | keyword k => exact revocable_of_matchKeyword (uncut k rfl) ran
  | keywordIn s => exact revocable_of_matchCandidates ran

theorem neverCommits_letter (l : Letter α) : NeverCommits l.step := by
  intro ctx
  exact neverCommits_reading revocable_of_matchOne _

/-! ## One after another -/

theorem neverCommits_framed (name : String) (h : NeverCommits p) :
    NeverCommits (framed name p) := by
  intro ctx
  unfold framed
  cases ctx.enter name with
  | error e ctx => exact .error
  | ok start inside =>
      have ran := h inside
      simp only
      generalize p inside = result at ran ⊢
      cases ran with
      | error => exact .error
      | ok revocable => exact .ok revocable

theorem neverCommits_mapOutcome {f : Outcome α → Outcome β}
    (keeps : ∀ o, o.Revocable → (f o).Revocable) (h : NeverCommits p) :
    NeverCommits (p.mapOutcome f) := by
  intro ctx
  have ran := h ctx
  unfold mapOutcome
  generalize p ctx = result at ran ⊢
  cases ran with
  | error => exact .error
  | ok revocable => exact .ok (keeps _ revocable)

theorem neverCommits_map (f : α → β) (h : NeverCommits p) : NeverCommits (p.map f) :=
  neverCommits_mapOutcome (fun _ revocable => revocable) h

theorem neverCommits_tryMap (f : α → Except String β) (h : NeverCommits p) :
    NeverCommits (p.tryMap f) :=
  neverCommits_mapOutcome (fun _ revocable => revocable) h

theorem neverCommits_flatMap {next : α → Step β} (h : NeverCommits p)
    (hnext : ∀ a, NeverCommits (next a)) : NeverCommits (p.flatMap next) := by
  intro ctx
  have ran := h ctx
  unfold flatMap
  generalize p ctx = result at ran ⊢
  cases ran with
  | error => exact .error
  | @ok first between revocable =>
      cases status : first.status with
      | error message =>
          simp only [status]
          exact .ok revocable
      | ok value =>
          have then_ran := hnext value between
          simp only [status]
          generalize next value between = result at then_ran ⊢
          cases then_ran with
          | error => exact .error
          | ok revocable' => exact .ok (Bool.and_eq_true_iff.mpr ⟨revocable, revocable'⟩)

theorem neverCommits_seq (combine : α → β → γ) {q : Step β} (h : NeverCommits p)
    (h' : NeverCommits q) : NeverCommits (p.seq combine q) :=
  neverCommits_flatMap h fun a => neverCommits_map (combine a) h'

theorem neverCommits_tryMapRaising (f : α → Except String β) (h : NeverCommits p) :
    NeverCommits (p.tryMapRaising f) := by
  intro ctx
  have ran := h ctx
  unfold tryMapRaising
  generalize p ctx = result at ran ⊢
  cases ran with
  | error => exact .error
  | @ok o after revocable =>
      cases status : o.status with
      | error message =>
          simp only [status]
          exact .ok revocable
      | ok value =>
          cases mapped : f value with
          | error message =>
              simp only [status, mapped]
              exact .error
          | ok result =>
              simp only [status, mapped]
              exact .ok revocable

theorem neverCommits_capture {p : Step Unit} (h : NeverCommits p) : NeverCommits p.capture := by
  intro ctx
  have ran := h (ctx.onCursor Cursor.mark)
  unfold capture
  generalize p (ctx.onCursor Cursor.mark) = result at ran ⊢
  cases ran with
  | error => exact .error
  | ok revocable => exact .ok revocable

/-! ## Going back -/

/-- A choice lifts the commitments of both its sides. -/
theorem neverCommits_choose (p q : Step α) : NeverCommits (p.choose q) := by
  intro ctx
  unfold choose
  cases p (ctx.onCursor Cursor.mark) with
  | error e ctx => exact .error
  | ok first after =>
      simp only
      split
      · exact .ok rfl
      · cases q (after.onCursor (Cursor.reset true)) with
        | error e ctx => exact .error
        | ok second ctx => exact .ok rfl

/-- An assertion commits to nothing, whatever it looks for. -/
theorem neverCommits_lookahead (p : Step Unit) : NeverCommits p.lookahead := by
  intro ctx
  unfold lookahead
  cases p (ctx.onCursor Cursor.mark) with
  | error e ctx => exact .error
  | ok o ctx => exact .ok rfl

theorem neverCommits_not (p : Step Unit) : NeverCommits p.not := by
  intro ctx
  unfold not
  cases p (ctx.onCursor Cursor.mark) with
  | error e ctx => exact .error
  | ok o ctx =>
      refine .ok ?_
      split <;> rfl

theorem gives_attempt (h : NeverCommits p) (ctx : Context) :
    Running.Gives (∀ o ∈ ·, Outcome.Revocable o) (p.attempt ctx) := by
  have ran := h (ctx.onCursor Cursor.mark)
  unfold attempt
  generalize p (ctx.onCursor Cursor.mark) = result at ran ⊢
  cases ran with
  | error => exact .error
  | @ok o after revocable =>
      show Running.Gives _ (if o.isSuccessful then _ else _)
      split
      · refine .ok ?_
        rintro _ ⟨⟩
        exact revocable
      · exact .ok (by simp)

theorem neverCommits_opt (present : α → β) (absent : β) (h : NeverCommits p) :
    NeverCommits (p.opt present absent) := by
  intro ctx
  have tried := gives_attempt h ctx
  unfold opt
  generalize p.attempt ctx = result at tried ⊢
  cases tried with
  | error => exact .error
  | @ok found after revocable =>
      cases found with
      | none => exact .ok rfl
      | some o => exact .ok (revocable o rfl)

/-- The induction is on the number of characters left. -/
theorem neverCommits_skipTo (h : NeverCommits p) : NeverCommits p.skipTo := by
  intro ctx
  induction hsize : ctx.size using Nat.strongRecOn generalizing ctx with
  | ind size ih =>
      have tried := gives_attempt h ctx
      rw [skipTo]
      generalize p.attempt ctx = result at tried ⊢
      cases tried with
      | error => exact .error
      | @ok found back revocable =>
          cases found with
          | some o => exact .ok (revocable o rfl)
          | none =>
              simp only
              cases Context.reading Cursor.read back with
              | error e ctx => exact .error
              | ok c next =>
                  cases c with
                  | none => exact .ok rfl
                  | some c =>
                      show Running.Gives _ (if next.size < ctx.size then _ else _)
                      split
                      · rename_i fewer
                        exact ih _ (hsize ▸ fewer) next rfl
                      · exact .ok rfl

/-! ## Repetition -/

section

/-- Nothing was committed in the rounds so far. -/
def Tally.Revocable (tally : Tally β) : Prop :=
  tally.backtrack = true

/-- Nothing was committed in the round, whether there was one more item or not, nor before it. -/
def Round.Revocable : Round β → Prop
  | .done tally => tally.Revocable
  | .missed _ backtrack tally => backtrack = true ∧ tally.Revocable

variable {separator : Option (Step Unit)} (add : β → α → β) {tally : Tally β}

theorem gives_separate (hseparator : ∀ s ∈ separator, NeverCommits s) (before : tally.Revocable)
    (ctx : Context) : Running.Gives Round.Revocable (separate separator tally ctx) := by
  obtain ⟨state, fresh, backtrack⟩ := tally
  cases separator with
  | none => exact .ok before
  | some s =>
      cases fresh with
      | true => exact .ok before
      | false =>
          have ran := hseparator s rfl ctx
          unfold separate
          simp only
          generalize s ctx = result at ran ⊢
          cases ran with
          | error => exact .error
          | @ok o after revocable =>
              have both : (backtrack && o.backtrack) = true :=
                Bool.and_eq_true_iff.mpr ⟨before, revocable⟩
              cases status : o.status with
              | error message =>
                  simp only [status]
                  exact .ok ⟨both, before⟩
              | ok _ =>
                  simp only [status]
                  exact .ok both

theorem gives_round (hseparator : ∀ s ∈ separator, NeverCommits s) (hitem : NeverCommits p)
    (before : tally.Revocable) (ctx : Context) :
    Running.Gives Round.Revocable (round separator p add tally ctx) := by
  have separated := gives_separate hseparator before ctx
  unfold round
  generalize separate separator tally ctx = result at separated ⊢
  cases separated with
  | error => exact .error
  | @ok round between revocable =>
      cases round with
      | missed message backtrack tally => exact .ok revocable
      | done tally =>
          have ran := hitem between
          simp only
          generalize p between = result at ran ⊢
          cases ran with
          | error => exact .error
          | @ok o after revocable' =>
              have both : (tally.backtrack && o.backtrack) = true :=
                Bool.and_eq_true_iff.mpr ⟨revocable, revocable'⟩
              cases status : o.status with
              | error message =>
                  simp only [status]
                  exact .ok ⟨both, revocable⟩
              | ok value =>
                  simp only [status]
                  exact .ok both

theorem gives_optionalRound (hseparator : ∀ s ∈ separator, NeverCommits s)
    (hitem : NeverCommits p) (before : tally.Revocable) (ctx : Context) :
    Running.Gives Round.Revocable (optionalRound separator p add tally ctx) := by
  have ran := gives_round add hseparator hitem before (ctx.onCursor Cursor.mark)
  unfold optionalRound
  generalize round separator p add tally (ctx.onCursor Cursor.mark) = result at ran ⊢
  cases ran with
  | error => exact .error
  | @ok round after revocable =>
      cases round with
      | done tally => exact .ok revocable
      | missed message backtrack tally => exact .ok revocable

theorem gives_required (hseparator : ∀ s ∈ separator, NeverCommits s) (hitem : NeverCommits p)
    (n : Nat) (before : tally.Revocable) (ctx : Context) :
    Running.Gives Round.Revocable (required separator p add n tally ctx) := by
  induction n generalizing ctx tally with
  | zero => exact .ok before
  | succ n ih =>
      have ran := gives_round add hseparator hitem before ctx
      unfold required
      generalize round separator p add tally ctx = result at ran ⊢
      cases ran with
      | error => exact .error
      | @ok round after revocable =>
          cases round with
          | missed message backtrack tally => exact .ok revocable
          | done tally => exact ih revocable after

theorem gives_upTo (isOpen : Bool) (hseparator : ∀ s ∈ separator, NeverCommits s)
    (hitem : NeverCommits p) (n : Nat) (before : tally.Revocable) (ctx : Context) :
    Running.Gives Tally.Revocable (upTo isOpen separator p add n tally ctx) := by
  induction n generalizing ctx tally with
  | zero => exact .ok before
  | succ n ih =>
      have ran := gives_optionalRound add hseparator hitem before ctx
      unfold upTo
      generalize optionalRound separator p add tally ctx = result at ran ⊢
      cases ran with
      | error => exact .error
      | @ok round after revocable =>
          cases round with
          | missed message backtrack tally => exact .ok revocable.2
          | done tally =>
              simp only
              split
              · exact .ok revocable
              · exact ih revocable after

theorem neverCommits_repeated (bounds : Repeat) (hseparator : ∀ s ∈ separator, NeverCommits s)
    (hitem : NeverCommits p) (start : β) :
    NeverCommits (repeated bounds separator p add start) := by
  intro ctx
  have begun : (Tally.start start).Revocable := rfl
  have ran := gives_required add hseparator hitem bounds.min.toNat begun ctx
  unfold repeated
  generalize required separator p add bounds.min.toNat (.start start) ctx = result at ran ⊢
  cases ran with
  | error => exact .error
  | @ok round after revocable =>
      cases round with
      | missed message backtrack tally => exact .ok revocable.1
      | done tally =>
          have optional :=
            gives_upTo add bounds.isOpen hseparator hitem bounds.room revocable after
          simp only
          generalize upTo bounds.isOpen separator p add bounds.room tally after = result
            at optional ⊢
          cases optional with
          | error => exact .error
          | ok revocable => exact .ok revocable

end

end Step

/-! ## Parsers -/

namespace Parser

variable {ρ : Type → Type} {call : {β : Type} → ρ β → Step β}

/-- A parser that commits by itself: a cut, or a keyword with an index to cut at. -/
def Commits : Parser ρ α → Prop
  | .cut _ => True
  | .primitive (.keyword k) => k.cut? ≠ none
  | _ => False

/-- A parser that is not committed by what it runs: a choice or an assertion. -/
def Shelters : Parser ρ α → Prop
  | .choice .. => True
  | .lookahead _ => True
  | .not _ => True
  | _ => False

/-- A parser never commits if it does not by itself and its parts never do. Of the parts of a choice or
an assertion nothing is asked. -/
theorem neverCommits_body (p : Parser ρ α) (own : ¬p.Commits)
    (hparts : ¬p.Shelters → ∀ q ∈ p.parts, Step.NeverCommits (q.2.run call))
    (hrule : ∀ name r, p = .rule name r → Step.NeverCommits (call r)) :
    Step.NeverCommits (p.body call) := by
  have single {β : Type} {q : Parser ρ β} (open' : ¬p.Shelters) (h : p.parts = {⟨β, q⟩}) :
      Step.NeverCommits (q.run call) :=
    hparts open' ⟨β, q⟩ (by simp [h])
  have pair {β γ : Type} {q : Parser ρ β} {q' : Parser ρ γ} (open' : ¬p.Shelters)
      (h : p.parts = {⟨β, q⟩, ⟨γ, q'⟩}) :
      Step.NeverCommits (q.run call) ∧ Step.NeverCommits (q'.run call) :=
    ⟨hparts open' ⟨β, q⟩ (by simp [h]), hparts open' ⟨γ, q'⟩ (by simp [h])⟩
  cases p with
  | primitive p =>
      refine Step.neverCommits_primitive p fun k keyword => ?_
      subst keyword
      exact not_not.mp own
  | letter l => exact Step.neverCommits_letter l
  | produce name value => exact fun ctx => .ok rfl
  | seq name combine first second =>
      obtain ⟨hfirst, hsecond⟩ := pair id rfl
      exact Step.neverCommits_seq combine hfirst hsecond
  | choice name ofLeft ofRight left right => exact Step.neverCommits_choose _ _
  | opt present absent inner => exact Step.neverCommits_opt present absent (single id rfl)
  | cut inner => exact absurd trivial own
  | skipTo target => exact Step.neverCommits_skipTo (single id rfl)
  | lookahead inner => exact Step.neverCommits_lookahead _
  | not inner => exact Step.neverCommits_not _
  | iterate name bounds fold item =>
      exact Step.neverCommits_map _
        (Step.neverCommits_repeated fold.add bounds (by simp) (single id rfl) fold.start)
  | iterateSeparated name bounds fold separator item =>
      obtain ⟨hseparator, hitem⟩ := pair id rfl
      have separators : ∀ s ∈ some (separator.run call), Step.NeverCommits s := by
        simpa using hseparator
      exact Step.neverCommits_map _
        (Step.neverCommits_repeated fold.add bounds separators hitem fold.start)
  | captureWith ofText inner =>
      exact Step.neverCommits_map ofText (Step.neverCommits_capture (single id rfl))
  | mapped name f inner => exact Step.neverCommits_map f (single id rfl)
  | tryMap f inner => exact Step.neverCommits_tryMap f (single id rfl)
  | tryMapRaising f inner => exact Step.neverCommits_tryMapRaising f (single id rfl)
  | flatMap first next =>
      exact Step.neverCommits_flatMap (hparts id ⟨_, first⟩ (.inl rfl)) fun a =>
        hparts id ⟨_, next a⟩ (.inr ⟨a, rfl⟩)
  | rule name r => exact hrule name r rfl

end Parser

end TextGrammar
