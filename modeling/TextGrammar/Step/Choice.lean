import TextGrammar.Step.Basic

set_option autoImplicit false

/-! # Going back

A step that may be taken back runs under a mark. If it comes to nothing, the cursor goes back to the
mark, and what was read is read again by whatever follows. -/

namespace TextGrammar.Step

variable {α : Type}

/-- Ordered choice: the second step runs from the same place if the first fails and is not
committed. A commitment does not reach beyond the choice. -/
def choose (p q : Step α) : Step α := fun ctx =>
  match p (ctx.onCursor Cursor.mark) with
  | .error e ctx => .error e ctx
  | .ok first ctx =>
    if first.isSuccessful || !first.backtrack then
      -- what was committed was this choice, and it is over
      .ok (first.allowBacktrack true) (ctx.onCursor Cursor.unmark)
    else
      match q (ctx.onCursor (Cursor.reset true)) with
      | .error e ctx => .error e ctx
      | .ok second ctx => .ok (second.allowBacktrack true) ctx

section

variable {p q : Step α} {ctx after : Context} {first : Outcome α}

/-- A success or a commitment of the first step decides the choice. -/
theorem choose_eq_first (h : p (ctx.onCursor Cursor.mark) = .ok first after)
    (final : (first.isSuccessful || !first.backtrack) = true) :
    p.choose q ctx = .ok (first.allowBacktrack true) (after.onCursor Cursor.unmark) := by
  unfold choose
  rw [h]
  exact if_pos final

/-- Otherwise the second step does, behind the way back to the mark. -/
theorem choose_eq_second (h : p (ctx.onCursor Cursor.mark) = .ok first after)
    (soft : ¬(first.isSuccessful || !first.backtrack) = true) :
    p.choose q ctx =
      q.mapOutcome (·.allowBacktrack true) (after.onCursor (Cursor.reset true)) := by
  unfold choose mapOutcome
  rw [h]
  refine (if_neg soft).trans ?_
  cases q (after.onCursor (Cursor.reset true)) with
  | ok second ctx => rfl
  | error e ctx => rfl

theorem choose_eq_error {e : ParseError} (h : p (ctx.onCursor Cursor.mark) = .error e after) :
    p.choose q ctx = .error e after := by
  unfold choose
  rw [h]

end

/-- The outcome of the step if it is a success; otherwise nothing has happened. -/
def attempt (p : Step α) : Running (Option (Outcome α)) := fun ctx =>
  match p (ctx.onCursor Cursor.mark) with
  | .error e ctx => .error e ctx
  | .ok o ctx =>
    if o.isSuccessful then .ok (some o) (ctx.onCursor Cursor.unmark)
    else .ok none (ctx.onCursor (Cursor.reset true))

/-- The step, or nothing in its place. -/
def opt {β : Type} (present : α → β) (absent : β) (p : Step α) : Step β := fun ctx =>
  match attempt p ctx with
  | .error e ctx => .error e ctx
  | .ok (some o) ctx => .ok (o.map present) ctx
  | .ok none ctx => .ok (.success absent) ctx

/-- The step succeeds from here. Nothing is read, and nothing is committed to. -/
def lookahead (p : Step Unit) : Step Unit := fun ctx =>
  match p (ctx.onCursor Cursor.mark) with
  | .error e ctx => .error e ctx
  | .ok o ctx => .ok ⟨o.status, true, none⟩ (ctx.onCursor (Cursor.reset true))

/-- The message of a step that succeeds where it should not. -/
def invalidToken : String :=
  "invalid token found."

/-- The step fails from here. Nothing is read, and nothing is committed to. -/
def not (p : Step Unit) : Step Unit := fun ctx =>
  match p (ctx.onCursor Cursor.mark) with
  | .error e ctx => .error e ctx
  | .ok o ctx =>
    .ok (if o.isSuccessful then .failure invalidToken else .success ())
      (ctx.onCursor (Cursor.reset true))

/-- The message of a search that finds nothing. -/
def tokenNotFound : String :=
  "expected token not found."

/-- The first success of the step from here on, one character further each time. The search ends
when no character is left. That less is left behind each try is asked only so that the recursion is seen
to end: the loop as such has no such test, and where the step keeps the marks it never fails (`Searches`
relates the loop without it to its result, and `search_ends` says that there is one). -/
def skipTo (p : Step α) : Step α := fun ctx =>
  match attempt p ctx with
  | .error e ctx => .error e ctx
  | .ok (some o) ctx => .ok o ctx
  | .ok none ctx₁ =>
    match Context.reading Cursor.read ctx₁ with
    | .error e ctx => .error e ctx
    | .ok none ctx => .ok (.failure tokenNotFound) ctx
    | .ok (some _) ctx₂ =>
      if ctx₂.size < ctx.size then skipTo p ctx₂ else .ok (.failure tokenNotFound) ctx₂
termination_by ctx => ctx.size

end TextGrammar.Step
