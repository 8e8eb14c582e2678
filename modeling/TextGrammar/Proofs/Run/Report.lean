import TextGrammar.Parser.Run

set_option autoImplicit false

/-! # What a run reports

Who runs a parser gets to see an outcome, with all that belongs to it, or the error that has ended the
run; and, either way, the position of the cursor behind the run. Two parsers are as good as each other if
their runs report the same. -/

namespace TextGrammar

variable {ρ : Type → Type} {α β : Type}

/-- An outcome, or the error that has ended the run, and the position of the cursor behind it. -/
abbrev Report (α : Type) := Except (ParseError × Position) (Outcome α × Position)

/-- What a run reports. -/
def Running.report : EStateM.Result ParseError Context (Outcome α) → Report α
  | .ok o ctx => .ok (o, ctx.position)
  | .error e ctx => .error (e, ctx.position)

/-- What a parser reports from a state. -/
def Grammar.report (g : Grammar ρ) (p : Parser ρ α) (ctx : Context) : Report α :=
  Running.report (g.parse p ctx)

namespace Report

/-- The report with another outcome. -/
def mapOutcome (f : Outcome α → Outcome β) (r : Report α) : Report β :=
  Except.map (fun (o, stop) => (f o, stop)) r

/-- The report with another value. -/
def map (f : α → β) (r : Report α) : Report β :=
  r.mapOutcome (Outcome.map f)

@[simp] theorem map_id (r : Report α) : r.map id = r := by
  rcases r with e | ⟨⟨status, backtrack, span⟩, stop⟩
  · rfl
  · cases status <;> rfl

end Report

end TextGrammar
