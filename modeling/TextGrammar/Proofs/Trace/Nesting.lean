import TextGrammar.Parser.Forms
import TextGrammar.Proofs.Refinement.Frame
import TextGrammar.Proofs.Run.Passage

set_option autoImplicit false

/-! # Traces are well nested

Where a parser is entered the depth goes up by one, and there are two ways to leave a parser, both of
which bring it down. Between the two lines of a parser there are only blocks of the parsers that it runs
and remarks. This is kept to by everything that a parser does, on whichever way it is left, so it is a
passage, and the induction is over the parts of a parser and the depth to which rules may be nested. -/

namespace TextGrammar

variable {ρ : Type → Type} {α : Type}

/-! ## Blocks -/

/-- The line is the one with which a parser of the name is left. -/
inductive TraceLine.Closes (depth : Nat) (name : String) : TraceLine → Prop where
  | leave (stop : Position) (message? : Option String) (backtrack : Bool) :
      Closes depth name (.leave depth name stop message? backtrack)
  | abort (stop : Position) (error : ParseError) : Closes depth name (.abort depth name stop error)

/-- The parsers that a parser runs: its parts, or what defines the rule that it is. -/
def Grammar.runs (g : Grammar ρ) (p : Parser ρ α) : Set (AnyParser ρ) :=
  p.parts ∪ {q | ∃ name r, p = .rule name r ∧ q = ⟨α, g.define r⟩}

/-- Lines between those of a parser: remarks at the depth, and whole blocks at it of parsers that the
parser runs, in any number and order. -/
inductive Inside (g : Grammar ρ) : {α : Type} → Parser ρ α → (depth : Nat) → List TraceLine → Prop where
  | nil {α : Type} {p : Parser ρ α} {depth : Nat} : Inside g p depth []
  | note {α : Type} {p : Parser ρ α} {depth : Nat} {lines : List TraceLine} (remark : String)
      (rest : Inside g p depth lines) : Inside g p depth (.note depth remark :: lines)
  | block {α : Type} {p : Parser ρ α} {depth : Nat} {inner lines : List TraceLine}
      {closing : TraceLine} {q : AnyParser ρ} (runs : q ∈ g.runs p) (start : Position)
      (inside : Inside g q.2 (depth + 1) inner) (closes : closing.Closes depth q.2.name)
      (rest : Inside g p depth lines) :
      Inside g p depth (.enter depth q.2.name start :: inner ++ closing :: lines)

theorem Inside.append {g : Grammar ρ} {p : Parser ρ α} {depth : Nat} {lines more : List TraceLine}
    (h : Inside g p depth lines) (h' : Inside g p depth more) : Inside g p depth (lines ++ more) := by
  induction h with
  | nil => exact h'
  | note remark _ ih => exact .note remark (ih h')
  | block runs start inside closes _ _ ih =>
      rw [List.append_assoc, List.cons_append]
      exact .block runs start inside closes (ih h')

/-! ## Growing traces -/

/-- The trace of the second state, if one is kept, is that of the first with the lines behind it. -/
def Context.Adds (ctx : Context) (lines : List TraceLine) (ctx' : Context) : Prop :=
  ctx'.trace = ctx.trace.map (· ++ lines.toArray)

namespace Context.Adds

variable {ctx ctx' ctx'' : Context} {lines more : List TraceLine}

theorem nil (same : ctx'.trace = ctx.trace) : ctx.Adds [] ctx' := by
  simp [Adds, same]

theorem record (line : TraceLine) : ctx.Adds [line] (ctx.record line) := by
  simp [Adds, Context.record]

theorem append (h : ctx.Adds lines ctx') (h' : ctx'.Adds more ctx'') :
    ctx.Adds (lines ++ more) ctx'' := by
  unfold Adds at *
  rw [h', h]
  cases ctx.trace <;> simp

end Context.Adds

/-- What comes between the lines of a parser. -/
def Passage.inside (g : Grammar ρ) (p : Parser ρ α) : Passage where
  Leads ctx ctx' := ctx'.depth = ctx.depth ∧ ∃ lines, Inside g p ctx.depth lines ∧ ctx.Adds lines ctx'
  Raises _ := True
  refl _ := ⟨rfl, [], .nil, .nil rfl⟩
  trans {before between after} := by
    rintro ⟨depth, lines, inside, adds⟩ ⟨depth', more, inside', adds'⟩
    exact ⟨depth'.trans depth, _, inside.append (depth ▸ inside'), adds.append adds'⟩
  onCursor _ _ := ⟨rfl, [], .nil, .nil rfl⟩
  log remark ctx := ⟨rfl, _, .note remark .nil, .record _⟩
  source _ := trivial
  mapping _ := trivial

theorem Passage.Admits.leads {P : Passage} {ctx : Context} {β : Type}
    {result : EStateM.Result ParseError Context β} (h : P.Admits ctx result) :
    P.Leads ctx (Running.left result) := by
  cases h with
  | ok leads => exact leads
  | error leads _ => exact leads

/-! ## Entering and leaving -/

/-- Passing over leaves everything but the cursor as it was, and nothing but a fault can end it. -/
theorem Context.passOver_cases (ctx : Context) :
    (∃ cursor, ctx.passOver = .ok () { ctx with cursor }) ∨
      ∃ fault cursor, ctx.passOver = .error (.source fault) { ctx with cursor } := by
  obtain ⟨cursor, skip, trace, depth⟩ := ctx
  cases skip with
  | none => exact .inl ⟨cursor, rfl⟩
  | some skip =>
      unfold passOver reading
      simp only
      cases Cursor.readWhile skip.contains cursor with
      | ok _ cursor => exact .inl ⟨cursor, rfl⟩
      | error fault cursor => exact .inr ⟨fault, cursor, rfl⟩

/-- A parser within which the depth is one more is left at the depth. -/
theorem Context.leave_eq {ctx : Context} {depth : Nat} (deep : ctx.depth = depth + 1) (name : String)
    (o : Outcome α) : ctx.leave name o =
      { ctx.record (.leave depth name ctx.position o.message? o.backtrack) with depth } := by
  simp [leave, record, position, deep]

theorem Context.abort_eq {ctx : Context} {depth : Nat} (deep : ctx.depth = depth + 1) (name : String)
    (e : ParseError) : ctx.abort name e =
      { ctx.record (.abort depth name ctx.position e) with depth } := by
  simp [abort, record, position, deep]

/-- The line with which a parser is left, by what its run has come to. -/
def TraceLine.closing (depth : Nat) (name : String) :
    EStateM.Result ParseError Context (Outcome α) → TraceLine
  | .ok o ctx => .leave depth name ctx.position o.message? o.backtrack
  | .error e ctx => .abort depth name ctx.position e

theorem TraceLine.closes_closing (depth : Nat) (name : String)
    (result : EStateM.Result ParseError Context (Outcome α)) :
    (closing depth name result).Closes depth name := by
  cases result with
  | ok o ctx => exact .leave _ _ _
  | error e ctx => exact .abort _ _

/-- How a trace shows what a run has come to. -/
def Running.verdict : EStateM.Result ParseError Context (Outcome α) → String
  | .ok ⟨.ok _, true, _⟩ _ => "Success()"
  | .ok ⟨.ok _, false, _⟩ _ => "Success(cut)"
  | .ok ⟨.error message, true, _⟩ _ => "Failure(" ++ message ++ ")"
  | .ok ⟨.error message, false, _⟩ _ => "Failure(" ++ message ++ ", cut)"
  | .error e _ => "Error(" ++ e.message ++ ")"

theorem TraceLine.text_closing (depth : Nat) (name : String)
    (result : EStateM.Result ParseError Context (Outcome α)) :
    (closing depth name result).text = indent depth ++ "- " ++ name ++ " " ++
      (Running.left result).position.text ++ " " ++ Running.verdict result := by
  cases result with
  | error e ctx =>
      simp only [closing, text, Running.left, Running.verdict, String.append_assoc]
      exact congrArg (fun s => indent depth ++ ("- " ++ (name ++ (" " ++ (ctx.position.text ++ s)))))
        (@String.append_assoc " " "Error(" _)
  | ok o ctx =>
      obtain ⟨_ | _, _ | _, span⟩ := o <;>
        simp [closing, text, outcomeText, Running.left, Running.verdict, Outcome.message?,
          String.append_assoc]

section

variable {g : Grammar ρ} {p : Parser ρ α} {body : Step α}

/-- A parser that is entered adds its block, whichever way it is left, and is left at the depth at which
it was entered. -/
theorem framed_adds (h : (Passage.inside g p).Holds body) {ctx entered : Context}
    (passed : ctx.passOver = .ok () entered) :
    (∀ start inside, ctx.enter p.name = .ok start inside →
      (Running.left (body inside)).depth = ctx.depth + 1) ∧
    (Running.left (Step.framed p.name body ctx)).depth = ctx.depth ∧
    ∃ inner, Inside g p (ctx.depth + 1) inner ∧
      ctx.Adds (.enter ctx.depth p.name entered.position :: inner ++
        [.closing ctx.depth p.name (Step.framed p.name body ctx)])
        (Running.left (Step.framed p.name body ctx)) := by
  have same : entered.trace = ctx.trace ∧ entered.depth = ctx.depth := by
    rcases ctx.passOver_cases with ⟨cursor, passed'⟩ | ⟨fault, cursor, failed⟩
    · cases passed.symm.trans passed'
      exact ⟨rfl, rfl⟩
    · cases passed.symm.trans failed
  let opening : TraceLine := .enter ctx.depth p.name entered.position
  let inside : Context := { entered.record opening with depth := ctx.depth + 1 }
  have enters : ctx.enter p.name = .ok entered.position inside := by
    unfold Context.enter
    rw [passed]
    simp only [same.2]
    rfl
  have opens : ctx.Adds [opening] inside := (Context.Adds.nil same.1).append (.record opening)
  obtain ⟨deep, inner, within, adds⟩ := (h inside).leads
  refine ⟨?_, ?_⟩
  · rintro start inside' enters'
    cases enters.symm.trans enters'
    exact deep
  unfold Step.framed
  rw [enters]
  simp only
  generalize body inside = result at deep adds ⊢
  cases result with
  | ok o ctx' =>
      have closes := (opens.append adds).append
        (.record (.leave ctx.depth p.name ctx'.position o.message? o.backtrack))
      replace deep : ctx'.depth = ctx.depth + 1 := deep
      simp only [Context.leave_eq deep]
      exact ⟨rfl, inner, within, closes⟩
  | error e ctx' =>
      have closes := (opens.append adds).append
        (.record (.abort ctx.depth p.name ctx'.position e))
      replace deep : ctx'.depth = ctx.depth + 1 := deep
      simp only [Context.abort_eq deep]
      exact ⟨rfl, inner, within, closes⟩

/-- A parser that cannot be entered does nothing else. -/
theorem framed_of_passOver_error (name : String) (body : Step α) {ctx failed : Context}
    {e : ParseError} (h : ctx.passOver = .error e failed) :
    Step.framed name body ctx = .error e failed := by
  unfold Step.framed Context.enter
  rw [h]

/-- An outcome covers what lies between the two lines of the parser. -/
theorem span_of_framed_eq_ok {name : String} {body : Step α} {ctx entered ctx' : Context}
    {o : Outcome α} (passed : ctx.passOver = .ok () entered)
    (ran : Step.framed name body ctx = .ok o ctx') :
    o.span = some ⟨entered.position, ctx'.position⟩ := by
  unfold Step.framed Context.enter at ran
  rw [passed] at ran
  simp only at ran
  split at ran
  · cases ran
    rfl
  · cases ran

/-- A parser that is run adds its block, or nothing if it cannot be entered. -/
theorem inside_holds_framed {q : AnyParser ρ} {body : Step q.1} (runs : q ∈ g.runs p)
    (h : (Passage.inside g q.2).Holds body) :
    (Passage.inside g p).Holds (Step.framed q.2.name body) := by
  intro ctx
  have leads : (Passage.inside g p).Leads ctx (Running.left (Step.framed q.2.name body ctx)) := by
    rcases ctx.passOver_cases with ⟨cursor, passed⟩ | ⟨fault, cursor, failed⟩
    · obtain ⟨-, depth, inner, inside, adds⟩ := framed_adds h passed
      exact ⟨depth, _, .block runs _ inside (TraceLine.closes_closing _ _ _) .nil, adds⟩
    · rw [framed_of_passOver_error _ body failed]
      exact ⟨rfl, [], .nil, .nil rfl⟩
  generalize Step.framed q.2.name body ctx = result at leads
  cases result with
  | ok o ctx' => exact .ok leads
  | error e ctx' => exact .error leads trivial

end

/-- Between the lines of a parser there is what may be there, however deeply rules are nested. -/
theorem inside_holds_body (g : Grammar ρ) (depth : Nat) (p : Parser ρ α) :
    (Passage.inside g p).Holds (p.body (g.call depth)) := by
  induction depth generalizing α with
  | zero =>
      induction p using Parser.induction_parts with
      | of_parts p ih =>
          refine Passage.holds_body p (fun q hq => inside_holds_framed (.inl hq) (ih q hq)) ?_
          intro name r rule ctx
          exact .error ((Passage.inside g p).refl ctx) trivial
  | succ depth deeper =>
      induction p using Parser.induction_parts with
      | of_parts p ih =>
          refine Passage.holds_body p (fun q hq => inside_holds_framed (.inl hq) (ih q hq)) ?_
          intro name r rule
          have defined : (⟨_, g.define r⟩ : AnyParser ρ) ∈ g.runs p := .inr ⟨name, r, rule, rfl⟩
          exact inside_holds_framed defined (deeper (g.define r))

namespace Grammar

/-- The lines of one run, in any state in which a trace is kept and at any depth. Rules may be nested to
any depth, such as the one that `parse` allows for. If the characters to pass over cannot be read, there
are no lines. Otherwise there is a block: the line of entering where the outcome begins, then lines one
deeper, which are whole blocks of parsers that are run and remarks, and the line of leaving where the
cursor is, with what the run has come to. The depth is the same as before in any case, and where the
parser is left it is one more, so that there is something to subtract from. -/
theorem run_traces (g : Grammar ρ) (p : Parser ρ α) (depth : Nat) {ctx : Context}
    {before : Array TraceLine} (traced : ctx.trace = some before) :
    match ctx.passOver with
    | .error e failed =>
      (∃ fault, e = .source fault) ∧ p.run (g.call depth) ctx = .error e failed ∧
        failed.trace = some before ∧ failed.depth = ctx.depth
    | .ok _ entered =>
      let result := p.run (g.call depth) ctx
      let opening := TraceLine.enter ctx.depth p.name entered.position
      let closing := TraceLine.closing ctx.depth p.name result
      (∃ inner, Inside g p (ctx.depth + 1) inner ∧
        (Running.left result).trace = some (before ++ (opening :: inner ++ [closing]).toArray)) ∧
      opening.text = TraceLine.indent ctx.depth ++ "+ " ++ p.name ++ " " ++ entered.position.text ∧
      closing.text = TraceLine.indent ctx.depth ++ "- " ++ p.name ++ " " ++
        (Running.left result).position.text ++ " " ++ Running.verdict result ∧
      (∀ o ctx', result = .ok o ctx' → o.span = some ⟨entered.position, ctx'.position⟩) ∧
      (Running.left result).depth = ctx.depth ∧
      ∀ start inside, ctx.enter p.name = .ok start inside →
        (Running.left (p.body (g.call depth) inside)).depth = ctx.depth + 1 := by
  rcases ctx.passOver_cases with ⟨cursor, passed⟩ | ⟨fault, cursor, failed⟩
  · have adds := framed_adds (inside_holds_body g depth p) passed
    rw [passed]
    obtain ⟨deep, left, inner, inside, adds⟩ := adds
    refine ⟨⟨inner, inside, ?_⟩, rfl, TraceLine.text_closing _ _ _, ?_, left, deep⟩
    · unfold Context.Adds at adds
      rw [traced] at adds
      exact adds
    · exact fun o ctx' ran => span_of_framed_eq_ok passed ran
  · have stuck := framed_of_passOver_error p.name (p.body (g.call depth)) failed
    rw [failed]
    exact ⟨⟨fault, rfl⟩, stuck, traced, rfl⟩

/-- A source that fails within the second of two parsers, in the middle of other lines. -/
theorem run_traces_abort :
    let broken : Fault := ⟨.other, "broken"⟩
    let source := Source.ofItems [.char '0', .fault broken]
    let ctx : Context := ⟨.ofSource source, none, some #[.note 0 "begin"], 3⟩
    let p := Parser.andThen (.exact '0') (.exact '1')
    ctx.trace = some #[.note 0 "begin"] ∧ ∃ inner ctx', Inside withoutRules p 4 inner ∧
      p.run (withoutRules.call 0) ctx = .error (.source broken) ctx' ∧ ctx'.depth = 3 ∧
      let opening := TraceLine.enter 3 "Then" ⟨1, 1, 0⟩
      let closing := TraceLine.abort 3 "Then" ⟨1, 2, 1⟩ (.source broken)
      ctx'.trace = some (#[.note 0 "begin"] ++ (opening :: inner ++ [closing]).toArray) := by
  intro broken source ctx p
  have traces := run_traces withoutRules p 0 (rfl : ctx.trace = some #[.note 0 "begin"])
  have passed : ctx.passOver = .ok () ctx := rfl
  rw [passed] at traces
  obtain ⟨⟨inner, inside, trace⟩, -⟩ := traces
  have ran : p.run (withoutRules.call 0) ctx = .error (.source broken) ⟨⟨.items ⟨[], .unknown⟩, [],
      ⟨1, 2, 1⟩, [], [], false⟩, none, (Running.left (p.run (withoutRules.call 0) ctx)).trace, 3⟩ := by
    cbv
  rw [ran] at trace
  exact ⟨rfl, inner, _, inside, ran, rfl, trace⟩

end Grammar

end TextGrammar
