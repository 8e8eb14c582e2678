import TextGrammar.Parser.Forms
import TextGrammar.Proofs.Run.Passage
import TextGrammar.Proofs.Termination.Loops

set_option autoImplicit false

/-! # A parser without rules returns

Without rules, a parser is only as deep as it is written, and what is left to show is that its loops
end. They do, because no parser comes to an outcome behind the place where it began. -/

namespace TextGrammar

variable {ρ : Type → Type} {α : Type}

namespace Parser

variable (p : Parser ρ α) (g : Grammar ρ) (depth : Nat) (source : Source)

/-! ## Going onward -/

/-- Over a source, no parser comes to an outcome behind the place where it began, and none leaves other
marks than it has found. -/
theorem over_run {ctx ctx' : Context} {o : Outcome α} (begins : ctx.cursor.Over source)
    (ran : p.run (g.call depth) ctx = .ok o ctx') :
    ctx'.cursor.Over source ∧ ctx'.cursor.marks = ctx.cursor.marks ∧
      ctx.position.index ≤ ctx'.position.index := by
  obtain ⟨n, saved, here⟩ := begins
  have agrees := Tracking.simulates_run (fun r => Tracking.simulates_call g depth r) p ⟨here, rfl⟩
  rw [ran] at agrees
  generalize p.meaning _ _ n = expected at agrees
  cases agrees with
  | @ok _ _ m ahead there =>
      have index : ctx.position.index = n := Cursor.index_of_at here
      have index' : ctx'.position.index = m := Cursor.index_of_at there.cursor
      obtain ⟨_, _, follows⟩ := here
      obtain ⟨_, _, follows'⟩ := there.cursor
      exact ⟨⟨m, saved, there.cursor⟩, follows'.marks.trans follows.marks.symm,
        by rw [index, index']; exact ahead⟩

theorem onward_run : Running.Onward source (p.run (g.call depth)) := by
  intro ctx o ctx' begins ran
  obtain ⟨there, -, onward⟩ := p.over_run g depth source begins ran
  exact ⟨there, onward⟩

theorem keepsMarks_run : Running.KeepsMarks source (p.run (g.call depth)) := by
  intro ctx o ctx' begins ran
  obtain ⟨there, marks, -⟩ := p.over_run g depth source begins ran
  exact ⟨there, marks ▸ List.suffix_refl _⟩

/-! ## Loops -/

/-- If a parser is a loop that nothing bounds, it ends from wherever the cursor can be over a source. The
rules may be nested `depth` deep. -/
def LoopEnds (source : Source) (g : Grammar ρ) (depth : Nat) : Parser ρ α → Prop
  | .skipTo target => Step.SearchEnds source (target.run (g.call depth))
  | .iterate _ bounds fold item =>
    bounds.max = Repeat.unbounded →
      Step.RepetitionEnds source none (item.run (g.call depth)) fold.add bounds fold.start
  | .iterateSeparated _ bounds fold separator item =>
    bounds.max = Repeat.unbounded →
      Step.RepetitionEnds source (some (separator.run (g.call depth))) (item.run (g.call depth))
        fold.add bounds fold.start
  | _ => True

/-- All loops in a parser end, whatever values come up on the way. -/
inductive LoopsEnd (source : Source) (g : Grammar ρ) (depth : Nat) :
    {α : Type} → Parser ρ α → Prop where
  | intro {α : Type} {p : Parser ρ α} (own : p.LoopEnds source g depth)
      (parts : ∀ q ∈ p.parts, LoopsEnd source g depth q.2) : LoopsEnd source g depth p

theorem loopEnds : p.LoopEnds source g depth := by
  cases p with
  | skipTo target => exact Step.search_ends (target.keepsMarks_run g depth source)
  | iterate name bounds fold item =>
      intro unbounded
      exact Step.repetition_ends unbounded (by simp) (item.onward_run g depth source) fold.start
  | iterateSeparated name bounds fold separator item =>
      intro unbounded
      have separators : ∀ s ∈ some (separator.run (g.call depth)), Running.Onward source s := by
        rintro _ ⟨⟩
        exact separator.onward_run g depth source
      exact Step.repetition_ends unbounded separators (item.onward_run g depth source) fold.start
  | _ => trivial

theorem loopsEnd : p.LoopsEnd source g depth :=
  induction_parts (fun p parts => .intro (p.loopEnds g depth source) parts) p

end Parser

/-! ## Not being given up -/

/-- A run may do whatever it likes, except be given up as endless. -/
def Passage.finite : Passage where
  Leads _ _ := True
  Raises e := e ≠ .endlessRecursion
  refl _ := trivial
  trans _ _ := trivial
  onCursor _ _ := trivial
  log _ _ := trivial
  source _ := by simp
  mapping _ := by simp

theorem Passage.finite_holds_framed {name : String} {body : Step α} (h : finite.Holds body) :
    finite.Holds (Step.framed name body) := by
  intro ctx
  have passed := finite.holds_passOver ctx
  unfold Step.framed Context.enter
  generalize ctx.passOver = result at passed ⊢
  cases passed with
  | error _ raises => exact .error trivial raises
  | @ok _ entered _ =>
      have ran := h { entered.record (.enter entered.depth name entered.position) with
        depth := entered.depth + 1 }
      simp only
      generalize body _ = result at ran ⊢
      cases ran with
      | error _ raises => exact .error trivial raises
      | ok _ => exact .ok trivial

/-- The parser is no rule and runs none, whatever values come up on the way. -/
inductive Parser.RuleFree : {α : Type} → Parser ρ α → Prop where
  | intro {α : Type} {p : Parser ρ α} (noRule : ∀ name r, p ≠ .rule name r)
      (parts : ∀ q ∈ p.parts, RuleFree q.2) : RuleFree p

/-- Where there are no rules, none is run. -/
theorem Parser.RuleFree.of_withoutRules (p : Parser (fun _ => Empty) α) : p.RuleFree :=
  induction_parts (fun _ parts => .intro (fun _ r => r.elim) parts) p

theorem Parser.RuleFree.finite_holds_run {p : Parser ρ α} (h : p.RuleFree)
    (call : {β : Type} → ρ β → Step β) : Passage.finite.Holds (p.run call) := by
  induction h with
  | @intro _ p noRule _ ih =>
      exact Passage.finite_holds_framed
        (Passage.holds_body p ih fun name r rule => absurd rule (noRule name r))

namespace Grammar

/-- Over a source, whether or not it has faults, and whatever is passed over, all loops in a parser come
to their ends, and if it has no rules in it, its run is not given up as endless. A repetition without an
upper bound runs its item, and a search its target, no more often than there are characters left, and
once more, behind the rounds that are required; this is so for all that goes on without going back, be it
a parser or not. -/
theorem parse_returns (source : Source) :
    (∀ {ρ : Type → Type} (g : Grammar ρ) {α : Type} (p : Parser ρ α),
      (∀ depth, p.LoopsEnd source g depth) ∧
        (p.RuleFree → ∀ ctx ctx', g.parse p ctx ≠ .error .endlessRecursion ctx')) ∧
    (∀ {α β : Type} (bounds : Repeat) (separator : Option (Step Unit)) (item : Step α)
      (add : β → α → β) (start : β), bounds.max = Repeat.unbounded →
      (∀ s ∈ separator, Running.Onward source s) → Running.Onward source item →
        Step.RepetitionEnds source separator item add bounds start) ∧
    (∀ {α : Type} (target : Step α), Running.KeepsMarks source target →
      Step.SearchEnds source target) := by
  refine ⟨fun g _ p => ⟨fun depth => p.loopsEnd g depth source, fun free ctx ctx' ran => ?_⟩,
    fun _ _ _ _ start unbounded hseparator hitem =>
      Step.repetition_ends unbounded hseparator hitem start,
    fun _ htarget => Step.search_ends htarget⟩
  have finite := free.finite_holds_run (g.call (g.depthBound ctx)) ctx
  rw [show p.run (g.call (g.depthBound ctx)) ctx = _ from ran] at finite
  cases finite with
  | error _ raises => exact raises rfl

/-- A repetition of a match that may be empty, and a search for what is not there, both over two
characters. -/
theorem parse_returns_after_empty_match :
    let source := Source.ofText "xx"
    let ctx := Context.ofCursor (.ofSource source) none false
    let item : Parser (fun _ => Empty) Unit := .optional (.exact 'x')
    let target : Parser (fun _ => Empty) Unit := .exact 'y'
    let p := Parser.andThen (.rep .any none item) (.skipTo target)
    let itemStep := item.run (withoutRules.call 0)
    let targetStep := target.run (withoutRules.call 0)
    p.RuleFree ∧ p.LoopsEnd source withoutRules 0 ∧
      (∀ ctx', withoutRules.parse p ctx ≠ .error .endlessRecursion ctx') ∧
      ctx.cursor.Over source ∧ Repeat.any.max = Repeat.unbounded ∧ Running.Onward source itemStep ∧
      (∃ runs ≤ 3, Step.Drives none itemStep (fun _ _ => ()) 0 Repeat.any.room (.start ()) ctx runs
        (Step.repeated .any none itemStep (fun _ _ => ()) () ctx)) ∧
      Running.KeepsMarks source targetStep ∧
      ∃ tries ≤ 3, Step.Searches targetStep ctx tries (Step.skipTo targetStep ctx) := by
  intro source ctx item target p itemStep targetStep
  obtain ⟨parsers, repetitions, searches⟩ := parse_returns source
  have free : p.RuleFree := .of_withoutRules p
  have begins : ctx.cursor.Over source := .of_reachable .start
  have onward : Running.Onward source itemStep := item.onward_run withoutRules 0 source
  have keeps : Running.KeepsMarks source targetStep := target.keepsMarks_run withoutRules 0 source
  obtain ⟨runs, drives, few⟩ :=
    repetitions .any none itemStep (fun _ _ => ()) () rfl (by simp) onward ctx begins
  exact ⟨free, (parsers withoutRules p).1 0, (parsers withoutRules p).2 free ctx, begins, rfl, onward,
    ⟨runs, few, drives⟩, keeps, searches targetStep keeps ctx begins⟩

end Grammar

end TextGrammar
