import Mathlib
import TextGrammar.Proofs.Commitment.NeverCommits
import TextGrammar.Proofs.Trace.Nesting
import TextGrammar.Value.Rules

set_option autoImplicit false

/-! # Commitments are confined by choices

A commitment reaches as far as the choice around it, and an assertion lets none out. So what matters to
a parser is only what commits outside all of these, be it in the parser itself, in a rule that it refers
to or in a parser that depends on a value. The induction is on the depth to which rules may be nested,
and within it over the parts of a parser. -/

namespace TextGrammar

variable {ρ : Type → Type} {α : Type}

namespace Grammar

/-! ## What stands where -/

/-- The second parser is the first, or occurs in it: as a part, in the definition of a rule, and so on
from there. -/
def Uses (g : Grammar ρ) : AnyParser ρ → AnyParser ρ → Prop :=
  Relation.ReflTransGen fun p q => q ∈ g.runs p.2

/-- The second parser is the first, or occurs in it outside all choices and assertions. -/
def Exposes (g : Grammar ρ) : AnyParser ρ → AnyParser ρ → Prop :=
  Relation.ReflTransGen fun p q => q ∈ g.runs p.2 ∧ ¬p.2.Shelters

/-- All that commits in the parser does so in a choice or in an assertion. -/
def Confined (g : Grammar ρ) (p : Parser ρ α) : Prop :=
  ∀ q, g.Exposes ⟨α, p⟩ q → ¬q.2.Commits

/-- Nothing commits in the parser. -/
def CutFree (g : Grammar ρ) (p : Parser ρ α) : Prop :=
  ∀ q, g.Uses ⟨α, p⟩ q → ¬q.2.Commits

variable {g : Grammar ρ} {p : Parser ρ α}

theorem Confined.own (h : g.Confined p) : ¬p.Commits :=
  h ⟨α, p⟩ .refl

theorem Confined.of_mem_runs (h : g.Confined p) (bare : ¬p.Shelters) {q : AnyParser ρ}
    (hq : q ∈ g.runs p) : g.Confined q.2 :=
  fun r hr => h r (.head ⟨hq, bare⟩ hr)

theorem CutFree.of_uses (h : g.CutFree p) {q : AnyParser ρ} (hq : g.Uses ⟨α, p⟩ q) :
    g.CutFree q.2 :=
  fun r hr => h r (hq.trans hr)

theorem CutFree.confined (h : g.CutFree p) : g.Confined p :=
  fun q hq => h q (Relation.ReflTransGen.mono (fun _ _ step => step.1) _ _ hq)

theorem Confined.intro (own : ¬p.Commits) (runs : ∀ q ∈ g.runs p, g.Confined q.2) :
    g.Confined p := by
  intro q hq
  rcases Relation.ReflTransGen.cases_head hq with rfl | ⟨r, ⟨hr, -⟩, rest⟩
  · exact own
  · exact runs r hr q rest

theorem CutFree.intro (own : ¬p.Commits) (runs : ∀ q ∈ g.runs p, g.CutFree q.2) :
    g.CutFree p := by
  intro q hq
  rcases Relation.ReflTransGen.cases_head hq with rfl | ⟨r, hr, rest⟩
  · exact own
  · exact runs r hr q rest

/-- A choice and an assertion shelter whatever they run. -/
theorem confined_of_shelters (shelters : p.Shelters) : g.Confined p := by
  intro q hq
  rcases Relation.ReflTransGen.cases_head hq with rfl | ⟨_, ⟨-, bare⟩, -⟩
  · cases p with
    | choice => exact id
    | lookahead => exact id
    | not => exact id
    | _ => exact shelters.elim
  · exact absurd shelters bare

/-! ## Keyword sets -/

theorem cutFree_primitive {a : Primitive} (uncut : ∀ k, a = .keyword k → k.cut? = none) :
    g.CutFree (.primitive a) := by
  refine .intro (fun commits => ?_) (by simp [runs, Parser.parts])
  cases a with
  | keyword k => exact commits (uncut k rfl)
  | _ => exact commits

/-- The keywords of a chain commit, but each in the choice between it and those that follow. -/
theorem confined_keywordInComposed (s : KeywordSet) :
    g.Confined (Parser.keywordInComposed s) := by
  obtain ⟨first, others, word_ne, ascending⟩ := s
  have chain : g.Confined (Parser.keywordChain first others word_ne) := by
    cases others with
    | nil =>
        refine (cutFree_primitive fun k same => ?_).confined
        cases same
        rfl
    | cons next rest => exact confined_of_shelters (p := .choice ..) trivial
  exact .intro id (by simpa [runs, Parser.keywordInComposed, Parser.parts] using chain)

/-! ## Runs -/

theorem neverCommits_run (h : g.Confined p) (depth : Nat) :
    Step.NeverCommits (p.run (g.call depth)) := by
  induction depth generalizing α with
  | zero =>
      induction p using Parser.induction_parts with
      | of_parts p ih =>
          refine Step.neverCommits_framed _ (p.neverCommits_body h.own ?_ ?_)
          · exact fun bare q hq => ih q hq (h.of_mem_runs bare (.inl hq))
          · exact fun name r rule ctx => .error
  | succ depth deeper =>
      induction p using Parser.induction_parts with
      | of_parts p ih =>
          refine Step.neverCommits_framed _ (p.neverCommits_body h.own ?_ ?_)
          · exact fun bare q hq => ih q hq (h.of_mem_runs bare (.inl hq))
          · intro name r rule
            have bare : ¬p.Shelters := rule ▸ id
            exact deeper (h.of_mem_runs bare (.inr ⟨name, r, rule, rfl⟩))

theorem backtrack_of_parse (h : g.Confined p) {ctx ctx' : Context} {o : Outcome α}
    (ran : g.parse p ctx = .ok o ctx') : o.backtrack = true := by
  have gives := neverCommits_run h (g.depthBound ctx) ctx
  rw [show p.run (g.call (g.depthBound ctx)) ctx = _ from ran] at gives
  cases gives with
  | ok revocable => exact revocable

/-- A choice tries its second side after every failure of a side that commits to nothing. -/
theorem body_choice_of_failure {β γ δ : Type} {name : String} {ofLeft : β → δ} {ofRight : γ → δ}
    {left : Parser ρ β} {right : Parser ρ γ} (h : g.Confined left) {depth : Nat}
    {ctx after : Context} {first : Outcome β}
    (ran : left.run (g.call depth) (ctx.onCursor Cursor.mark) = .ok first after)
    (failed : first.isFailure = true) :
    (Parser.choice name ofLeft ofRight left right).body (g.call depth) ctx =
      ((right.run (g.call depth)).map ofRight).mapOutcome (·.allowBacktrack true)
        (after.onCursor (Cursor.reset true)) := by
  have gives := neverCommits_run h depth (ctx.onCursor Cursor.mark)
  rw [ran] at gives
  cases gives with
  | ok revocable =>
      have mapped : ((Step.framed left.name (left.body (g.call depth))).map ofLeft)
          (ctx.onCursor Cursor.mark) = .ok (first.map ofLeft) after := by
        show Step.mapOutcome _ (left.run (g.call depth)) _ = _
        unfold Step.mapOutcome
        rw [ran]
      obtain ⟨status, backtrack, span⟩ := first
      cases revocable
      cases status with
      | ok value => cases failed
      | error message => exact Step.choose_eq_second mapped Bool.false_ne_true

/-- No run of a parser comes to a committed outcome if all that commits in it does so in a choice or in
an assertion; both parsers of a keyword set are such parsers. If nothing commits at all in what a parser
uses, no parser in it comes to a committed outcome, and each choice in it goes back after every failure
of its first side and comes to what its second side comes to. -/
theorem parse_confines_commitments (g : Grammar ρ) (p : Parser ρ α) :
    (g.Confined p → ∀ ctx o ctx', g.parse p ctx = .ok o ctx' → o.backtrack = true) ∧
    (∀ s : KeywordSet, g.Confined (Parser.keywordIn s) ∧ g.Confined (Parser.keywordInComposed s)) ∧
    (g.CutFree p →
      (∀ q, g.Uses ⟨α, p⟩ q → ∀ ctx o ctx', g.parse q.2 ctx = .ok o ctx' → o.backtrack = true) ∧
      ∀ {β γ δ : Type} (name : String) (ofLeft : β → δ) (ofRight : γ → δ) (left : Parser ρ β)
        (right : Parser ρ γ), g.Uses ⟨α, p⟩ ⟨δ, .choice name ofLeft ofRight left right⟩ →
        ∀ depth ctx first after,
          left.run (g.call depth) (ctx.onCursor Cursor.mark) = .ok first after →
          first.isFailure = true →
            (Parser.choice name ofLeft ofRight left right).body (g.call depth) ctx =
              ((right.run (g.call depth)).map ofRight).mapOutcome (·.allowBacktrack true)
                (after.onCursor (Cursor.reset true))) := by
  refine ⟨fun confined _ _ _ ran => backtrack_of_parse confined ran,
    fun s => ⟨(cutFree_primitive (by simp)).confined, confined_keywordInComposed s⟩,
    fun free => ⟨?_, ?_⟩⟩
  · exact fun q hq _ _ _ ran => backtrack_of_parse (free.of_uses hq).confined ran
  · intro β γ δ name ofLeft ofRight left right uses depth ctx first after ran failed
    have operand : g.Uses ⟨α, p⟩ ⟨β, left⟩ := uses.tail (.inl (.inl rfl))
    exact body_choice_of_failure (free.of_uses operand).confined ran failed

/-- A rule that commits itself to a group at its opening parenthesis, where the inner of two groups is
not closed, and a choice of two characters of which the second is there. -/
theorem parse_confines_commitments_group :
    let r : Rule ["group"] Unit := .effect 0
    let inner : EffectParser ["group"] :=
      .andThen (.andThen (.cut (.exact '(')) (.lazy r)) (.exact ')')
    let rules : Rules := ⟨["group"], [.effect (.or inner (.exact 'x'))]⟩
    let p : EffectParser ["group"] := .andThen (.lazy r) .eof
    let q : EffectParser ["group"] := .or (.exact 'a') (.exact 'b')
    let source := Source.ofItems [.char '(', .char '(', .char 'x']
    let ctx := Context.ofCursor (.ofSource source) none false
    rules.grammar.Confined p ∧
      (∃ o ctx', rules.grammar.parse p ctx = .ok o ctx' ∧ o.isFailure = true ∧
        ctx'.position.index = 3 ∧ o.backtrack = true) ∧
      rules.grammar.CutFree q ∧ rules.grammar.Uses ⟨Unit, q⟩ ⟨Unit, q⟩ ∧
      ∃ first after, (Parser.exact 'a').run (rules.grammar.call 0) (ctx.onCursor Cursor.mark) =
          .ok first after ∧ first.isFailure = true ∧
        q.body (rules.grammar.call 0) ctx =
          (((Parser.exact 'b').run (rules.grammar.call 0)).map id).mapOutcome
            (·.allowBacktrack true) (after.onCursor (Cursor.reset true)) := by
  intro r inner rules p q source ctx
  have group : rules.grammar.Confined (Parser.lazy r) := by
    refine .intro id fun a ha => ?_
    obtain ⟨name, r', same, rfl⟩ : ∃ name r', Parser.lazy r = .rule name r' ∧
        a = ⟨Unit, rules.grammar.define r'⟩ := by simpa [runs, Parser.lazy, Parser.parts] using ha
    cases same
    exact confined_of_shelters (p := .choice ..) trivial
  have confined : rules.grammar.Confined p := by
    refine .intro id ?_
    simpa [runs, p, Parser.andThen, Parser.parts] using
      ⟨group, (cutFree_primitive (a := .eof) (by simp)).confined⟩
  have character (c : Char) : rules.grammar.CutFree (Parser.exact c) := cutFree_primitive (by simp)
  have free : rules.grammar.CutFree q := by
    refine .intro id ?_
    simpa [runs, q, Parser.or, Parser.parts] using ⟨character 'a', character 'b'⟩
  obtain ⟨o, ctx', parsed, failed, stopped⟩ : ∃ o ctx', rules.grammar.parse p ctx = .ok o ctx' ∧
      o.isFailure = true ∧ ctx'.position.index = 3 := ⟨_, _, by cbv, by cbv, by cbv⟩
  obtain ⟨first, after, ran, missed⟩ : ∃ first after,
      (Parser.exact 'a').run (rules.grammar.call 0) (ctx.onCursor Cursor.mark) = .ok first after ∧
        first.isFailure = true := ⟨_, _, by cbv, by cbv⟩
  have committed := parse_confines_commitments rules.grammar p
  have chosen := (parse_confines_commitments rules.grammar q).2.2 free
  exact ⟨confined, ⟨o, ctx', parsed, failed, stopped, committed.1 confined ctx o ctx' parsed⟩, free,
    .refl, first, after, ran, missed,
    chosen.2 "Or" id id (.exact 'a') (.exact 'b') .refl 0 ctx first after ran missed⟩

end Grammar

end TextGrammar
