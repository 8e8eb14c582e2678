import TextGrammar.Parser.Forms
import TextGrammar.Proofs.Cursor.Session
import TextGrammar.Proofs.Depth.Bound
import TextGrammar.Proofs.Refinement.Grammar

set_option autoImplicit false

/-! # Running a parser is what it means

Over a source without faults, a run from any state in which the cursor follows a reader comes to what
the parser means at the number of the reader, and leaves the cursor following the reader there. All
states that the operations on a cursor lead to are such states, and so are those in which a run leaves
the cursor. -/

namespace TextGrammar

namespace Grammar

variable {ρ : Type → Type} (g : Grammar ρ) {α : Type} (p : Parser ρ α) {ctx : Context} {r : Reader}

theorem parse_agrees (h : ctx.cursor.Follows r []) :
    (Tracking.following r.text []).Agrees ctx.skip r.index r.saved (g.parse p ctx)
      (g.meaning p ⟨r.text, ctx.skip⟩ r.index) :=
  Tracking.simulates_parse g p rfl (Tracking.stands_of_follows h)

variable {g p}

/-- A run comes to the outcome that the parser means. -/
theorem parse_eq_ok (h : ctx.cursor.Follows r []) {o : Outcome α} {m : Nat}
    (means : g.meaning p ⟨r.text, ctx.skip⟩ r.index = .ok (o, m)) :
    ∃ ctx', g.parse p ctx = .ok o ctx' ∧ ctx'.cursor.Follows { r with index := m } [] ∧
      ctx'.skip = ctx.skip := by
  have agrees := g.parse_agrees p h
  rw [means] at agrees
  generalize g.parse p ctx = result at agrees ⊢
  cases agrees with
  | ok ahead here => exact ⟨_, rfl, Tracking.at_following_nil.mp here.cursor, here.skip⟩
  | fault ahead more interrupted =>
      exact absurd interrupted Tracking.not_interrupted_following_nil

/-- A run ends with the error that the parser means; marks that it made may be left. -/
theorem parse_eq_error (h : ctx.cursor.Follows r []) {e : ParseError} {m : Nat}
    (means : g.meaning p ⟨r.text, ctx.skip⟩ r.index = .error (e, m)) :
    ∃ ctx' made, g.parse p ctx = .error e ctx' ∧
      ctx'.cursor.Follows ⟨r.text, m, made ++ r.saved⟩ [] := by
  have agrees := g.parse_agrees p h
  rw [means] at agrees
  generalize g.parse p ctx = result at agrees ⊢
  cases agrees with
  | error ahead more here =>
      obtain ⟨made, rfl⟩ := more
      exact ⟨_, made, rfl, Tracking.at_following_nil.mp here.cursor⟩
  | fault ahead more interrupted =>
      exact absurd interrupted Tracking.not_interrupted_following_nil

section

variable {source : Source} {text : List Char} (delivers : source.chars = text)
  (faultless : source.faults = []) (skip : Option CharClass) (traced : Bool)
include delivers faultless

/-- From the beginning of a source without faults, a run comes to what the parser means at the
beginning of the text. -/
theorem parse_ofSource_eq_ok {o : Outcome α} {m : Nat}
    (means : g.meaning p ⟨text, skip⟩ 0 = .ok (o, m)) :
    ∃ ctx', g.parse p (.ofCursor (.ofSource source) skip traced) = .ok o ctx' ∧
      ctx'.cursor.Follows ⟨text, m, []⟩ [] := by
  have follows : (Context.ofCursor (.ofSource source) skip traced).cursor.Follows ⟨text, 0, []⟩ [] :=
    .ofFaultless delivers faultless
  obtain ⟨ctx', parsed, there, -⟩ := parse_eq_ok follows means
  exact ⟨ctx', parsed, there⟩

theorem parse_ofSource_eq_error {e : ParseError} {m : Nat}
    (means : g.meaning p ⟨text, skip⟩ 0 = .error (e, m)) :
    ∃ ctx' made, g.parse p (.ofCursor (.ofSource source) skip traced) = .error e ctx' ∧
      ctx'.cursor.Follows ⟨text, m, made⟩ [] := by
  have follows : (Context.ofCursor (.ofSource source) skip traced).cursor.Follows ⟨text, 0, []⟩ [] :=
    .ofFaultless delivers faultless
  obtain ⟨ctx', made, parsed, there⟩ := parse_eq_error follows means
  rw [List.append_nil] at there
  exact ⟨ctx', made, parsed, there⟩

end

/-- A run comes to an outcome with the depths of nesting with which the parser means one. -/
theorem run_ok_iff (g : Grammar ρ) (p : Parser ρ α) (depth : Nat) (h : ctx.cursor.Follows r []) :
    (∃ o ctx', p.run (g.call depth) ctx = .ok o ctx') ↔
      ∃ o m, p.meaning (g.callMeaning depth) ⟨r.text, ctx.skip⟩ r.index = .ok (o, m) := by
  have agrees := Tracking.simulates_run (fun r => Tracking.simulates_call g depth r) p
    (Tracking.stands_of_follows h)
  generalize p.run (g.call depth) ctx = result at agrees ⊢
  generalize p.meaning (g.callMeaning depth) ⟨r.text, ctx.skip⟩ r.index = expected at agrees ⊢
  cases agrees with
  | ok ahead here => exact ⟨fun _ => ⟨_, _, rfl⟩, fun _ => ⟨_, _, rfl⟩⟩
  | error ahead more here => simp
  | fault ahead more interrupted =>
      exact absurd interrupted Tracking.not_interrupted_following_nil

/-- A run with a cursor comes to what the parser means at the number that the cursor has read: the same
outcome or the same error, at the same number. It does not matter what the marks are, how the rest of
the text is divided, or whether a trace is kept. And whatever a parser means with some depth of
nesting, it means over the grammar, so that only what never ends is given up. -/
theorem parse_refines_meaning (h : ctx.cursor.Follows r []) :
    (match g.meaning p ⟨r.text, ctx.skip⟩ r.index with
      | .ok (o, m) => ∃ ctx', g.parse p ctx = .ok o ctx' ∧
          ctx'.cursor.Follows { r with index := m } []
      | .error (e, m) => ∃ ctx' made, g.parse p ctx = .error e ctx' ∧
          ctx'.cursor.Follows ⟨r.text, m, made ++ r.saved⟩ []) ∧
      ∀ depth, Ends (p.meaning (g.callMeaning depth) ⟨r.text, ctx.skip⟩ r.index) →
        g.meaning p ⟨r.text, ctx.skip⟩ r.index =
          p.meaning (g.callMeaning depth) ⟨r.text, ctx.skip⟩ r.index := by
  refine ⟨?_, fun depth ends => g.meaning_eq_of_ends p depth h.ordered.within ends⟩
  rcases means : g.meaning p ⟨r.text, ctx.skip⟩ r.index with ⟨e, m⟩ | ⟨o, m⟩
  · exact parse_eq_error h means
  · obtain ⟨ctx', parsed, follows, -⟩ := parse_eq_ok h means
    exact ⟨ctx', parsed, follows⟩

/-- The grammar without rules. -/
def withoutRules : Grammar fun _ => Empty where
  define r := nomatch r
  all := []
  mem_all r := nomatch r

/-- A choice whose first alternative is taken back, with a mark open and characters handed back before
it begins. -/
theorem parse_behind_a_mark :
    let source := Source.ofItems [.char 'x', .char 'a', .char 'b', .char '!']
    let cur := ((Cursor.ofSource source).performAll [.read, .mark, .read, .read, .reset false]).2
    let r : Reader := ⟨['x', 'a', 'b', '!'], 1, [1]⟩
    let p := Parser.capture (.or (.andThen (.exact 'a') (.exact '!'))
      (.andThen (.exact 'a') (.exact 'b')))
    cur.Follows r [] ∧ ∃ ctx', withoutRules.parse p (.ofCursor cur none true) =
        .ok ⟨.ok (String.ofList ['a', 'b']), true, some ⟨⟨1, 2, 1⟩, ⟨1, 4, 3⟩⟩⟩ ctx' ∧
      ctx'.cursor.Follows { r with index := 3 } [] := by
  intro source cur r p
  have follows : cur.Follows r [] :=
    (Cursor.performAll_follows (Cursor.Follows.ofSource source) _).2
  have refined := @parse_refines_meaning _ withoutRules _ p (.ofCursor cur none true) r follows
  exact ⟨follows, refined.1⟩

end Grammar

end TextGrammar
