import Mathlib.Data.List.Permutation
import TextGrammar.Proofs.Finality.Faultless
import TextGrammar.Proofs.Finality.GoingOn
import TextGrammar.Proofs.Refinement.Parse

set_option autoImplicit false

/-! # Faults are reported, and what is decided stays decided

A run over a source that fails either reports the fault or comes to its end without having seen it. In
the second case it comes to the same over every text that begins with the characters before the fault.
No choice, repetition or search makes a fault into an outcome, and none decides on a character that it
has not been given. -/

namespace TextGrammar

/-- At its beginning, a source that fails is where every text begins that goes on in its place. -/
theorem Tracking.untilFault_ofSource {source : Source} {text : List Char} {fault : Fault}
    {later : List Item} (fails : source.undelivered = text.map .char ++ .fault fault :: later)
    (next : List Char) : (untilFault text next fault later).At (.ofSource source) 0 [] := by
  have follows : (Cursor.ofSource (.ofItems ((text ++ next).map .char))).Follows
      ⟨text ++ next, 0, []⟩ [] :=
    Cursor.Follows.ofFaultless (Item.filterMap_char?_map _) (Item.filterMap_fault?_map _)
  exact ⟨_, ⟨_, rfl, text, fails, rfl⟩, follows⟩

namespace Grammar

variable {ρ : Type → Type} (g : Grammar ρ) {α : Type} (p : Parser ρ α) {source : Source}
  {text : List Char} {fault : Fault} {later : List Item} (skip : Option CharClass)

theorem run_agrees (fails : source.undelivered = text.map .char ++ .fault fault :: later)
    (traced : Bool) (depth : Nat) (next : List Char) :
    (Tracking.untilFault text next fault later).Agrees skip 0 []
      (p.run (g.call depth) (.ofCursor (.ofSource source) skip traced))
      (p.meaning (g.callMeaning depth) ⟨text ++ next, skip⟩ 0) :=
  Tracking.simulates_run (fun r => Tracking.simulates_call g depth r) p
    ⟨Tracking.untilFault_ofSource fails next, rfl⟩

/-- A run over a source that delivers `text` and then reports `fault`, with any items behind it. Rules
may be nested to any depth, such as the one that `parse` allows for. If the run comes to an outcome, or
to a refused conversion, then so does the run over every source without faults whose characters begin
with `text`, and at the same position. Otherwise it reports `fault`, unless it was given up for its
depth. -/
theorem parse_final (fails : source.undelivered = text.map .char ++ .fault fault :: later)
    (traced : Bool) (depth : Nat) :
    match p.run (g.call depth) (.ofCursor (.ofSource source) skip traced) with
    | .ok o ctx =>
      ∀ (other : Source) (next : List Char), other.chars = text ++ next → other.faults = [] →
        ∀ traced', ∃ ctx', g.parse p (.ofCursor (.ofSource other) skip traced') = .ok o ctx' ∧
          ctx'.position = ctx.position
    | .error (.mapping message) ctx =>
      ∀ (other : Source) (next : List Char), other.chars = text ++ next → other.faults = [] →
        ∀ traced', ∃ ctx', g.parse p (.ofCursor (.ofSource other) skip traced') =
            .error (.mapping message) ctx' ∧ ctx'.position = ctx.position
    | .error (.source f) _ => f = fault
    | .error .endlessRecursion _ => True := by
  have agrees := g.run_agrees p skip fails traced depth
  have faultless := g.neverFaults_meaning p depth
  have whole (next : List Char) (ends : Ends (p.meaning (g.callMeaning depth) ⟨text ++ next, skip⟩ 0)) :=
    g.meaning_eq_of_ends p depth (Nat.zero_le _) ends
  generalize p.run (g.call depth) (.ofCursor (.ofSource source) skip traced) = result at agrees ⊢
  cases result with
  | ok o ctx =>
      intro other next delivers none_left traced'
      have agrees := agrees next
      have whole := whole next
      generalize p.meaning (g.callMeaning depth) ⟨text ++ next, skip⟩ 0 = expected at agrees whole
      cases agrees with
      | ok ahead here =>
          obtain ⟨ctx', parsed, there⟩ :=
            parse_ofSource_eq_ok delivers none_left skip traced' (whole (by simp [Ends]))
          exact ⟨ctx', parsed, there.position.trans here.position.symm⟩
  | error e ctx =>
      cases e with
      | endlessRecursion => trivial
      | source f =>
          -- no text means a fault, so this one is the source's own, however the text goes on
          have means := faultless ⟨text ++ [], skip⟩ 0
          have agrees := agrees []
          generalize p.meaning (g.callMeaning depth) ⟨text ++ [], skip⟩ 0 = expected at agrees means
          cases agrees with
          | fault ahead more interrupted => exact interrupted
          | error ahead more here => cases means
      | mapping message =>
          intro other next delivers none_left traced'
          have agrees := agrees next
          have whole := whole next
          generalize p.meaning (g.callMeaning depth) ⟨text ++ next, skip⟩ 0 = expected at agrees whole
          cases agrees with
          | error ahead more here =>
              obtain ⟨ctx', made, parsed, there⟩ :=
                parse_ofSource_eq_error delivers none_left skip traced' (whole (by simp [Ends]))
              exact ⟨ctx', parsed, there.position.trans here.position.symm⟩

/-- A search in a source that fails right behind what is found. What stands in place of the fault makes
no difference. -/
theorem parse_final_search :
    let broken : Fault := ⟨.other, "broken"⟩
    let source := Source.ofItems [.char '-', .char 'a', .fault broken, .char 'b']
    let p := Parser.skipTo (.exact 'a')
    source.undelivered = ['-', 'a'].map .char ++ .fault broken :: [.char 'b'] ∧
      ∃ o ctx ctx', p.run (withoutRules.call 1) (.ofCursor (.ofSource source) none false) = .ok o ctx ∧
        withoutRules.parse p (.ofCursor (.ofText "-abc") none true) = .ok o ctx' ∧
        ctx'.position = ctx.position ∧ ctx.position.index = 2 := by
  intro broken source p
  have ran : p.run (withoutRules.call 1) (.ofCursor (.ofSource source) none false) =
      .ok ⟨.ok (), true, some ⟨⟨1, 1, 0⟩, ⟨1, 3, 2⟩⟩⟩
        ⟨⟨.items ⟨[.fault broken, .char 'b'], .unknown⟩, [], ⟨1, 3, 2⟩, [], [], false⟩,
          none, none, 0⟩ := by
    cbv
  have fails : source.undelivered = ['-', 'a'].map .char ++ .fault broken :: [.char 'b'] :=
    Source.undelivered_ofItems _
  have final := parse_final withoutRules p none fails false 1
  rw [ran] at final
  obtain ⟨ctx', parsed, same⟩ := final (.ofText "-abc") ['b', 'c'] (by simp) rfl true
  exact ⟨fails, _, _, ctx', ran, parsed, same, rfl⟩

end Grammar

end TextGrammar
