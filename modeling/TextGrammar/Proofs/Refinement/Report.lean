import TextGrammar.Proofs.Refinement.Frame
import TextGrammar.Proofs.Run.Report

set_option autoImplicit false

/-! # What is reported is what the parser means

A run over a source without faults reports the outcome or the error that its parser means, with the
position of the number at which the parser ends. So what is reported depends on where in the text the run
begins and on what is passed over, and on nothing else that the state of the run holds. -/

namespace TextGrammar

variable {ρ : Type → Type} {α β : Type}

/-- What a run that comes to this meaning reports. -/
def Meaning.report (p : Meaning α) (w : Setting) (n : Nat) : Report α :=
  match p w n with
  | .ok (o, m) => .ok (o, .ofIndex w.text m)
  | .error (e, m) => .error (e, .ofIndex w.text m)

theorem Meaning.report_eq_ok {p : Meaning α} {w : Setting} {n m : Nat} {o : Outcome α}
    (h : p w n = .ok (o, m)) : p.report w n = .ok (o, .ofIndex w.text m) := by
  unfold report
  rw [h]

theorem Meaning.report_eq_error {p : Meaning α} {w : Setting} {n : Nat} {e : ErrorAt}
    (h : p w n = .error e) : p.report w n = .error (e.1, .ofIndex w.text e.2) := by
  unfold report
  rw [h]

/-- The same reports, but for the place at which a run that would not end is given up. -/
inductive Report.Matches : Report α → Report α → Prop where
  | same (r : Report α) : Matches r r
  | endless (stop stop' : Position) :
      Matches (.error (.endlessRecursion, stop)) (.error (.endlessRecursion, stop'))

namespace Grammar

variable (g : Grammar ρ) (p : Parser ρ α)

/-- A run reports what its parser means at the number that the cursor has read. -/
theorem report_eq_meaning {ctx : Context} {r : Reader} (h : ctx.cursor.Follows r []) :
    g.report p ctx = (g.meaning p).report ⟨r.text, ctx.skip⟩ r.index := by
  have agrees := g.parse_agrees p h
  unfold report Meaning.report
  generalize g.parse p ctx = result at agrees ⊢
  generalize g.meaning p ⟨r.text, ctx.skip⟩ r.index = expected at agrees ⊢
  cases agrees with
  | @ok o after m ahead here => exact congrArg (fun stop => Except.ok (o, stop)) here.position
  | @error e after m kept ahead more here =>
      exact congrArg (fun stop => Except.error (e, stop)) here.position
  | fault ahead more interrupted =>
      exact absurd interrupted Tracking.not_interrupted_following_nil

/-- The same where the cursor has come to by operations and runs over a source without faults. -/
theorem report_of_reachable {source : Source} (faultless : source.faults = []) {ctx : Context}
    (reached : ctx.cursor.Reachable source) :
    g.report p ctx = (g.meaning p).report ⟨source.chars, ctx.skip⟩ ctx.position.index := by
  obtain ⟨saved, follows⟩ := reached.follows faultless
  exact g.report_eq_meaning p follows

/-- More depth of nesting than a run allows for changes nothing in what it reports. Only a run that would
not end may be given up elsewhere. -/
theorem report_meaning {w : Setting} {n depth : Nat} (within : n ≤ w.text.length)
    (deep : g.all.length * (w.left n + 1) + 1 ≤ depth) :
    ((p.meaning (g.callMeaning depth)).report w n).Matches ((g.meaning p).report w n) := by
  obtain ⟨more, rfl⟩ := Nat.exists_eq_add_of_le deep
  have upheld := Meaning.upheld_meaning
    (fun r => g.upheld_callMeaning (g.all.length * (w.left n + 1) + 1) more r) p
    (Nat.zero_le n) within
  by_cases ends : Ends (p.meaning (g.callMeaning (g.all.length * (w.left n + 1) + 1 + more)) w n)
  · unfold Meaning.report
    rw [g.meaning_eq_of_ends p _ within ends]
    exact .same _
  · -- what ends with the depth of a run ends with more of it
    have endless : ¬Ends (g.meaning p w n) := fun ends' => ends (upheld.eq ends' ▸ ends')
    obtain ⟨m, gave_up⟩ := Meaning.not_ends_iff.mp ends
    obtain ⟨k, gave_up'⟩ := Meaning.not_ends_iff.mp endless
    rw [Meaning.report_eq_error gave_up, Meaning.report_eq_error gave_up']
    exact .endless _ _

end Grammar

end TextGrammar
