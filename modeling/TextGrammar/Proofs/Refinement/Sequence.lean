import TextGrammar.Proofs.Refinement.Basic

set_option autoImplicit false

/-! # One after another

Where a step runs after another, its meaning begins at the number at which the meaning of the other
ended. A capture runs under a mark, and the text since that mark is the one between the two
numbers. -/

namespace TextGrammar.Tracking

variable {text : List Char} {t : Tracking text} {skip : Option CharClass} {α β γ : Type}

theorem simulates_mapOutcome {p : Step α} {meaning : Meaning α} (f : Outcome α → Outcome β)
    (h : t.Simulates skip p meaning) :
    t.Simulates skip (p.mapOutcome f) (meaning.mapOutcome f) := by
  intro ctx n saved stands
  have ran := h stands
  unfold Step.mapOutcome Meaning.mapOutcome
  generalize p ctx = result at ran ⊢
  generalize meaning ⟨text, skip⟩ n = expected at ran ⊢
  cases ran with
  | ok ahead here => exact .ok ahead here
  | error ahead more here => exact .error ahead more here
  | fault ahead more interrupted => exact .fault ahead more interrupted

theorem simulates_map {p : Step α} {meaning : Meaning α} (f : α → β)
    (h : t.Simulates skip p meaning) : t.Simulates skip (p.map f) (meaning.map f) :=
  simulates_mapOutcome (Outcome.map f) h

theorem simulates_tryMap {p : Step α} {meaning : Meaning α} (f : α → Except String β)
    (h : t.Simulates skip p meaning) : t.Simulates skip (p.tryMap f) (meaning.tryMap f) :=
  simulates_mapOutcome _ h

theorem simulates_flatMap {p : Step α} {meaning : Meaning α} {next : α → Step β}
    {nextMeaning : α → Meaning β} (h : t.Simulates skip p meaning)
    (hnext : ∀ a, t.Simulates skip (next a) (nextMeaning a)) :
    t.Simulates skip (p.flatMap next) (meaning.flatMap nextMeaning) := by
  intro ctx n saved stands
  have ran := h stands
  unfold Step.flatMap Meaning.flatMap
  generalize p ctx = result at ran ⊢
  generalize meaning ⟨text, skip⟩ n = expected at ran ⊢
  cases ran with
  | fault ahead more interrupted => exact .fault ahead more interrupted
  | error ahead more here => exact .error ahead more here
  | @ok first after m ahead here =>
      obtain ⟨status, backtrack, span⟩ := first
      cases status with
      | error message => exact .ok ahead here
      | ok value =>
          have second := (hnext value here).since ahead
          show t.Agrees skip n saved _ (nextMeaning value ⟨text, skip⟩ m >>= _)
          simp only
          generalize next value after = result at second ⊢
          generalize nextMeaning value ⟨text, skip⟩ m = expected at second ⊢
          cases second with
          | fault later more interrupted => exact .fault later more interrupted
          | error later more there => exact .error later more there
          | ok later there => exact .ok later there

theorem simulates_seq {p : Step α} {q : Step β} {pMeaning : Meaning α} {qMeaning : Meaning β}
    (combine : α → β → γ) (hp : t.Simulates skip p pMeaning) (hq : t.Simulates skip q qMeaning) :
    t.Simulates skip (p.seq combine q) (pMeaning.seq combine qMeaning) :=
  simulates_flatMap hp fun a => simulates_map (combine a) hq

theorem simulates_tryMapRaising {p : Step α} {meaning : Meaning α} (f : α → Except String β)
    (h : t.Simulates skip p meaning) :
    t.Simulates skip (p.tryMapRaising f) (meaning.tryMapRaising f) := by
  intro ctx n saved stands
  have ran := h stands
  unfold Step.tryMapRaising Meaning.tryMapRaising
  generalize p ctx = result at ran ⊢
  generalize meaning ⟨text, skip⟩ n = expected at ran ⊢
  cases ran with
  | fault ahead more interrupted => exact .fault ahead more interrupted
  | error ahead more here => exact .error ahead more here
  | @ok o after m ahead here =>
      obtain ⟨status, backtrack, span⟩ := o
      cases status with
      | error message => exact .ok ahead here
      | ok value =>
          rcases refused : f value with message | mapped
          · simp only [bind, Except.bind, refused]
            exact .error ahead (List.suffix_refl saved) here
          · simp only [bind, Except.bind, refused]
            exact .ok ahead here

theorem simulates_capture {p : Step Unit} {meaning : Meaning Unit}
    (h : t.Simulates skip p meaning) : t.Simulates skip p.capture meaning.capture := by
  intro ctx n saved stands
  have ran := h stands.mark
  unfold Step.capture Meaning.capture
  generalize p (ctx.onCursor Cursor.mark) = result at ran ⊢
  generalize meaning ⟨text, skip⟩ n = expected at ran ⊢
  cases ran with
  | fault ahead more interrupted =>
      exact .fault ahead ((List.suffix_cons n saved).trans more) interrupted
  | error ahead more here => exact .error ahead ((List.suffix_cons n saved).trans more) here
  | @ok o after m ahead here =>
      -- the mark is there, so the capture never falls back to the empty text
      show t.Agrees skip n saved (.ok (o.attach (after.cursor.captured.getD "")) _) _
      rw [t.captured here.cursor, Option.getD_some]
      exact .ok ahead here.unmark

end TextGrammar.Tracking
