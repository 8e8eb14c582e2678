import TextGrammar.Proofs.Commitment.Conclusion
import TextGrammar.Proofs.Commitment.Confined

set_option autoImplicit false

/-! # Committed choice

A first parser that commits itself, a second one behind it, and an alternative: this is how a grammar
says *if* the first *then* the second, *else* the alternative. What the first comes to decides, and
nothing that the second comes to brings the alternative back. -/

namespace TextGrammar

variable {ρ : Type → Type} {α : Type}

namespace Parser

open Meaning

variable {call : {β : Type} → ρ β → Meaning β} {a b c : Parser ρ Unit} {w : Setting} {n m : Nat}
  {message : String} {backtrack : Bool} {e : ErrorAt}

/-! ## If the first succeeds -/

theorem not_failsSoftly_committed (h : (a.meaning call).ComesTo w n (.ok ()) backtrack m) :
    ¬((Parser.andThen (.cut a) b).meaning call).FailsSoftly w n :=
  not_failsSoftly_andThen (comesTo_cut h)

theorem conclusion_committed_of_success
    (h : (a.meaning call).ComesTo w n (.ok ()) backtrack m) :
    ((Parser.or (.andThen (.cut a) b) c).meaning call).conclusion w n =
      (b.meaning call).conclusion w m := by
  rw [conclusion_or_of_not_failsSoftly (not_failsSoftly_committed h),
    conclusion_andThen (comesTo_cut h)]

/-- The assertion that the first fails keeps the alternative out. -/
theorem conclusion_exclusive_of_success (h : (a.meaning call).ComesTo w n (.ok ()) backtrack m)
    (stop : Position) :
    ((Parser.or (.andThen a b) (.andThen (.not a) c)).meaning call).conclusion w n =
        .ok (.ok (), stop) ↔
      (b.meaning call).conclusion w m = .ok (.ok (), stop) := by
  have both : ((Parser.andThen a b).meaning call).conclusion w n = _ := conclusion_andThen h
  by_cases soft : ((Parser.andThen a b).meaning call).FailsSoftly w n
  · -- then the second fails, and the other side does so as well
    have kept_out := comesTo_andThen_of_failure (q := c) (comesTo_not_of_success h)
    rw [conclusion_or_of_failsSoftly soft, kept_out.conclusion, ← both]
    obtain ⟨message, k, failed⟩ := soft.conclusion
    simp [failed]
  · rw [conclusion_or_of_not_failsSoftly soft, both]

/-! ## If the first fails -/

theorem comesTo_committed_of_failure
    (h : (a.meaning call).ComesTo w n (.error message) backtrack m) :
    ((Parser.andThen (.cut a) b).meaning call).ComesTo w n (.error message) backtrack m :=
  comesTo_andThen_of_failure (comesTo_cut_of_failure h)

theorem conclusion_committed_of_soft (h : (a.meaning call).ComesTo w n (.error message) true m) :
    ((Parser.or (.andThen (.cut a) b) c).meaning call).conclusion w n =
      (c.meaning call).conclusion w n :=
  conclusion_or_of_failsSoftly ⟨message, m, comesTo_committed_of_failure h⟩

theorem conclusion_exclusive_of_soft (h : (a.meaning call).ComesTo w n (.error message) true m) :
    ((Parser.or (.andThen a b) (.andThen (.not a) c)).meaning call).conclusion w n =
      (c.meaning call).conclusion w n := by
  rw [conclusion_or_of_failsSoftly ⟨message, m, comesTo_andThen_of_failure h⟩,
    conclusion_andThen (comesTo_not_of_failure h), conclusion_passOver]

theorem conclusion_committed_of_hard (h : (a.meaning call).ComesTo w n (.error message) false m) :
    ((Parser.or (.andThen (.cut a) b) c).meaning call).conclusion w n =
      (a.meaning call).conclusion w n := by
  have failed := comesTo_committed_of_failure (b := b) h
  rw [conclusion_or_of_not_failsSoftly (failed.not_failsSoftly (.inr rfl)), failed.conclusion,
    h.conclusion]

theorem conclusion_exclusive_of_hard (h : (a.meaning call).ComesTo w n (.error message) false m) :
    ((Parser.or (.andThen a b) (.andThen (.not a) c)).meaning call).conclusion w n =
      (a.meaning call).conclusion w n := by
  have failed := comesTo_andThen_of_failure (q := b) h
  rw [conclusion_or_of_not_failsSoftly (failed.not_failsSoftly (.inr rfl)), failed.conclusion,
    h.conclusion]

/-! ## If the first ends the run -/

theorem conclusion_or_of_error {p q : Parser ρ Unit} (h : p.meaning call w n = .error e) :
    ((Parser.or p q).meaning call).conclusion w n = .error e.1 := by
  have decided : ¬(p.meaning call).FailsSoftly w n := by
    rintro ⟨message, m, span, failed⟩
    cases failed.symm.trans h
  rw [conclusion_or_of_not_failsSoftly decided, conclusion_of_error h]

end Parser

namespace Step

variable {p q q' : Step α} {body body' : Step α} {ctx : Context}

/-- Where the first step decides a choice, it does not matter what the second is. -/
theorem choose_eq_of_decided
    (decided : ∀ first after, p (ctx.onCursor Cursor.mark) = .ok first after →
      (first.isSuccessful || !first.backtrack) = true) : p.choose q ctx = p.choose q' ctx := by
  cases ran : p (ctx.onCursor Cursor.mark) with
  | error e after => rw [choose_eq_error ran, choose_eq_error ran]
  | ok first after =>
      rw [choose_eq_first ran (decided first after ran), choose_eq_first ran (decided first after ran)]

theorem framed_congr {name : String}
    (same : ∀ start inside, ctx.enter name = .ok start inside → body inside = body' inside) :
    framed name body ctx = framed name body' ctx := by
  unfold framed
  cases entered : ctx.enter name with
  | error e after => rfl
  | ok start inside =>
      simp only
      rw [same start inside entered]

end Step

namespace Grammar

open TextGrammar.Parser

variable {g : Grammar ρ} {p : Parser ρ α} {ctx : Context} {r : Reader}

/-! ## Runs -/

/-- A run allows for the depth that its meaning allows for. -/
theorem depthBound_eq (g : Grammar ρ) (h : ctx.cursor.Follows r []) :
    g.depthBound ctx = g.all.length * (Setting.left ⟨r.text, ctx.skip⟩ r.index + 1) + 1 := by
  have size : ctx.cursor.size + r.index = r.text.length :=
    (Tracking.following r.text []).size (Tracking.at_following_nil.mpr h)
  have left : ctx.size = Setting.left ⟨r.text, ctx.skip⟩ r.index := by
    show ctx.cursor.size = r.text.length - r.index
    omega
  unfold depthBound
  rw [left]

/-- A run agrees with what it means with the depth that it allows for. -/
theorem parse_agrees_depthBound (p : Parser ρ α) (h : ctx.cursor.Follows r []) :
    (Tracking.following r.text []).Agrees ctx.skip r.index r.saved (g.parse p ctx)
      (p.meaning (g.callMeaning (g.depthBound ctx)) ⟨r.text, ctx.skip⟩ r.index) :=
  Tracking.simulates_run (Tracking.simulates_call g (g.depthBound ctx)) p
    (Tracking.stands_of_follows h)

theorem conclusion_parse_eq (p : Parser ρ α) (h : ctx.cursor.Follows r []) :
    Running.conclusion (g.parse p ctx) =
      (p.meaning (g.callMeaning (g.depthBound ctx))).conclusion ⟨r.text, ctx.skip⟩ r.index := by
  rw [conclusion_parse h, g.depthBound_eq h]
  rfl

theorem meaning_of_parse_eq_error (h : ctx.cursor.Follows r []) {e : ParseError} {after : Context}
    (ran : g.parse p ctx = .error e after) :
    ∃ m, p.meaning (g.callMeaning (g.depthBound ctx)) ⟨r.text, ctx.skip⟩ r.index = .error (e, m) := by
  have agrees := g.parse_agrees_depthBound p h
  rw [ran] at agrees
  generalize p.meaning _ _ _ = expected at agrees ⊢
  cases agrees with
  | error ahead more here => exact ⟨_, rfl⟩
  | fault ahead more interrupted =>
      exact absurd interrupted Tracking.not_interrupted_following_nil

/-- Where a first run ends, a second parser comes to what it means there with the depth that the first
run allowed for. -/
theorem meaning_of_parse_eq_ok (h : ctx.cursor.Follows r []) {first : Outcome α} {behind : Context}
    (ran : g.parse p ctx = .ok first behind) :
    ∃ m, (p.meaning (g.callMeaning (g.depthBound ctx))).ComesTo ⟨r.text, ctx.skip⟩ r.index
        first.status first.backtrack m ∧
      ∀ {β : Type} (q : Parser ρ β), Running.conclusion (g.parse q behind) =
        (q.meaning (g.callMeaning (g.depthBound ctx))).conclusion ⟨r.text, ctx.skip⟩ m := by
  have agrees := g.parse_agrees_depthBound p h
  rw [ran] at agrees
  generalize means : p.meaning _ _ _ = expected at agrees
  cases agrees with
  | @ok _ _ m ahead here =>
      refine ⟨m, ⟨first.span, means⟩, fun q => ?_⟩
      have follows := Tracking.at_following_nil.mp here.cursor
      have less_left : Setting.left ⟨r.text, ctx.skip⟩ m ≤ Setting.left ⟨r.text, ctx.skip⟩ r.index :=
        Nat.sub_le_sub_left ahead _
      have deep := Nat.add_le_add_right
        (Nat.mul_le_mul_left g.all.length (Nat.add_le_add_right less_left 1)) 1
      rw [← g.depthBound_eq h] at deep
      rw [g.conclusion_parse follows, here.skip]
      exact (g.conclusion_meaning q follows.ordered.within deep).symm

/-- An alternative is not run behind anything that does not fail softly. -/
theorem parse_or_eq_of_not_failsSoftly {left right other : Parser ρ α}
    (h : ctx.cursor.Follows r [])
    (decided : ¬(left.meaning (g.callMeaning (g.depthBound ctx))).FailsSoftly
      ⟨r.text, ctx.skip⟩ r.index) :
    g.parse (.or left other) ctx = g.parse (.or left right) ctx := by
  refine Step.framed_congr fun start inside entered => Step.choose_eq_of_decided fun o after ran => ?_
  obtain ⟨-, here⟩ := Tracking.stands_of_enter (Tracking.stands_of_follows h) entered
  -- the left side runs under the mark of the choice, and comes to what it means all the same
  have agrees := Tracking.simulates_map id
    (Tracking.simulates_run (Tracking.simulates_call g (g.depthBound ctx)) left) here.mark
  rw [Meaning.map_id, meaning_passOver,
    show Step.map id (left.run (g.call (g.depthBound ctx))) _ = _ from ran] at agrees
  generalize means : left.meaning _ _ _ = expected at agrees
  cases agrees with
  | ok _ _ =>
      obtain ⟨status, backtrack, span⟩ := o
      cases status with
      | ok value => rfl
      | error message =>
          cases backtrack with
          | false => rfl
          | true => exact absurd ⟨message, _, span, means⟩ decided

section

variable (g) (a b c : Parser ρ Unit)

theorem parse_committed_cases (h : ctx.cursor.Follows r []) :
    match g.parse a ctx with
    | .error e _ => Running.conclusion (g.parse (.or (.andThen (.cut a) b) c) ctx) = .error e
    | .ok first behind =>
      if first.isSuccessful then
        Running.conclusion (g.parse (.or (.andThen (.cut a) b) c) ctx) =
            Running.conclusion (g.parse b behind) ∧
          ∀ other, g.parse (.or (.andThen (.cut a) b) other) ctx =
            g.parse (.or (.andThen (.cut a) b) c) ctx
      else if first.backtrack then
        Running.conclusion (g.parse (.or (.andThen (.cut a) b) c) ctx) =
          Running.conclusion (g.parse c ctx)
      else
        Running.conclusion (g.parse (.or (.andThen (.cut a) b) c) ctx) =
          Running.conclusion (g.parse a ctx) := by
  have whole := g.conclusion_parse_eq (.or (.andThen (.cut a) b) c) h
  cases ran : g.parse a ctx with
  | error e after =>
      obtain ⟨m, means⟩ := meaning_of_parse_eq_error h ran
      rw [whole, conclusion_or_of_error (meaning_andThen_eq_error (meaning_cut_eq_error means))]
  | ok first behind =>
      obtain ⟨m, came, second⟩ := meaning_of_parse_eq_ok h ran
      obtain ⟨status, backtrack, span⟩ := first
      cases status with
      | ok value =>
          refine ⟨?_, fun other => parse_or_eq_of_not_failsSoftly h (not_failsSoftly_committed came)⟩
          rw [whole, second b]
          exact conclusion_committed_of_success came
      | error message =>
          cases backtrack with
          | true =>
              show Running.conclusion _ = Running.conclusion (g.parse c ctx)
              rw [whole, g.conclusion_parse_eq c h]
              exact conclusion_committed_of_soft came
          | false =>
              show Running.conclusion _ = Running.conclusion (.ok _ behind)
              rw [whole, ← ran, g.conclusion_parse_eq a h]
              exact conclusion_committed_of_hard came

theorem conclusion_parse_or_committed (h : ctx.cursor.Follows r []) {o : Outcome Unit}
    {ctx' : Context} (ran : g.parse (.or a b) ctx = .ok o ctx') (failed : o.isFailure = true) :
    Running.conclusion (g.parse (.or (.or a b) c) ctx) = Running.conclusion (g.parse c ctx) := by
  obtain ⟨m, came, -⟩ := meaning_of_parse_eq_ok h ran
  obtain ⟨status, backtrack, span⟩ := o
  cases status with
  | ok value => cases failed
  | error message =>
      rw [g.conclusion_parse_eq _ h, g.conclusion_parse_eq _ h]
      exact conclusion_or_of_failsSoftly (failsSoftly_or_of_failure came)

theorem parse_committed_succeeds_iff (h : ctx.cursor.Follows r []) (stop : Position) :
    Running.conclusion (g.parse (.or (.andThen (.cut a) b) c) ctx) = .ok (.ok (), stop) ↔
      Running.conclusion (g.parse (.or (.andThen a b) (.andThen (.not a) c)) ctx) =
        .ok (.ok (), stop) := by
  rw [g.conclusion_parse_eq _ h, g.conclusion_parse_eq _ h]
  obtain ⟨⟨⟩, backtrack, m, came⟩ | ⟨message, backtrack, m, came⟩ | ⟨e, came⟩ :=
    Meaning.comesTo_cases (a.meaning (g.callMeaning (g.depthBound ctx))) ⟨r.text, ctx.skip⟩ r.index
  · rw [conclusion_committed_of_success came, conclusion_exclusive_of_success came]
  · cases backtrack with
    | true => rw [conclusion_committed_of_soft came, conclusion_exclusive_of_soft came]
    | false => rw [conclusion_committed_of_hard came, conclusion_exclusive_of_hard came]
  · rw [conclusion_or_of_error (meaning_andThen_eq_error (meaning_cut_eq_error came)),
      conclusion_or_of_error (meaning_andThen_eq_error came)]

end

/-- Committed choice: if the first parser succeeds, the whole comes to what the second comes to from
where the first ended, and the alternative plays no part; if it fails softly, to what the alternative
comes to from the same place; if it fails committed or ends the run, to what it comes to itself. The
whole is never committed, so that a choice around it in which it fails comes to its own alternative. It
succeeds where the choice without a commitment does whose alternative asserts that the first fails, and
ends there as well. -/
theorem parse_committedChoice (g : Grammar ρ) (a b c : Parser ρ Unit)
    (h : ctx.cursor.Follows r []) :
    let committed := Parser.or (.andThen (.cut a) b) c
    let exclusive := Parser.or (.andThen a b) (.andThen (.not a) c)
    (match g.parse a ctx with
      | .error e _ => Running.conclusion (g.parse committed ctx) = .error e
      | .ok first behind =>
        if first.isSuccessful then
          Running.conclusion (g.parse committed ctx) = Running.conclusion (g.parse b behind) ∧
            ∀ other, g.parse (.or (.andThen (.cut a) b) other) ctx = g.parse committed ctx
        else if first.backtrack then
          Running.conclusion (g.parse committed ctx) = Running.conclusion (g.parse c ctx)
        else Running.conclusion (g.parse committed ctx) = Running.conclusion (g.parse a ctx)) ∧
    (∀ o ctx', g.parse committed ctx = .ok o ctx' → o.backtrack = true ∧
      (o.isFailure = true → ∀ other,
        Running.conclusion (g.parse (.or committed other) ctx) =
          Running.conclusion (g.parse other ctx))) ∧
    ∀ stop, Running.conclusion (g.parse committed ctx) = .ok (.ok (), stop) ↔
      Running.conclusion (g.parse exclusive ctx) = .ok (.ok (), stop) := by
  intro committed exclusive
  refine ⟨g.parse_committed_cases a b c h, fun o ctx' ran => ⟨?_, fun failed other => ?_⟩,
    g.parse_committed_succeeds_iff a b c h⟩
  · exact backtrack_of_parse (confined_of_shelters (p := committed) trivial) ran
  · exact g.conclusion_parse_or_committed _ _ _ h ran failed

/-- A committed choice whose second parser fails where the alternative would succeed, with a third one
around it. -/
theorem parse_committedChoice_fails :
    let a : Parser (fun _ => Empty) Unit := .exact '0'
    let b : Parser (fun _ => Empty) Unit := .exact '1'
    let c : Parser (fun _ => Empty) Unit := .andThen (.exact '0') (.exact '2')
    let committed := Parser.or (.andThen (.cut a) b) c
    let exclusive := Parser.or (.andThen a b) (.andThen (.not a) c)
    let source := Source.ofItems [.char '0', .char '2']
    let ctx := Context.ofCursor (.ofSource source) none false
    ctx.cursor.Follows ⟨['0', '2'], 0, []⟩ [] ∧
      (∃ o ctx', withoutRules.parse committed ctx = .ok o ctx' ∧ o.isFailure = true ∧
        ctx'.position.index = 1 ∧ o.backtrack = true ∧
        Running.conclusion (withoutRules.parse (.or committed c) ctx) =
          Running.conclusion (withoutRules.parse c ctx)) ∧
      (∃ stop, Running.conclusion (withoutRules.parse c ctx) = .ok (.ok (), stop) ∧
        Running.conclusion (withoutRules.parse committed ctx) ≠ .ok (.ok (), stop) ∧
        Running.conclusion (withoutRules.parse exclusive ctx) ≠ .ok (.ok (), stop)) := by
  intro a b c committed exclusive source ctx
  have follows : ctx.cursor.Follows ⟨['0', '2'], 0, []⟩ [] := Cursor.Follows.ofSource source
  have chosen := withoutRules.parse_committedChoice a b c follows
  obtain ⟨o, ctx', ran, failed, stopped⟩ : ∃ o ctx', withoutRules.parse committed ctx = .ok o ctx' ∧
      o.isFailure = true ∧ ctx'.position.index = 1 := ⟨_, _, by cbv, by cbv, by cbv⟩
  obtain ⟨stop, alternative⟩ : ∃ stop,
      Running.conclusion (withoutRules.parse c ctx) = .ok (.ok (), stop) := ⟨_, by cbv⟩
  obtain ⟨soft, around⟩ := chosen.2.1 o ctx' ran
  have missed : Running.conclusion (withoutRules.parse committed ctx) ≠ .ok (.ok (), stop) := by
    rw [ran]
    intro succeeded
    obtain ⟨status, backtrack, span⟩ := o
    cases succeeded
    cases failed
  exact ⟨follows, ⟨o, ctx', ran, failed, stopped, soft, around failed c⟩, stop, alternative, missed,
    mt (chosen.2.2 stop).mpr missed⟩

end Grammar

end TextGrammar
