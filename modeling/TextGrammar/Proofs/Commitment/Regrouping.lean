import TextGrammar.Proofs.Commitment.CommittedChoice
import TextGrammar.Proofs.Run.Report

set_option autoImplicit false

/-! # Choices between three

What a choice reports can be told from what its two sides report from the same place. So two groupings
of three alternatives can be compared by what the three report. They come to the same unless a commitment
is in play: a committed failure is final for the choice that it belongs to, but not for one around it,
and which of the two a third alternative belongs to is what the grouping says. -/

namespace TextGrammar

variable {ρ : Type → Type} {α : Type}

namespace Report

/-! ## Choosing between reports -/

/-- What a choice reports whose sides report this from the same place. -/
def choose (first second : Report α) : Report α :=
  match first with
  | .error e => .error e
  | .ok (o, stop) =>
    if o.isSuccessful || !o.backtrack then .ok (o.allowBacktrack true, stop)
    else second.mapOutcome (·.allowBacktrack true)

/-- A failure behind which a choice goes back. -/
def FailsSoftly (r : Report α) : Prop :=
  ∃ message span stop, r = .ok (⟨.error message, true, span⟩, stop)

/-- A failure that is final for the choice. -/
def FailsCut (r : Report α) : Prop :=
  ∃ message span stop, r = .ok (⟨.error message, false, span⟩, stop)

variable {first second third : Report α}

/-- A run ends with an error, or it succeeds, or it fails in one of two ways. -/
theorem cases (r : Report α) :
    (∃ e, r = .error e) ∨ (∃ a backtrack span stop, r = .ok (⟨.ok a, backtrack, span⟩, stop)) ∨
      r.FailsCut ∨ r.FailsSoftly := by
  rcases r with e | ⟨⟨_ | a, backtrack, span⟩, stop⟩
  · exact .inl ⟨e, rfl⟩
  · cases backtrack with
    | false => exact .inr (.inr (.inl ⟨_, span, stop, rfl⟩))
    | true => exact .inr (.inr (.inr ⟨_, span, stop, rfl⟩))
  · exact .inr (.inl ⟨a, backtrack, span, stop, rfl⟩)

theorem FailsSoftly.choose_eq (h : first.FailsSoftly) :
    first.choose second = second.mapOutcome (·.allowBacktrack true) := by
  obtain ⟨message, span, stop, rfl⟩ := h
  rfl

theorem FailsCut.choose_eq (h : first.FailsCut) :
    first.choose second = first.mapOutcome (·.allowBacktrack true) := by
  obtain ⟨message, span, stop, rfl⟩ := h
  rfl

/-- Behind the choice that it belongs to, a committed failure is like any other. -/
theorem FailsCut.softened (h : first.FailsCut) :
    (first.mapOutcome (·.allowBacktrack true)).FailsSoftly := by
  obtain ⟨message, span, stop, rfl⟩ := h
  exact ⟨message, span, stop, rfl⟩

/-- What comes out of a choice never rules out other alternatives. -/
theorem mapOutcome_choose :
    (first.choose second).mapOutcome (·.allowBacktrack true) = first.choose second := by
  obtain ⟨e, rfl⟩ | ⟨a, backtrack, span, stop, rfl⟩ | cut | soft := first.cases
  · rfl
  · rfl
  · rw [cut.choose_eq]
    rcases first with e | ⟨o, stop⟩ <;> rfl
  · rw [soft.choose_eq]
    rcases second with e | ⟨o, stop⟩ <;> rfl

/-- Whether other alternatives were ruled out matters to the choice around a run only if it has failed. -/
theorem mapOutcome_choose_of_not_failsCut (h : ¬first.FailsCut) :
    (first.mapOutcome (·.allowBacktrack true)).choose second = first.choose second := by
  obtain ⟨e, rfl⟩ | ⟨a, backtrack, span, stop, rfl⟩ | cut | ⟨message, span, stop, rfl⟩ := first.cases
  · rfl
  · rfl
  · exact absurd cut h
  · rfl

/-! ## Three alternatives -/

theorem choose_assoc (first_not : ¬first.FailsCut)
    (second_not : first.FailsSoftly → ¬second.FailsCut) :
    (first.choose second).choose third = first.choose (second.choose third) := by
  obtain ⟨e, rfl⟩ | ⟨a, backtrack, span, stop, rfl⟩ | cut | soft := first.cases
  · rfl
  · rfl
  · exact absurd cut first_not
  · rw [soft.choose_eq, soft.choose_eq, mapOutcome_choose,
      mapOutcome_choose_of_not_failsCut (second_not soft)]

/-- The choice that a committed failure belongs to is over. If that is the whole choice, the third
alternative is left out; otherwise it has its turn. -/
theorem FailsCut.choose_choose (h : first.FailsCut) :
    first.choose (second.choose third) = first.mapOutcome (·.allowBacktrack true) ∧
      (first.choose second).choose third = third.mapOutcome (·.allowBacktrack true) := by
  refine ⟨h.choose_eq, ?_⟩
  rw [h.choose_eq, h.softened.choose_eq]

theorem FailsSoftly.choose_choose (h : first.FailsSoftly) (h' : second.FailsCut) :
    first.choose (second.choose third) = second.mapOutcome (·.allowBacktrack true) ∧
      (first.choose second).choose third = third.mapOutcome (·.allowBacktrack true) := by
  constructor
  · rw [h.choose_eq, mapOutcome_choose, h'.choose_eq]
  · rw [h.choose_eq, h'.softened.choose_eq]

end Report

/-! ## What a choice reports -/

namespace Meaning

variable {w : Setting} {n : Nat}

variable {p q : Meaning α} {o : Outcome α} {m : Nat}

theorem report_choose (p q : Meaning α) (w : Setting) (n : Nat) :
    (p.choose q).report w n = (p.report w n).choose (q.report w n) := by
  unfold report
  rcases came : p w n with e | ⟨first, m⟩
  · rw [choose_eq_error came]
    rfl
  · by_cases final : (first.isSuccessful || !first.backtrack) = true
    · rw [choose_eq_first came final]
      exact (if_pos final).symm
    · refine Eq.trans ?_ (if_neg final).symm
      rcases came' : q w n with e | ⟨second, k⟩
      · rw [choose_eq_second_error came final came']
        rfl
      · rw [choose_eq_second came final came']
        rfl

/-- The outcome of a choice is that of one of its sides, but for the flag. -/
theorem choose_eq_ok (h : p.choose q w n = .ok (o, m)) :
    ∃ side, (p w n = .ok (side, m) ∨ q w n = .ok (side, m)) ∧ o = side.allowBacktrack true := by
  rcases came : p w n with e | ⟨first, k⟩
  · rw [choose_eq_error came] at h
    cases h
  · by_cases final : (first.isSuccessful || !first.backtrack) = true
    · rw [choose_eq_first came final] at h
      cases h
      exact ⟨first, .inl rfl, rfl⟩
    · rcases came' : q w n with e | ⟨second, l⟩
      · rw [choose_eq_second_error came final came'] at h
        cases h
      · rw [choose_eq_second came final came'] at h
        cases h
        exact ⟨second, .inr rfl, rfl⟩

end Meaning

namespace Parser

open Meaning

variable {call : {β : Type} → ρ β → Meaning β}

/-- The frame of a choice covers what the frame of the side that it comes to covers. -/
theorem meaning_or_eq (p q : Parser ρ α) (w : Setting) (n : Nat) :
    (Parser.or p q).meaning call w n = (p.meaning call).choose (q.meaning call) w n := by
  have inside : (p.meaning call).choose (q.meaning call) w (w.passOver n) =
      (p.meaning call).choose (q.meaning call) w n := by
    unfold choose
    rw [meaning_passOver, meaning_passOver]
  rw [meaning_or]
  unfold framed
  simp only [inside]
  rcases came : (p.meaning call).choose (q.meaning call) w n with e | ⟨o, m⟩
  · rfl
  · obtain ⟨side, ran, rfl⟩ := choose_eq_ok came
    have covered : side.withSpan (w.span (w.passOver n) m) = side := by
      have span := ran.elim span_of_framed span_of_framed
      rw [Outcome.withSpan, ← span]
    show Except.ok ((side.withSpan _).allowBacktrack true, m) = _
    rw [covered]

end Parser

namespace Grammar

open TextGrammar.Parser

variable {g : Grammar ρ} {ctx : Context} {rd : Reader}

theorem report_eq (p : Parser ρ α) (h : ctx.cursor.Follows rd []) :
    g.report p ctx =
      (p.meaning (g.callMeaning (g.depthBound ctx))).report ⟨rd.text, ctx.skip⟩ rd.index := by
  rw [g.depthBound_eq h]
  exact g.report_eq_meaning p h

/-- Both sides of a choice run from the same place, whatever the first has read. -/
theorem report_or (p q : Parser ρ α) (h : ctx.cursor.Follows rd []) :
    g.report (.or p q) ctx = (g.report p ctx).choose (g.report q ctx) := by
  rw [report_eq _ h, report_eq p h, report_eq q h, ← Meaning.report_choose]
  unfold Meaning.report
  rw [meaning_or_eq]

/-- Three alternatives in either grouping. -/
theorem report_or_or (g : Grammar ρ) (p q r : Parser ρ α) (h : ctx.cursor.Follows rd []) :
    let nestedLeft := g.report (.or (.or p q) r) ctx
    let nestedRight := g.report (.or p (.or q r)) ctx
    (¬((g.report p ctx).FailsCut ∨ (g.report p ctx).FailsSoftly ∧ (g.report q ctx).FailsCut) →
      nestedLeft = nestedRight) ∧
    ((g.report p ctx).FailsCut →
      nestedRight = (g.report p ctx).mapOutcome (·.allowBacktrack true) ∧
        nestedLeft = (g.report r ctx).mapOutcome (·.allowBacktrack true)) ∧
    ((g.report p ctx).FailsSoftly → (g.report q ctx).FailsCut →
      nestedRight = (g.report q ctx).mapOutcome (·.allowBacktrack true) ∧
        nestedLeft = (g.report r ctx).mapOutcome (·.allowBacktrack true)) := by
  intro nestedLeft nestedRight
  have left : nestedLeft =
      ((g.report p ctx).choose (g.report q ctx)).choose (g.report r ctx) := by
    rw [← report_or p q h, ← report_or (.or p q) r h]
  have right : nestedRight =
      (g.report p ctx).choose ((g.report q ctx).choose (g.report r ctx)) := by
    rw [← report_or q r h, ← report_or p (.or q r) h]
  rw [left, right]
  refine ⟨fun soft => ?_, Report.FailsCut.choose_choose, Report.FailsSoftly.choose_choose⟩
  exact Report.choose_assoc (fun cut => soft (.inl cut)) fun first second => soft (.inr ⟨first, second⟩)

/-- A parser that commits itself to a zero and then fails, as the first of three alternatives and as the
second. In one grouping the whole fails behind the zero, in the other one the last alternative succeeds. -/
theorem report_or_or_committed :
    let committed : Parser (fun _ => Empty) Unit := .andThen (.cut (.exact '0')) (.exact '1')
    let other : Parser (fun _ => Empty) Unit := .exact 'x'
    let last : Parser (fun _ => Empty) Unit := .andThen (.exact '0') (.exact '2')
    let ctx := Context.ofCursor (.ofSource (.ofItems [.char '0', .char '2'])) none false
    ctx.cursor.Follows ⟨['0', '2'], 0, []⟩ [] ∧
      (withoutRules.report committed ctx).FailsCut ∧ (withoutRules.report other ctx).FailsSoftly ∧
      (∃ message span, withoutRules.report (.or committed (.or other last)) ctx =
        .ok (⟨.error message, true, span⟩, ⟨1, 2, 1⟩)) ∧
      (∃ span, withoutRules.report (.or (.or committed other) last) ctx =
        .ok (⟨.ok (), true, span⟩, ⟨1, 3, 2⟩)) ∧
      (∃ message span, withoutRules.report (.or other (.or committed last)) ctx =
        .ok (⟨.error message, true, span⟩, ⟨1, 2, 1⟩)) ∧
      (∃ span, withoutRules.report (.or (.or other committed) last) ctx =
        .ok (⟨.ok (), true, span⟩, ⟨1, 3, 2⟩)) ∧
      withoutRules.report (.or (.or last committed) other) ctx =
        withoutRules.report (.or last (.or committed other)) ctx := by
  intro committed other last ctx
  have follows : ctx.cursor.Follows ⟨['0', '2'], 0, []⟩ [] :=
    Cursor.Follows.ofSource (.ofItems [.char '0', .char '2'])
  have cut : (withoutRules.report committed ctx).FailsCut := ⟨_, _, _, by cbv⟩
  have soft : (withoutRules.report other ctx).FailsSoftly := ⟨_, _, _, by cbv⟩
  have first := (withoutRules.report_or_or committed other last follows).2.1 cut
  have second := (withoutRules.report_or_or other committed last follows).2.2 soft cut
  obtain ⟨span, stop, won⟩ : ∃ span stop,
      withoutRules.report last ctx = .ok (⟨.ok (), true, span⟩, stop) := ⟨_, _, by cbv⟩
  have same := (withoutRules.report_or_or last committed other follows).1 <| by
    rintro (⟨message, span', stop', failed⟩ | ⟨⟨message, span', stop', failed⟩, -⟩)
    · cases won.symm.trans failed
    · cases won.symm.trans failed
  rw [first.1, first.2, second.1, second.2]
  exact ⟨follows, cut, soft, ⟨_, _, by cbv⟩, ⟨_, by cbv⟩, ⟨_, _, by cbv⟩, ⟨_, by cbv⟩, same⟩

end Grammar

end TextGrammar
