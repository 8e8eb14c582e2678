import TextGrammar.Proofs.Commitment.Conclusion
import TextGrammar.Proofs.Erasure.Setting
import TextGrammar.Proofs.Refinement.Report

set_option autoImplicit false

/-! # Captured text

A capture gives the text that its span covers. What the parser within it has passed over or read more
than once is in it once, and what stands before the first character that it does not pass over is not.
The mark that the capture has made is there when it looks for it, whatever marks the parser within it
has made and forgotten. -/

namespace TextGrammar

/-- The characters of a text that a span covers. -/
def Span.covered (text : List Char) (s : Span) : List Char :=
  (text.take s.stop.index).drop s.start.index

theorem Span.length_covered {text : List Char} {s : Span} (within : s.stop.index ≤ text.length) :
    (s.covered text).length = s.length := by
  rw [covered, List.length_drop, List.length_take, Nat.min_eq_left within, length]

/-- The span between two numbers covers the characters between them. -/
theorem Span.covered_span {w : Setting} {n m : Nat} (ahead : n ≤ m) (within : m ≤ w.text.length) :
    (w.span n m).covered w.text = (w.text.take m).drop n := by
  simp only [covered, Setting.span, Position.index_ofIndex within,
    Position.index_ofIndex (Nat.le_trans ahead within)]

variable {ρ : Type → Type}

namespace Parser

open Meaning

variable (call : {β : Type} → ρ β → Meaning β) (p : Parser ρ Unit)

/-- What a capture means is told from what the parser within it means at the same place. -/
theorem meaning_capture (w : Setting) (n : Nat) :
    (Parser.capture p).meaning call w n = Except.map (fun (o, m) =>
      (o.attach (String.ofList ((w.text.take m).drop (w.passOver n))), m)) (p.meaning call w n) := by
  show framed ((Meaning.capture (p.meaning call)).map id) w n = _
  rw [map_id]
  simp only [framed, Meaning.capture, meaning_passOver]
  rcases came : p.meaning call w n with e | ⟨o, m⟩
  · rfl
  · have covers : o.span = some (w.span (w.passOver n) m) := span_of_framed came
    show Except.ok ((o.attach _).withSpan (w.span (w.passOver n) m), m) = Except.ok (o.attach _, m)
    rw [Setting.rest, ← List.drop_take, Outcome.withSpan, ← covers]
    rfl

end Parser

namespace Grammar

variable {g : Grammar ρ} {α : Type} {w : Setting} {n m : Nat} {o : Outcome α}

/-- A run goes on from behind the characters to pass over, and stays within the text. -/
theorem meaning_bounds {p : Parser ρ α} (within : n ≤ w.text.length)
    (came : g.meaning p w n = .ok (o, m)) : w.passOver n ≤ m ∧ m ≤ w.text.length := by
  let depth := g.all.length * (w.left n + 1) + 1
  have onward := Meaning.upheld_meaning (fun r => g.upheld_callMeaning depth 0 r) p (Nat.zero_le _)
    (w.passOver_bounds within).2
  have there : p.meaning (g.callMeaning depth) w (w.passOver n) = .ok (o, m) :=
    (p.meaning_passOver _ w n).trans came
  rw [there] at onward
  cases onward with
  | ok ahead inside => exact ⟨ahead, inside⟩

/-- What the parser within a capture leaves behind it: the mark of the capture, and since this mark all
that it covers. -/
theorem captured_of_run {ctx inside after : Context} {rd : Reader} {start : Position} {name : String}
    {depth : Nat} {p : Parser ρ α} (h : ctx.cursor.Follows rd [])
    (entered : ctx.enter name = .ok start inside)
    (ran : p.run (g.call depth) (inside.onCursor Cursor.mark) = .ok o after) :
    after.cursor.captured =
      some (String.ofList ((⟨start, after.position⟩ : Span).covered rd.text)) := by
  obtain ⟨rfl, here⟩ := Tracking.stands_of_enter (Tracking.stands_of_follows h) entered
  have agrees := Tracking.simulates_run (fun r => Tracking.simulates_call g depth r) p here.mark
  rw [ran] at agrees
  generalize p.meaning _ _ _ = expected at agrees
  cases agrees with
  | @ok _ _ m ahead there =>
      have within := (Tracking.at_following_nil.mp there.cursor).ordered.within
      rw [(Tracking.following rd.text []).captured there.cursor, there.position, ← List.drop_take]
      exact congrArg (some <| String.ofList ·)
        (Span.covered_span (w := ⟨rd.text, ctx.skip⟩) ahead within).symm

/-- A capture ends where the parser within it ends, with its message if it fails. If it succeeds, the
text is the one that its span covers, which begins at the first character that is not passed over. And
the mark that this text begins at is never missing. -/
theorem report_capture {source : Source} (faultless : source.faults = []) (g : Grammar ρ)
    (p : Parser ρ Unit) {ctx : Context} (reached : ctx.cursor.Reachable source) :
    (match g.report p ctx with
      | .error e => g.report (.capture p) ctx = .error e
      | .ok (o, stop) => ∃ span, o.span = some span ∧ span.stop = stop ∧
          g.report (.capture p) ctx =
            .ok (o.attach (String.ofList (span.covered source.chars)), stop) ∧
          (span.covered source.chars).length = span.length ∧
          ctx.position.index ≤ span.start.index ∧ span.start.index ≤ stop.index ∧
          (∀ c ∈ (source.chars.take span.start.index).drop ctx.position.index,
            ctx.skip.any (·.contains c) = true) ∧
          ∀ c, source.chars[span.start.index]? = some c →
            ctx.skip.any (·.contains c) = false) ∧
      ∀ depth start inside o after, ctx.enter "Capture" = .ok start inside →
        p.run (g.call depth) (inside.onCursor Cursor.mark) = .ok o after →
        after.cursor.captured =
          some (String.ofList ((⟨start, after.position⟩ : Span).covered source.chars)) := by
  obtain ⟨saved, follows⟩ := reached.follows faultless
  refine ⟨?_, fun depth start inside o after => captured_of_run follows⟩
  have within : ctx.position.index ≤ source.chars.length := follows.ordered.within
  rw [g.report_of_reachable p faultless reached, g.report_of_reachable (.capture p) faultless reached]
  let w : Setting := ⟨source.chars, ctx.skip⟩
  generalize ctx.position.index = n at within ⊢
  have captures : g.meaning (.capture p) w n = Except.map _ (g.meaning p w n) :=
    p.meaning_capture _ w n
  rcases came : g.meaning p w n with e | ⟨o, m⟩
  · rw [came] at captures
    rw [Meaning.report_eq_error came]
    exact Meaning.report_eq_error captures
  · rw [came] at captures
    obtain ⟨ahead, inside⟩ := meaning_bounds within came
    obtain ⟨behind, reaches⟩ := w.passOver_bounds within
    have covers := Meaning.span_of_framed came
    have start : (w.span (w.passOver n) m).start.index = w.passOver n :=
      Position.index_ofIndex reaches
    have stop : (Position.ofIndex source.chars m).index = m := Position.index_ofIndex inside
    rw [Meaning.report_eq_ok came]
    refine ⟨_, covers, rfl, ?_, Span.length_covered ?_, ?_, ?_, ?_, ?_⟩
    · rw [Span.covered_span (w := w) ahead inside]
      exact Meaning.report_eq_ok captures
    · exact stop.trans_le inside
    · exact start.symm ▸ behind
    · rw [start, stop]
      exact ahead
    · intro c passed
      rw [start] at passed
      simpa [Setting.keeps] using Setting.not_keeps_of_passed passed
    · intro c next
      rw [start] at next
      simpa [Setting.keeps] using Setting.keeps_next (w.passOver_passOver n) next

/-- A capture under a mark that was made before, of a choice whose first alternative is taken back.
The space in front is passed over, the one inside is captured, and the first character is there once. -/
theorem report_capture_under_a_mark :
    let source := Source.ofItems
      [.char 'x', .char ' ', .char 'a', .char ' ', .char 'b', .char 'c']
    let cur := (((Cursor.ofSource source).perform .read).2.perform .mark).2
    let ctx := Context.ofCursor cur (some (.between ' ' ' ')) false
    let p : Parser (fun _ => Empty) Unit :=
      .or (.andThen (.exact 'a') (.exact '!')) (.andThen (.exact 'a') (.exact 'b'))
    source.faults = [] ∧ ctx.cursor.Reachable source ∧
      ∃ o span, withoutRules.report (.capture p) ctx = .ok (o, ⟨1, 6, 5⟩) ∧
        span = ⟨⟨1, 3, 2⟩, ⟨1, 6, 5⟩⟩ ∧ o.span = some span ∧
        o.status = .ok (String.ofList ['a', ' ', 'b']) ∧
        span.covered source.chars = ['a', ' ', 'b'] := by
  intro source cur ctx p
  have read : ((Cursor.ofSource source).perform .read).2.Reachable source := .perform .start .read
  have reached : ctx.cursor.Reachable source := .perform read .mark
  have ran : withoutRules.report p ctx =
      .ok (⟨.ok (), true, some ⟨⟨1, 3, 2⟩, ⟨1, 6, 5⟩⟩⟩, ⟨1, 6, 5⟩) := by
    cbv
  have captures := (report_capture rfl withoutRules p reached).1
  rw [ran] at captures
  obtain ⟨span, covers, -, captured, -⟩ := captures
  obtain rfl : _ = span := Option.some.inj covers
  exact ⟨rfl, reached, _, _, captured, rfl, rfl, rfl, rfl⟩

end Grammar

end TextGrammar
