import TextGrammar.Text.Digit
import TextGrammar.Proofs.Erasure.Basic
import TextGrammar.Proofs.Refinement.Report

set_option autoImplicit false

/-! # The leftmost place

A search tries its target at one place after another, and the first try that is no failure decides it:
a success is its outcome, and an error ends it too. So a success further on counts only if the target
has failed at every place before it. A try that fails leaves nothing behind, neither in the text nor
among the marks, however far it has read and whether or not it was committed. -/

namespace TextGrammar

variable {ρ : Type → Type} {α : Type}

/-- The run has come to an outcome, which is a failure. -/
def Report.Fails (r : Report α) : Prop :=
  ∃ o stop, r = .ok (o, stop) ∧ o.isFailure = true

theorem Report.Matches.fails {r r' : Report α} (h : r.Matches r') (fails : r'.Fails) : r.Fails := by
  cases h with
  | same r => exact fails
  | endless stop stop' =>
      obtain ⟨o, stop, came, -⟩ := fails
      cases came

/-! ## What a search means -/

namespace Meaning

variable {p : Meaning α} {w : Setting} {n k : Nat}

theorem eq_ok_of_fails (h : (p.report w n).Fails) :
    ∃ o m, p w n = .ok (o, m) ∧ ¬o.isSuccessful = true := by
  obtain ⟨o, stop, came, fails⟩ := h
  have failed : ¬o.isSuccessful = true := by simpa [Outcome.isFailure] using fails
  unfold report at came
  rcases ran : p w n with e | ⟨o', m⟩
  · rw [ran] at came
    cases came
  · rw [ran] at came
    cases came
    exact ⟨o, m, rfl, failed⟩

/-- A search goes on behind all places at which its target fails. -/
theorem skipTo_eq_of_fails (fails : ∀ j < k, (p.report w (n + j)).Fails)
    (within : n + k ≤ w.text.length) : p.skipTo w n = p.skipTo w (n + k) := by
  induction k with
  | zero => rfl
  | succ k ih =>
      obtain ⟨o, m, came, failed⟩ := eq_ok_of_fails (fails k (Nat.lt_succ_self k))
      have more : ¬w.left (n + k) = 0 := by
        unfold Setting.left
        omega
      rw [ih (fun j hj => fails j (Nat.lt_succ_of_lt hj)) (Nat.le_of_succ_le within)]
      exact skipTo_eq_further came failed more

/-- The span of a search begins where it was entered, and whatever it finds ends it. -/
theorem report_framed_skipTo (fails : ∀ j < k, (p.report w (w.passOver n + j)).Fails)
    (within : w.passOver n + k ≤ w.text.length) :
    match p.report w (w.passOver n + k) with
    | .error e => (framed p.skipTo).report w n = .error e
    | .ok (o, stop) => o.isSuccessful = true → (framed p.skipTo).report w n =
        .ok (o.withSpan ⟨.ofIndex w.text (w.passOver n), stop⟩, stop) := by
  have search := skipTo_eq_of_fails fails within
  rcases came : p w (w.passOver n + k) with e | ⟨o, m⟩
  · rw [report_eq_error came]
    refine report_eq_error ?_
    rw [framed, search, skipTo_eq_error came]
    rfl
  · rw [report_eq_ok came]
    intro success
    refine report_eq_ok (framed_eq_ok ?_)
    rw [search, skipTo_eq_success came success]

/-- A search that finds nothing fails at the end of the text. -/
theorem report_framed_skipTo_none (within : w.passOver n ≤ w.text.length)
    (fails : ∀ j ≤ w.left (w.passOver n), (p.report w (w.passOver n + j)).Fails) :
    (framed p.skipTo).report w n =
      .ok (⟨.error Step.tokenNotFound, true, some (w.span (w.passOver n) w.text.length)⟩,
        .ofIndex w.text w.text.length) := by
  have last : w.passOver n + w.left (w.passOver n) = w.text.length := by
    unfold Setting.left
    omega
  obtain ⟨o, m, came, failed⟩ := eq_ok_of_fails (fails _ (Nat.le_refl _))
  have atEnd : w.left w.text.length = 0 := Nat.sub_self _
  rw [last] at came
  refine report_eq_ok (framed_eq_ok (o := .failure Step.tokenNotFound) ?_)
  rw [skipTo_eq_of_fails (fun j hj => fails j (Nat.le_of_lt hj)) last.le, last]
  exact skipTo_eq_failure came failed atEnd

end Meaning

/-! ## What a search leaves behind -/

namespace Step

/-- The search that begins in the first state makes its try with this number from the second one. -/
inductive Tries (p : Step α) (ctx : Context) : Nat → Context → Prop where
  | first : Tries p ctx 0 ctx
  | next {k : Nat} {before back further : Context} {c : Char} (tries : Tries p ctx k before)
      (failed : p.attempt before = .ok none back)
      (read : Context.reading Cursor.read back = .ok (some c) further) :
      Tries p ctx (k + 1) further

end Step

namespace Tracking

variable {text : List Char} {t : Tracking text} {skip : Option CharClass} {p : Step α}
  {meaning : Meaning α} {ctx before back further : Context} {n k : Nat} {saved : List Nat}

/-- An attempt that has come to nothing leaves the run where it was. -/
theorem stands_of_attempt (h : t.Simulates skip p meaning) (stands : t.Stands skip ctx n saved)
    (failed : p.attempt ctx = .ok none back) : t.Stands skip back n saved := by
  have tried := agrees_attempt h stands
  rw [failed] at tried
  generalize meaning ⟨text, skip⟩ n = expected at tried
  rcases expected with e | ⟨o, m⟩
  · cases tried
  · simp only [Except.map] at tried
    by_cases success : o.isSuccessful = true
    · rw [if_pos success] at tried
      cases tried
    · rw [if_neg success] at tried
      cases tried with
      | ok ahead here => exact here

/-- Reading a character leaves the run one character further. -/
theorem stands_of_read {c : Char} (stands : t.Stands skip ctx n saved)
    (read : Context.reading Cursor.read ctx = .ok (some c) further) :
    t.Stands skip further (n + 1) saved := by
  cases hfound : text[n]? with
  | none =>
      have went := Agrees.reading stands (yields_read_end stands.cursor hfound) (Nat.le_refl n)
      rw [read] at went
      cases went
  | some c =>
      have went := Agrees.reading stands (yields_read stands.cursor hfound) (Nat.le_succ n)
      rw [read] at went
      cases went with
      | ok ahead here => exact here

/-- Each try begins where the search would be if it had only read one character for each try before,
and the rest of the search is the search from there. -/
theorem stands_of_tries (h : t.Simulates skip p meaning) (stands : t.Stands skip ctx n saved)
    (tries : p.Tries ctx k before) :
    t.Stands skip before (n + k) saved ∧ p.skipTo ctx = p.skipTo before := by
  induction tries with
  | first => exact ⟨stands, rfl⟩
  | @next k before back further c tries failed read ih =>
      obtain ⟨here, search⟩ := ih
      have there := stands_of_read (stands_of_attempt h here failed) read
      refine ⟨there, search.trans ?_⟩
      have fewer : further.size < before.size := by
        have one := t.size here.cursor
        have other := t.size there.cursor
        unfold Context.size
        omega
      rw [Step.skipTo, failed]
      simp only [read]
      exact if_pos fewer

end Tracking

namespace Grammar

variable {g : Grammar ρ} {target : Parser ρ α} {source : Source} {ctx : Context}

/-- What a target means within a search that allows for deeper nesting is what its runs report, but for
the place at which a run that would not end is given up. -/
theorem report_within_search {w : Setting} {n k : Nat} (within : w.passOver n + k ≤ w.text.length)
    (ahead : n ≤ w.passOver n) (faultless : source.faults = []) {there : Context}
    (reached : there.cursor.Reachable source) (same : w = ⟨source.chars, there.skip⟩)
    (index : there.position.index = w.passOver n + k) :
    ((target.meaning (g.callMeaning (g.all.length * (w.left n + 1) + 1))).report w
      (w.passOver n + k)).Matches (g.report target there) := by
  have fewer : w.left (w.passOver n + k) ≤ w.left n := by
    unfold Setting.left
    omega
  have deep : g.all.length * (w.left (w.passOver n + k) + 1) + 1 ≤
      g.all.length * (w.left n + 1) + 1 := by
    exact Nat.succ_le_succ (Nat.mul_le_mul_left _ (Nat.succ_le_succ fewer))
  rw [g.report_of_reachable target faultless reached, index, ← same]
  exact g.report_meaning target within deep

/-- A run that comes to an outcome leaves the marks as they were. -/
theorem marks_of_parse {rd : Reader} {p : Parser ρ α} {o : Outcome α} {after : Context}
    (h : ctx.cursor.Follows rd []) (ran : g.parse p ctx = .ok o after) :
    after.cursor.marks = ctx.cursor.marks := by
  have agrees := g.parse_agrees p h
  rw [ran] at agrees
  generalize g.meaning p _ _ = expected at agrees
  cases agrees with
  | ok _ here => exact (Tracking.at_following_nil.mp here.cursor).marks.trans h.marks.symm

/-- Each try of a search follows a reader that has read one character for each try before. -/
theorem follows_of_tries {rd : Reader} {name : String} {entered : Position} {inside before : Context}
    {depth k : Nat} (h : ctx.cursor.Follows rd []) (ran : ctx.enter name = .ok entered inside)
    (tries : (target.run (g.call depth)).Tries inside k before) :
    before.cursor.Follows
        { rd with index := Setting.passOver ⟨rd.text, ctx.skip⟩ rd.index + k } [] ∧
      before.skip = ctx.skip ∧
      (target.run (g.call depth)).skipTo inside = (target.run (g.call depth)).skipTo before := by
  obtain ⟨-, here⟩ := Tracking.stands_of_enter (Tracking.stands_of_follows h) ran
  have simulates : (Tracking.following rd.text []).Simulates ctx.skip
      (target.run (g.call depth)) (target.meaning (g.callMeaning depth)) :=
    Tracking.simulates_run (fun r => Tracking.simulates_call g depth r) target
  obtain ⟨there, search⟩ := Tracking.stands_of_tries simulates here tries
  exact ⟨Tracking.at_following_nil.mp there.cursor, there.skip, search⟩

/-- A search comes to what the first run of its target comes to that does not fail, among those from
each place behind the characters to pass over. If all fail, it fails at the end of the text, and does
not rule out other alternatives. Its tries begin one character apart, with the marks that were there
before. -/
theorem report_skipTo (faultless : source.faults = []) (g : Grammar ρ) (target : Parser ρ α)
    (reached : ctx.cursor.Reachable source) :
    let text := source.chars
    let start := Setting.passOver ⟨text, ctx.skip⟩ ctx.position.index
    ∀ there : Nat → Context,
      (∀ k ≤ text.length - start, (there k).cursor.Reachable source ∧ (there k).skip = ctx.skip ∧
        (there k).position.index = start + k) →
      (∀ k ≤ text.length - start, (∀ j < k, (g.report target (there j)).Fails) →
        match g.report target (there k) with
        | .error (e, stop) => ∃ stop', g.report (.skipTo target) ctx = .error (e, stop') ∧
            (e ≠ .endlessRecursion → stop' = stop)
        | .ok (o, stop) => o.isSuccessful = true → g.report (.skipTo target) ctx =
            .ok (o.withSpan ⟨.ofIndex text start, stop⟩, stop)) ∧
      ((∀ k ≤ text.length - start, (g.report target (there k)).Fails) →
        g.report (.skipTo target) ctx =
          .ok (⟨.error "expected token not found.", true,
              some ⟨.ofIndex text start, .ofIndex text text.length⟩⟩, .ofIndex text text.length)) ∧
      (∀ o after, g.parse (.skipTo target) ctx = .ok o after →
        after.cursor.marks = ctx.cursor.marks) ∧
      ∃ saved, ctx.cursor.Follows ⟨text, ctx.position.index, saved⟩ [] ∧
        ∀ depth entered inside, ctx.enter "SkipTo" = .ok entered inside →
          ∀ k before, (target.run (g.call depth)).Tries inside k before →
            before.cursor.Follows ⟨text, start + k, saved⟩ [] ∧ before.skip = ctx.skip ∧
              before.cursor.marks = ctx.cursor.marks ∧
              (target.run (g.call depth)).skipTo inside =
                (target.run (g.call depth)).skipTo before := by
  intro text start there offsets
  obtain ⟨saved, follows⟩ := reached.follows faultless
  have within : ctx.position.index ≤ text.length := follows.ordered.within
  let w : Setting := ⟨text, ctx.skip⟩
  obtain ⟨ahead, inside⟩ := w.passOver_bounds within
  have stays {k : Nat} (hk : k ≤ text.length - start) : start + k ≤ text.length := by
    have : start ≤ text.length := inside
    omega
  have tried (k : Nat) (hk : k ≤ text.length - start) :
      ((target.meaning (g.callMeaning (g.all.length * (w.left ctx.position.index + 1) + 1))).report w
        (start + k)).Matches (g.report target (there k)) := by
    obtain ⟨reached', skip, index⟩ := offsets k hk
    exact report_within_search (stays hk) ahead faultless reached' (by rw [skip]) index
  have same : g.report (.skipTo target) ctx = _ :=
    g.report_of_reachable (.skipTo target) faultless reached
  rw [same]
  refine ⟨fun k hk fails => ?_, fun fails => ?_, fun _ _ => marks_of_parse follows, saved, follows, ?_⟩
  · have search := Meaning.report_framed_skipTo
      (fun j hj => (tried j (by omega)).fails (fails j hj)) (stays hk)
    -- within the search the target has more depth, which matters only where it would not end
    have alike := tried k hk
    generalize g.report target (there k) = reported at alike ⊢
    generalize Meaning.report _ w (start + k) = meant at alike search
    cases alike with
    | same =>
        obtain ⟨e, stop⟩ | ⟨o, stop⟩ := reported
        · exact ⟨stop, search, fun _ => rfl⟩
        · exact search
    | endless stop stop' => exact ⟨stop, search, fun ends => absurd rfl ends⟩
  · exact Meaning.report_framed_skipTo_none inside fun k hk => (tried k hk).fails (fails k hk)
  · intro depth entered inside' ran k before tries
    obtain ⟨follows', skip, search⟩ := follows_of_tries follows ran tries
    exact ⟨follows', skip, follows'.marks.trans follows.marks.symm, search⟩

/-- A target that is committed behind an "a". It fails at its first place, having read up to the next
but one, and succeeds at its second one. -/
theorem report_skipTo_behind_a_commitment :
    let source := Source.ofItems [.char ' ', .char 'a', .char ' ', .char 'a', .char 'b']
    let target : Parser (fun _ => Empty) Unit := .andThen (.cut (.exact 'a')) (.exact 'b')
    let skip : Option CharClass := some (.between ' ' ' ')
    let ctx := Context.ofCursor (.ofSource source) skip false
    let there (k : Nat) := Context.ofCursor
      ((Cursor.ofSource source).performAll (List.replicate (1 + k) .read)).2 skip false
    source.faults = [] ∧ ctx.cursor.Reachable source ∧ (withoutRules.report target (there 0)).Fails ∧
      withoutRules.report (.skipTo target) ctx =
        .ok (⟨.ok (), false, some ⟨⟨1, 2, 1⟩, ⟨1, 6, 5⟩⟩⟩, ⟨1, 6, 5⟩) := by
  intro source target skip ctx there
  have reached : ctx.cursor.Reachable source := .start
  have places (k : Nat) (hk : k ≤ 4) : (there k).cursor.Reachable source ∧
      (there k).skip = ctx.skip ∧ (there k).position.index = 1 + k := by
    refine ⟨Cursor.Reachable.performAll .start _, rfl, ?_⟩
    have index : ∀ k ≤ 4, (there k).position.index = 1 + k := by decide
    exact index k hk
  have fails : (withoutRules.report target (there 0)).Fails := ⟨_, _, by cbv, rfl⟩
  have found : withoutRules.report target (there 1) =
      .ok (⟨.ok (), false, some ⟨⟨1, 4, 3⟩, ⟨1, 6, 5⟩⟩⟩, ⟨1, 6, 5⟩) := by
    cbv
  have first := (report_skipTo rfl withoutRules target reached there places).1 1 (by decide)
  rw [found] at first
  refine ⟨rfl, reached, fails, first (fun j hj => ?_) rfl⟩
  rw [Nat.lt_one_iff.mp hj]
  exact fails

/-- A target that ends the run at its first place, and would succeed at its second one. -/
theorem report_skipTo_refused :
    let source := Source.ofItems [.char 'a', .char '1']
    let digit (c : Char) := match Text.digitValue? 10 c with
      | some value => Except.ok value
      | none => .error "invalid digit found in string"
    let target : Parser (fun _ => Empty) Nat :=
      .tryMapRaising digit (.letter ⟨"Letter", none, some, "character expected."⟩)
    let ctx := Context.ofCursor (.ofSource source) none false
    let further := Context.ofCursor ((Cursor.ofSource source).perform .read).2 none false
    let refused : Report Nat := .error (.mapping "invalid digit found in string", ⟨1, 2, 1⟩)
    source.faults = [] ∧ withoutRules.report target ctx = refused ∧
      withoutRules.report target further =
        .ok (⟨.ok 1, true, some ⟨⟨1, 2, 1⟩, ⟨1, 3, 2⟩⟩⟩, ⟨1, 3, 2⟩) ∧
      withoutRules.report (.skipTo target) ctx = refused := by
  intro source digit target ctx further refused
  refine ⟨rfl, rfl, rfl, ?_⟩
  rw [withoutRules.report_of_reachable (.skipTo target) rfl .start]
  exact Meaning.report_framed_skipTo (p := withoutRules.meaning target)
    (w := ⟨source.chars, none⟩) (n := 0) (k := 0) (fun _ hj => absurd hj (Nat.not_lt_zero _))
    (Nat.zero_le _)

end Grammar

end TextGrammar
