import TextGrammar.Proofs.Refinement.Report

set_option autoImplicit false

/-! # What a run comes to, apart from how

A run is seen by its status and by where it ends; what its outcome covers and what the trace holds is
left out. Each form in which parsers are put together has a few equations for this, and one more thing
to be known of its parts: whether a failure lets the choice around it go back. -/

namespace TextGrammar

variable {ρ : Type → Type} {α β : Type}

/-- The status of a run and the position at which it ends. After an error there is only the error. -/
abbrev Conclusion (α : Type) := Except ParseError (Except String α × Position)

/-- What is reported, without the flag, the span and the place of an error. -/
def Report.conclusion (r : Report α) : Conclusion α :=
  match r with
  | .ok (o, stop) => .ok (o.status, stop)
  | .error (e, _) => .error e

theorem Report.Matches.conclusion_eq {r r' : Report α} (h : r.Matches r') :
    r.conclusion = r'.conclusion := by
  cases h <;> rfl

/-- The conclusion of a run. -/
def Running.conclusion : EStateM.Result ParseError Context (Outcome α) → Conclusion α
  | .ok o ctx => .ok (o.status, ctx.position)
  | .error e _ => .error e

theorem Running.conclusion_eq_report (result : EStateM.Result ParseError Context (Outcome α)) :
    Running.conclusion result = (Running.report result).conclusion := by
  cases result <;> rfl

namespace Meaning

variable {p q : Meaning α} {next : α → Meaning β} {w : Setting} {n m k : Nat} {a : α}
  {status : Except String α} {message : String} {backtrack : Bool} {e : ErrorAt}

/-- The conclusion of a meaning. -/
def conclusion (p : Meaning α) (w : Setting) (n : Nat) : Conclusion α :=
  match p w n with
  | .ok (o, m) => .ok (o.status, .ofIndex w.text m)
  | .error e => .error e.1

theorem conclusion_eq_report (p : Meaning α) (w : Setting) (n : Nat) :
    p.conclusion w n = (p.report w n).conclusion := by
  unfold conclusion report
  cases p w n <;> rfl

/-- The meaning comes to an outcome at a number; what the outcome covers is left open. -/
def ComesTo (p : Meaning α) (w : Setting) (n : Nat) (status : Except String α) (backtrack : Bool)
    (m : Nat) : Prop :=
  ∃ span, p w n = .ok (⟨status, backtrack, span⟩, m)

/-- The meaning comes to a failure behind which a choice goes back. -/
def FailsSoftly (p : Meaning α) (w : Setting) (n : Nat) : Prop :=
  ∃ message m, p.ComesTo w n (.error message) true m

/-- A meaning comes to a success, to a failure or to an error. -/
theorem comesTo_cases (p : Meaning α) (w : Setting) (n : Nat) :
    (∃ a backtrack m, p.ComesTo w n (.ok a) backtrack m) ∨
      (∃ message backtrack m, p.ComesTo w n (.error message) backtrack m) ∨ ∃ e, p w n = .error e := by
  rcases came : p w n with e | ⟨⟨status, backtrack, span⟩, m⟩
  · exact .inr (.inr ⟨e, rfl⟩)
  · cases status with
    | ok a => exact .inl ⟨a, backtrack, m, span, came⟩
    | error message => exact .inr (.inl ⟨message, backtrack, m, span, came⟩)

theorem ComesTo.eq {status' : Except String α} {backtrack' : Bool}
    (h : p.ComesTo w n status backtrack m) (h' : p.ComesTo w n status' backtrack' k) :
    status = status' ∧ backtrack = backtrack' ∧ m = k := by
  obtain ⟨span, came⟩ := h
  obtain ⟨span', came'⟩ := h'
  cases came.symm.trans came'
  exact ⟨rfl, rfl, rfl⟩

theorem ComesTo.conclusion (h : p.ComesTo w n status backtrack m) :
    p.conclusion w n = .ok (status, .ofIndex w.text m) := by
  obtain ⟨span, came⟩ := h
  unfold Meaning.conclusion
  rw [came]

theorem conclusion_of_error (h : p w n = .error e) : p.conclusion w n = .error e.1 := by
  unfold conclusion
  rw [h]

theorem FailsSoftly.conclusion (h : p.FailsSoftly w n) :
    ∃ message m, p.conclusion w n = .ok (.error message, .ofIndex w.text m) := by
  obtain ⟨message, m, came⟩ := h
  exact ⟨message, m, came.conclusion⟩

theorem ComesTo.not_failsSoftly (h : p.ComesTo w n status backtrack m)
    (hard : status.isOk = true ∨ backtrack = false) : ¬p.FailsSoftly w n := by
  rintro ⟨message, k, soft⟩
  obtain ⟨rfl, rfl, -⟩ := h.eq soft
  simp [Except.isOk, Except.toBool] at hard

/-! ## Entering, mapping and committing -/

theorem framed_passOver (body : Meaning α) (w : Setting) (n : Nat) :
    framed body w (w.passOver n) = framed body w n := by
  simp [framed]

/-- The outcome of a parser covers what lies between where it was entered and where it has ended. -/
theorem span_of_framed {body : Meaning α} {o : Outcome α} (h : framed body w n = .ok (o, m)) :
    o.span = some (w.span (w.passOver n) m) := by
  simp only [framed] at h
  rcases ran : body w (w.passOver n) with e | ⟨inner, stop⟩
  · rw [ran] at h
    cases h
  · rw [ran] at h
    cases h
    rfl

theorem comesTo_framed (body : Meaning α) :
    (framed body).ComesTo w n status backtrack m ↔
      body.ComesTo w (w.passOver n) status backtrack m := by
  simp only [ComesTo, framed]
  generalize body w (w.passOver n) = came
  rcases came with e | ⟨o, stop⟩
  · simp [Except.map]
  · constructor
    · rintro ⟨span, covered⟩
      cases covered
      exact ⟨o.span, rfl⟩
    · rintro ⟨span, same⟩
      cases same
      exact ⟨_, rfl⟩

theorem framed_eq_error {body : Meaning α} (h : body w (w.passOver n) = .error e) :
    framed body w n = .error e := by
  simp only [framed, h]
  rfl

theorem conclusion_framed (body : Meaning α) (w : Setting) (n : Nat) :
    (framed body).conclusion w n = body.conclusion w (w.passOver n) := by
  simp only [conclusion, framed]
  generalize body w (w.passOver n) = came
  rcases came with e | ⟨o, stop⟩
  · rfl
  · rfl

theorem failsSoftly_framed (body : Meaning α) :
    (framed body).FailsSoftly w n ↔ body.FailsSoftly w (w.passOver n) := by
  unfold FailsSoftly
  simp only [comesTo_framed]

@[simp] theorem map_id (p : Meaning α) : p.map id = p := by
  have same : (Outcome.map id : Outcome α → Outcome α) = id := by
    funext o
    show Outcome.mk (o.status.map id) o.backtrack o.span = o
    rw [Except.map_id]
    rfl
  funext w n
  unfold map mapOutcome
  rw [same]
  exact congrFun Except.map_id (p w n)

theorem ComesTo.commit (h : p.ComesTo w n (.ok a) backtrack m) :
    (p.mapOutcome Outcome.commit).ComesTo w n (.ok a) false m := by
  obtain ⟨span, came⟩ := h
  exact ⟨span, by simp only [mapOutcome, came]; rfl⟩

theorem ComesTo.commit_failure (h : p.ComesTo w n (.error message) backtrack m) :
    (p.mapOutcome Outcome.commit).ComesTo w n (.error message) backtrack m := by
  obtain ⟨span, came⟩ := h
  exact ⟨span, by simp only [mapOutcome, came]; rfl⟩

theorem mapOutcome_eq_error (f : Outcome α → Outcome β) (h : p w n = .error e) :
    p.mapOutcome f w n = .error e := by
  simp only [mapOutcome, h]
  rfl

/-! ## One after another -/

theorem ComesTo.flatMap_failure (h : p.ComesTo w n (.error message) backtrack m) :
    (p.flatMap next).ComesTo w n (.error message) backtrack m := by
  obtain ⟨span, came⟩ := h
  exact ⟨none, by simp only [flatMap, came]; rfl⟩

theorem flatMap_eq_error (h : p w n = .error e) : p.flatMap next w n = .error e := by
  simp only [flatMap, h]
  rfl

/-- Behind a success, the whole comes to what the rest comes to from there. -/
theorem ComesTo.conclusion_flatMap (h : p.ComesTo w n (.ok a) backtrack m) :
    (p.flatMap next).conclusion w n = (next a).conclusion w m := by
  obtain ⟨span, came⟩ := h
  unfold Meaning.conclusion
  simp only [flatMap, came]
  rcases behind : next a w m with e | ⟨second, k⟩
  · simp only [bind, Except.bind, behind]
  · simp only [bind, Except.bind, behind]
    rfl

/-- Behind a commitment there is no soft failure. -/
theorem ComesTo.not_failsSoftly_flatMap (h : p.ComesTo w n (.ok a) false m) :
    ¬(p.flatMap next).FailsSoftly w n := by
  obtain ⟨span, came⟩ := h
  rintro ⟨message, k, _, failed⟩
  simp only [flatMap, came] at failed
  rcases behind : next a w m with e | ⟨second, stop⟩
  · simp only [bind, Except.bind, behind] at failed
    cases failed
  · simp only [bind, Except.bind, behind, Bool.false_and, Outcome.allowBacktrack] at failed
    simp at failed

/-! ## Choosing -/

/-- A soft failure lets the second side decide, from the same place. -/
theorem FailsSoftly.conclusion_choose (h : p.FailsSoftly w n) :
    (p.choose q).conclusion w n = q.conclusion w n := by
  obtain ⟨message, m, span, failed⟩ := h
  unfold Meaning.conclusion
  rcases came : q w n with e | ⟨second, k⟩
  · rw [choose_eq_second_error failed Bool.false_ne_true came]
  · rw [choose_eq_second failed Bool.false_ne_true came]
    rfl

/-- Everything else is what the choice comes to. -/
theorem conclusion_choose_of_not_failsSoftly (decided : ¬p.FailsSoftly w n) :
    (p.choose q).conclusion w n = p.conclusion w n := by
  unfold conclusion
  rcases came : p w n with e | ⟨⟨status, backtrack, span⟩, m⟩
  · rw [choose_eq_error came]
  · have final : ((⟨status, backtrack, span⟩ : Outcome α).isSuccessful || !backtrack) = true := by
      cases status with
      | ok a => rfl
      | error message =>
          cases backtrack with
          | false => rfl
          | true => exact absurd ⟨message, m, span, came⟩ decided
    rw [choose_eq_first came final]
    rfl

/-- A choice is never committed, so that it fails softly if it fails. -/
theorem ComesTo.failsSoftly_choose
    (h : (p.choose q).ComesTo w n (.error message) backtrack m) : (p.choose q).FailsSoftly w n := by
  obtain ⟨span, failed⟩ := h
  suffices backtrack = true from ⟨message, m, span, this ▸ failed⟩
  unfold choose at failed
  rcases came : p w n with e | ⟨first, k⟩
  · rw [came] at failed
    cases failed
  · rw [came] at failed
    replace failed : (if first.isSuccessful || !first.backtrack then _ else _) = _ := failed
    split at failed
    · exact (congrArg (·.1.backtrack) (Except.ok.inj failed)).symm
    · rcases came' : q w n with e | ⟨second, l⟩
      · rw [came'] at failed
        cases failed
      · rw [came'] at failed
        exact (congrArg (·.1.backtrack) (Except.ok.inj failed)).symm

/-- What should not succeed lets nothing through if it does. -/
theorem ComesTo.not_of_success {p : Meaning Unit} (h : p.ComesTo w n (.ok ()) backtrack m) :
    (Meaning.not p).ComesTo w n (.error Step.invalidToken) true n := by
  obtain ⟨span, came⟩ := h
  exact ⟨none, by simp only [Meaning.not, came]; rfl⟩

theorem ComesTo.not_of_failure {p : Meaning Unit}
    (h : p.ComesTo w n (.error message) backtrack m) :
    (Meaning.not p).ComesTo w n (.ok ()) true n := by
  obtain ⟨span, came⟩ := h
  exact ⟨none, by simp only [Meaning.not, came]; rfl⟩

end Meaning

namespace Parser

open Meaning

variable (call : {β : Type} → ρ β → Meaning β)

/-! ## Parsers of no value -/

section

variable (p : Parser ρ α) {w : Setting} {n m : Nat} {status : Except String α} {backtrack : Bool}

/-- A parser is entered behind the characters to pass over, so it may as well begin there. -/
@[simp] theorem meaning_passOver (w : Setting) (n : Nat) :
    p.meaning call w (w.passOver n) = p.meaning call w n :=
  framed_passOver _ w n

@[simp] theorem comesTo_passOver :
    (p.meaning call).ComesTo w (w.passOver n) status backtrack m ↔
      (p.meaning call).ComesTo w n status backtrack m := by
  simp [ComesTo]

@[simp] theorem failsSoftly_passOver :
    (p.meaning call).FailsSoftly w (w.passOver n) ↔ (p.meaning call).FailsSoftly w n := by
  simp [FailsSoftly]

@[simp] theorem conclusion_passOver :
    (p.meaning call).conclusion w (w.passOver n) = (p.meaning call).conclusion w n := by
  simp [conclusion]

theorem meaning_or (q : Parser ρ α) :
    (Parser.or p q).meaning call = framed ((p.meaning call).choose (q.meaning call)) := by
  show framed (((p.meaning call).map id).choose ((q.meaning call).map id)) = _
  rw [map_id, map_id]

end

variable {call} {p q : Parser ρ Unit} {w : Setting} {n m : Nat} {message : String}
  {backtrack : Bool} {e : ErrorAt}

theorem meaning_andThen :
    (andThen p q).meaning call = framed ((p.meaning call).flatMap fun _ => q.meaning call) := by
  show framed ((p.meaning call).flatMap fun _ => (q.meaning call).map id) = _
  rw [map_id]

theorem conclusion_or_of_failsSoftly (h : (p.meaning call).FailsSoftly w n) :
    ((Parser.or p q).meaning call).conclusion w n = (q.meaning call).conclusion w n := by
  rw [meaning_or, conclusion_framed,
    FailsSoftly.conclusion_choose ((failsSoftly_passOver call p).mpr h), conclusion_passOver]

theorem conclusion_or_of_not_failsSoftly (h : ¬(p.meaning call).FailsSoftly w n) :
    ((Parser.or p q).meaning call).conclusion w n = (p.meaning call).conclusion w n := by
  rw [meaning_or, conclusion_framed,
    conclusion_choose_of_not_failsSoftly (mt (failsSoftly_passOver call p).mp h),
    conclusion_passOver]

theorem failsSoftly_or_of_failure
    (h : ((Parser.or p q).meaning call).ComesTo w n (.error message) backtrack m) :
    ((Parser.or p q).meaning call).FailsSoftly w n := by
  rw [meaning_or] at h ⊢
  rw [failsSoftly_framed]
  exact ((comesTo_framed _).mp h).failsSoftly_choose

theorem conclusion_andThen (h : (p.meaning call).ComesTo w n (.ok ()) backtrack m) :
    ((andThen p q).meaning call).conclusion w n = (q.meaning call).conclusion w m := by
  rw [meaning_andThen, conclusion_framed, ((comesTo_passOver call p).mpr h).conclusion_flatMap]

theorem comesTo_andThen_of_failure
    (h : (p.meaning call).ComesTo w n (.error message) backtrack m) :
    ((andThen p q).meaning call).ComesTo w n (.error message) backtrack m := by
  rw [meaning_andThen, comesTo_framed]
  exact ((comesTo_passOver call p).mpr h).flatMap_failure

theorem not_failsSoftly_andThen (h : (p.meaning call).ComesTo w n (.ok ()) false m) :
    ¬((andThen p q).meaning call).FailsSoftly w n := by
  rw [meaning_andThen, failsSoftly_framed]
  exact ((comesTo_passOver call p).mpr h).not_failsSoftly_flatMap

theorem meaning_andThen_eq_error (h : p.meaning call w n = .error e) :
    (andThen p q).meaning call w n = .error e := by
  rw [meaning_andThen]
  exact framed_eq_error (flatMap_eq_error ((meaning_passOver call p w n).trans h))

theorem comesTo_cut (h : (p.meaning call).ComesTo w n (.ok ()) backtrack m) :
    ((Parser.cut p).meaning call).ComesTo w n (.ok ()) false m :=
  (comesTo_framed _).mpr ((comesTo_passOver call p).mpr h).commit

theorem comesTo_cut_of_failure (h : (p.meaning call).ComesTo w n (.error message) backtrack m) :
    ((Parser.cut p).meaning call).ComesTo w n (.error message) backtrack m :=
  (comesTo_framed _).mpr ((comesTo_passOver call p).mpr h).commit_failure

theorem meaning_cut_eq_error (h : p.meaning call w n = .error e) :
    (Parser.cut p).meaning call w n = .error e :=
  framed_eq_error (mapOutcome_eq_error _ ((meaning_passOver call p w n).trans h))

theorem comesTo_not_of_success (h : (p.meaning call).ComesTo w n (.ok ()) backtrack m) :
    ((Parser.not p).meaning call).ComesTo w n (.error Step.invalidToken) true (w.passOver n) :=
  (comesTo_framed _).mpr ((comesTo_passOver call p).mpr h).not_of_success

theorem comesTo_not_of_failure (h : (p.meaning call).ComesTo w n (.error message) backtrack m) :
    ((Parser.not p).meaning call).ComesTo w n (.ok ()) true (w.passOver n) :=
  (comesTo_framed _).mpr ((comesTo_passOver call p).mpr h).not_of_failure

end Parser

namespace Grammar

variable {g : Grammar ρ} {p : Parser ρ α} {ctx : Context} {r : Reader}

/-! ## Runs -/

/-- A run has the conclusion of the meaning at the number that the cursor has read. -/
theorem conclusion_parse (h : ctx.cursor.Follows r []) :
    Running.conclusion (g.parse p ctx) = (g.meaning p).conclusion ⟨r.text, ctx.skip⟩ r.index := by
  have reported : Running.report (g.parse p ctx) = _ := g.report_eq_meaning p h
  rw [Running.conclusion_eq_report, Meaning.conclusion_eq_report, reported]

/-- More depth of nesting than a run allows for changes nothing in its conclusion. -/
theorem conclusion_meaning (g : Grammar ρ) (p : Parser ρ α) {w : Setting} {n depth : Nat}
    (within : n ≤ w.text.length) (deep : g.all.length * (w.left n + 1) + 1 ≤ depth) :
    (p.meaning (g.callMeaning depth)).conclusion w n = (g.meaning p).conclusion w n := by
  rw [Meaning.conclusion_eq_report, Meaning.conclusion_eq_report,
    (g.report_meaning p within deep).conclusion_eq]

end Grammar

end TextGrammar
