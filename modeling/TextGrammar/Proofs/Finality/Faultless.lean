import TextGrammar.Meaning.Grammar

set_option autoImplicit false

/-! # What a parser means is never a fault

The meaning of a parser is about a text, and a text does not fail. All errors that a parser can mean
are refusals of its own conversions and a recursion without end. -/

namespace TextGrammar

namespace Meaning

variable {α β γ : Type}

/-- The result is not a fault of a source. -/
inductive Faultless {α : Type} : Except ErrorAt (α × Nat) → Prop where
  | ok {a : α} {m : Nat} : Faultless (.ok (a, m))
  | refused {message : String} {m : Nat} : Faultless (.error (.mapping message, m))
  | endless {m : Nat} : Faultless (.error (.endlessRecursion, m))

namespace Faultless

variable {x : Except ErrorAt (α × Nat)}

theorem map {f : α × Nat → β × Nat} (h : Faultless x) : Faultless (x.map f) := by
  cases h with
  | ok => exact .ok
  | refused => exact .refused
  | endless => exact .endless

theorem bind {f : α × Nat → Except ErrorAt (β × Nat)} (h : Faultless x)
    (next : ∀ a m, Faultless (f (a, m))) : Faultless (x >>= f) := by
  cases h with
  | ok => exact next _ _
  | refused => exact .refused
  | endless => exact .endless

end Faultless

/-- The part never comes to a fault. -/
def NeverFaults (p : PartMeaning α) : Prop :=
  ∀ w n, Faultless (p w n)

variable {p q : Meaning α}

/-! ## One after another -/

theorem neverFaults_mapOutcome (f : Outcome α → Outcome β) (h : NeverFaults p) :
    NeverFaults (p.mapOutcome f) :=
  fun w n => (h w n).map

theorem neverFaults_framed (h : NeverFaults p) : NeverFaults (framed p) :=
  fun w n => (h w (w.passOver n)).map

theorem neverFaults_flatMap {next : α → Meaning β} (h : NeverFaults p)
    (hnext : ∀ a, NeverFaults (next a)) : NeverFaults (p.flatMap next) := by
  intro w n
  refine (h w n).bind fun first m => ?_
  obtain ⟨status, backtrack, span⟩ := first
  cases status with
  | error message => exact .ok
  | ok value => exact (hnext value w m).bind fun _ _ => .ok

theorem neverFaults_tryMap (f : α → Except String β) (h : NeverFaults p) :
    NeverFaults (p.tryMap f) :=
  neverFaults_mapOutcome _ h

theorem neverFaults_tryMapRaising (f : α → Except String β) (h : NeverFaults p) :
    NeverFaults (p.tryMapRaising f) := by
  intro w n
  refine (h w n).bind fun o m => ?_
  obtain ⟨status, backtrack, span⟩ := o
  cases status with
  | error message => exact .ok
  | ok value =>
      cases mapped : f value with
      | error message =>
          simp only [mapped]
          exact .refused
      | ok result =>
          simp only [mapped]
          exact .ok

theorem neverFaults_capture {p : Meaning Unit} (h : NeverFaults p) : NeverFaults p.capture :=
  fun w n => (h w n).bind fun _ _ => .ok

/-! ## Trying -/

theorem neverFaults_choose (h : NeverFaults p) (h' : NeverFaults q) : NeverFaults (p.choose q) := by
  intro w n
  refine (h w n).bind fun first m => ?_
  show Faultless (if first.isSuccessful || !first.backtrack then _ else _)
  split
  · exact .ok
  · exact (h' w n).bind fun _ _ => .ok

theorem neverFaults_opt (present : α → β) (absent : β) (h : NeverFaults p) :
    NeverFaults (p.opt present absent) := by
  intro w n
  refine (h w n).bind fun o m => ?_
  show Faultless (if o.isSuccessful then _ else _)
  split
  · exact .ok
  · exact .ok

theorem neverFaults_lookahead {p : Meaning Unit} (h : NeverFaults p) : NeverFaults p.lookahead :=
  fun w n => (h w n).bind fun _ _ => .ok

theorem neverFaults_not {p : Meaning Unit} (h : NeverFaults p) : NeverFaults p.not :=
  fun w n => (h w n).bind fun _ _ => .ok

theorem neverFaults_skipTo (h : NeverFaults p) : NeverFaults p.skipTo := by
  intro w n
  have ran := h w n
  fun_induction skipTo p w n with
  | case1 n e failed =>
      rw [failed] at ran
      cases ran with
      | refused => exact .refused
      | endless => exact .endless
  | case2 => exact .ok
  | case3 => exact .ok
  | case4 n o m tried missed more ih => exact ih (h w (n + 1))

/-! ## Repetition -/

variable {separator : Option (Meaning Unit)}

theorem neverFaults_round (hseparator : ∀ s ∈ separator, NeverFaults s) (h : NeverFaults p)
    (add : β → α → β) (tally : Step.Tally β) : NeverFaults (round separator p add tally) := by
  have item (tally : Step.Tally β) (w : Setting) (n : Nat) :
      Faultless (round none p add tally w n) := by
    refine (h w n).bind fun o m => ?_
    obtain ⟨status, backtrack, span⟩ := o
    cases status with
    | error message => exact .ok
    | ok value => exact .ok
  intro w n
  obtain ⟨state, fresh, backtrack⟩ := tally
  cases separator with
  | none => exact item ⟨state, fresh, backtrack⟩ w n
  | some s =>
      cases fresh with
      | true => exact item ⟨state, true, backtrack⟩ w n
      | false =>
          refine (hseparator s rfl w n).bind fun before m => ?_
          obtain ⟨status, allowed, span⟩ := before
          cases status with
          | error message => exact .ok
          | ok _ =>
              have last := item ⟨state, false, backtrack && allowed⟩ w m
              cases backtrack <;> cases allowed <;> exact last

theorem neverFaults_required (hseparator : ∀ s ∈ separator, NeverFaults s) (h : NeverFaults p)
    (add : β → α → β) (k : Nat) (tally : Step.Tally β) :
    NeverFaults (required separator p add k tally) := by
  intro w n
  induction k generalizing n tally with
  | zero => exact .ok
  | succ k ih =>
      refine (neverFaults_round hseparator h add tally w n).bind fun round m => ?_
      cases round with
      | missed message backtrack tally => exact .ok
      | done tally => exact ih tally m

theorem neverFaults_upTo (isOpen : Bool) (hseparator : ∀ s ∈ separator, NeverFaults s)
    (h : NeverFaults p) (add : β → α → β) (k : Nat) (tally : Step.Tally β) :
    NeverFaults (upTo isOpen separator p add k tally) := by
  intro w n
  induction k generalizing n tally with
  | zero => exact .ok
  | succ k ih =>
      refine (neverFaults_round hseparator h add tally w n).bind fun round m => ?_
      cases round with
      | missed message backtrack tally => exact .ok
      | done tally =>
          simp only
          split
          · exact .ok
          · exact ih tally m

theorem neverFaults_repeated (bounds : Repeat) (hseparator : ∀ s ∈ separator, NeverFaults s)
    (h : NeverFaults p) (add : β → α → β) (start : β) :
    NeverFaults (repeated bounds separator p add start) := by
  intro w n
  refine (neverFaults_required hseparator h add bounds.min.toNat (.start start) w n).bind
    fun round m => ?_
  cases round with
  | missed message backtrack tally => exact .ok
  | done tally =>
      exact (neverFaults_upTo bounds.isOpen hseparator h add bounds.room tally w m).bind
        fun _ _ => .ok

/-! ## Parsers -/

theorem neverFaults_one (accept : Char → Option α) (message : Option Char → String) :
    NeverFaults (one accept message) := by
  intro w n
  unfold one
  split
  · exact .ok
  · exact .ok

theorem neverFaults_candidates (ks : List KeywordSet.Candidate) (offset : Nat) :
    NeverFaults (candidates ks offset) := by
  intro w n
  induction ks generalizing offset with
  | nil => exact .ok
  | cons k ks ih =>
      simp only [candidates]
      split
      · exact .ok
      · split
        · exact ih _
        · exact .ok

theorem neverFaults_primitive (p : Primitive) : NeverFaults (primitive p) := by
  cases p with
  | exact c => exact neverFaults_one _ _
  | charIn members => exact neverFaults_one _ _
  | charsWhileIn members min => exact fun _ _ => .ok
  | space min => exact fun _ _ => .ok
  | eof => exact fun _ _ => .ok
  | bof =>
      intro w n
      simp only [primitive]
      split
      · exact .ok
      · exact .ok
  | keyword k =>
      intro w n
      simp only [primitive, keyword]
      split
      · exact .ok
      · exact .ok
  | keywordIn s => exact neverFaults_candidates s.candidates 0

end Meaning

variable {ρ : Type → Type} {α : Type}

theorem Parser.neverFaults_bodyMeaning {call : {β : Type} → ρ β → Meaning β}
    (hcall : ∀ {β : Type} (r : ρ β), Meaning.NeverFaults (call r)) (p : Parser ρ α) :
    Meaning.NeverFaults (p.bodyMeaning call) := by
  open Meaning in
  induction p with
  | primitive p => exact neverFaults_primitive p
  | letter l => exact neverFaults_one _ _
  | produce name value => exact fun _ _ => .ok
  | seq name combine first second ih ih' =>
      exact neverFaults_flatMap (neverFaults_framed ih)
        fun a => neverFaults_mapOutcome _ (neverFaults_framed ih')
  | choice name ofLeft ofRight left right ih ih' =>
      exact neverFaults_choose (neverFaults_mapOutcome _ (neverFaults_framed ih))
        (neverFaults_mapOutcome _ (neverFaults_framed ih'))
  | opt present absent inner ih => exact neverFaults_opt present absent (neverFaults_framed ih)
  | cut inner ih => exact neverFaults_mapOutcome _ (neverFaults_framed ih)
  | skipTo target ih => exact neverFaults_skipTo (neverFaults_framed ih)
  | lookahead inner ih => exact neverFaults_lookahead (neverFaults_framed ih)
  | not inner ih => exact neverFaults_not (neverFaults_framed ih)
  | iterate name bounds fold item ih =>
      exact neverFaults_mapOutcome _
        (neverFaults_repeated bounds (by simp) (neverFaults_framed ih) fold.add fold.start)
  | iterateSeparated name bounds fold separator item ih ih' =>
      exact neverFaults_mapOutcome _
        (neverFaults_repeated bounds (by simpa using neverFaults_framed ih) (neverFaults_framed ih')
          fold.add fold.start)
  | captureWith ofText inner ih =>
      exact neverFaults_mapOutcome _ (neverFaults_capture (neverFaults_framed ih))
  | mapped name f inner ih => exact neverFaults_mapOutcome _ (neverFaults_framed ih)
  | tryMap f inner ih => exact neverFaults_tryMap f (neverFaults_framed ih)
  | tryMapRaising f inner ih => exact neverFaults_tryMapRaising f (neverFaults_framed ih)
  | flatMap first next ih ih' =>
      exact neverFaults_flatMap (neverFaults_framed ih) fun a => neverFaults_framed (ih' a)
  | rule name r => exact hcall r

namespace Grammar

theorem neverFaults_callMeaning (g : Grammar ρ) (depth : Nat) (r : ρ α) :
    Meaning.NeverFaults (g.callMeaning depth r) := by
  induction depth generalizing α with
  | zero => exact fun _ _ => .endless
  | succ depth ih =>
      exact Meaning.neverFaults_framed (Parser.neverFaults_bodyMeaning (fun r => ih r) (g.define r))

/-- What a parser means is never a fault, however deeply rules may be nested. -/
theorem neverFaults_meaning (g : Grammar ρ) (p : Parser ρ α) (depth : Nat) :
    Meaning.NeverFaults (p.meaning (g.callMeaning depth)) :=
  Meaning.neverFaults_framed
    (Parser.neverFaults_bodyMeaning (fun r => g.neverFaults_callMeaning depth r) p)

end Grammar

end TextGrammar
