import TextGrammar.Meaning.Grammar
import TextGrammar.Proofs.Refinement.Primitive

set_option autoImplicit false

/-! # Allowing for deeper nesting

A meaning may be given up as endless because rules are nested too deeply in it. One that allows for
deeper nesting upholds it: where the first comes to an outcome or to a refused conversion, so does the
second, at the same number. This is kept by everything that parsers are put together with, and no
meaning ever goes back behind the number at which it began or beyond the text. -/

namespace TextGrammar

/-- Behind the characters to pass over there are no more of them. -/
@[simp] theorem Setting.passOver_passOver (w : Setting) (n : Nat) :
    w.passOver (w.passOver n) = w.passOver n := by
  have none_left (p : Char → Bool) (cs : List Char) :
      (cs.drop (cs.takeWhile p).length).takeWhile p = [] := by
    induction cs with
    | nil => rfl
    | cons c cs ih =>
        by_cases h : p c = true
        · simpa [h] using ih
        · simp [h]
  unfold passOver
  cases w.skip with
  | none => rfl
  | some skip =>
      show n + w.runLength skip.contains n + w.runLength skip.contains _ = _
      have behind : w.rest (n + w.runLength skip.contains n) =
          (w.rest n).drop ((w.rest n).takeWhile skip.contains).length := List.drop_drop.symm
      have empty : (w.rest (n + w.runLength skip.contains n)).takeWhile skip.contains = [] := by
        rw [behind]
        exact none_left _ _
      have none : w.runLength skip.contains (n + w.runLength skip.contains n) = 0 :=
        congrArg List.length empty
      rw [none, Nat.add_zero]

/-- Passing over goes forward and stays within the text. -/
theorem Setting.passOver_bounds (w : Setting) {n : Nat} (within : n ≤ w.text.length) :
    n ≤ w.passOver n ∧ w.passOver n ≤ w.text.length := by
  unfold passOver
  cases w.skip with
  | none => exact ⟨Nat.le_refl n, within⟩
  | some skip =>
      have run : w.runLength skip.contains n ≤ (w.text.drop n).length :=
        (List.takeWhile_sublist _).length_le
      rw [List.length_drop] at run
      show n ≤ n + w.runLength skip.contains n ∧ n + w.runLength skip.contains n ≤ w.text.length
      omega

namespace Meaning

variable {α β γ : Type} {w : Setting} {n start : Nat}

/-- What the first comes to, the second comes to as well, unless the first was given up as endless. -/
inductive Upheld (w : Setting) (n : Nat) {α : Type} :
    Except ErrorAt (α × Nat) → Except ErrorAt (α × Nat) → Prop where
  | ok {a : α} {m : Nat} (ahead : n ≤ m) (within : m ≤ w.text.length) :
      Upheld w n (.ok (a, m)) (.ok (a, m))
  | error {e : ErrorAt} : Upheld w n (.error e) (.error e)
  | endless {m : Nat} {result : Except ErrorAt (α × Nat)} :
      Upheld w n (.error (.endlessRecursion, m)) result

namespace Upheld

theorem since {m : Nat} {x y : Except ErrorAt (α × Nat)} (h : Upheld w m x y) (ahead : n ≤ m) :
    Upheld w n x y := by
  cases h with
  | ok later within => exact .ok (Nat.le_trans ahead later) within
  | error => exact .error
  | endless => exact .endless

/-- What comes next is upheld if it is from wherever the first ended. -/
theorem bind {x y : Except ErrorAt (α × Nat)} {f g : α × Nat → Except ErrorAt (β × Nat)}
    (h : Upheld w n x y)
    (next : ∀ a m, n ≤ m → m ≤ w.text.length → Upheld w n (f (a, m)) (g (a, m))) :
    Upheld w n (x >>= f) (y >>= g) := by
  cases h with
  | ok ahead within => exact next _ _ ahead within
  | error => exact .error
  | endless => exact .endless

end Upheld

/-- The second upholds the first wherever they begin, from a number on. -/
def UpheldFrom (w : Setting) (start : Nat) (p q : PartMeaning α) : Prop :=
  ∀ {n : Nat}, start ≤ n → n ≤ w.text.length → Upheld w n (p w n) (q w n)

/-! ## One after another -/

variable {p q p' q' : Meaning α}

theorem upheld_mapOutcome (f : Outcome α → Outcome β) (h : UpheldFrom w start p q) :
    UpheldFrom w start (p.mapOutcome f) (q.mapOutcome f) := by
  intro n since within
  have ran := h since within
  unfold mapOutcome
  generalize p w n = x at ran ⊢
  generalize q w n = y at ran ⊢
  cases ran with
  | ok ahead inside => exact .ok ahead inside
  | error => exact .error
  | endless => exact .endless

theorem upheld_map (f : α → β) (h : UpheldFrom w start p q) :
    UpheldFrom w start (p.map f) (q.map f) :=
  upheld_mapOutcome (Outcome.map f) h

theorem upheld_tryMap (f : α → Except String β) (h : UpheldFrom w start p q) :
    UpheldFrom w start (p.tryMap f) (q.tryMap f) :=
  upheld_mapOutcome _ h

theorem upheld_framed (h : UpheldFrom w start p q) :
    UpheldFrom w start (framed p) (framed q) := by
  intro n since within
  obtain ⟨ahead, inside⟩ := w.passOver_bounds within
  have ran := h (Nat.le_trans since ahead) inside
  unfold framed
  simp only
  generalize p w (w.passOver n) = x at ran ⊢
  generalize q w (w.passOver n) = y at ran ⊢
  cases ran with
  | ok later there => exact .ok (Nat.le_trans ahead later) there
  | error => exact .error
  | endless => exact .endless

theorem upheld_flatMap {next next' : α → Meaning β} (h : UpheldFrom w start p q)
    (hnext : ∀ a, UpheldFrom w start (next a) (next' a)) :
    UpheldFrom w start (p.flatMap next) (q.flatMap next') := by
  intro n since within
  refine (h since within).bind fun first m ahead inside => ?_
  obtain ⟨status, backtrack, span⟩ := first
  cases status with
  | error message => exact .ok ahead inside
  | ok value =>
      have second := (hnext value (Nat.le_trans since ahead) inside).since ahead
      exact second.bind fun _ _ later there => .ok later there

theorem upheld_seq {r r' : Meaning β} (combine : α → β → γ) (h : UpheldFrom w start p q)
    (h' : UpheldFrom w start r r') : UpheldFrom w start (p.seq combine r) (q.seq combine r') :=
  upheld_flatMap h fun a => upheld_map (combine a) h'

theorem upheld_tryMapRaising (f : α → Except String β) (h : UpheldFrom w start p q) :
    UpheldFrom w start (p.tryMapRaising f) (q.tryMapRaising f) := by
  intro n since within
  refine (h since within).bind fun o m ahead inside => ?_
  obtain ⟨status, backtrack, span⟩ := o
  cases status with
  | error message => exact .ok ahead inside
  | ok value =>
      rcases refused : f value with message | mapped
      · simp only [refused]
        exact .error
      · simp only [refused]
        exact .ok ahead inside

theorem upheld_capture {p q : Meaning Unit} (h : UpheldFrom w start p q) :
    UpheldFrom w start p.capture q.capture := by
  intro n since within
  exact (h since within).bind fun _ _ ahead inside => .ok ahead inside

/-! ## Trying -/

theorem upheld_choose (h : UpheldFrom w start p q) (h' : UpheldFrom w start p' q') :
    UpheldFrom w start (p.choose p') (q.choose q') := by
  intro n since within
  refine (h since within).bind fun first m ahead inside => ?_
  show Upheld w n (if first.isSuccessful || !first.backtrack then _ else _)
    (if first.isSuccessful || !first.backtrack then _ else _)
  by_cases final : (first.isSuccessful || !first.backtrack) = true
  · rw [if_pos final, if_pos final]
    exact .ok ahead inside
  · rw [if_neg final, if_neg final]
    exact (h' since within).bind fun _ _ later there => .ok later there

theorem upheld_opt (present : α → β) (absent : β) (h : UpheldFrom w start p q) :
    UpheldFrom w start (p.opt present absent) (q.opt present absent) := by
  intro n since within
  refine (h since within).bind fun o m ahead inside => ?_
  show Upheld w n (if o.isSuccessful then _ else _) (if o.isSuccessful then _ else _)
  by_cases success : o.isSuccessful = true
  · simp only [if_pos success]
    exact .ok ahead inside
  · simp only [if_neg success]
    exact .ok (Nat.le_refl n) within

theorem upheld_lookahead {p q : Meaning Unit} (h : UpheldFrom w start p q) :
    UpheldFrom w start p.lookahead q.lookahead := by
  intro n since within
  exact (h since within).bind fun _ _ _ _ => .ok (Nat.le_refl n) within

theorem upheld_not {p q : Meaning Unit} (h : UpheldFrom w start p q) :
    UpheldFrom w start p.not q.not := by
  intro n since within
  exact (h since within).bind fun _ _ _ _ => .ok (Nat.le_refl n) within

/-- The induction is on the number of characters left. -/
theorem upheld_skipTo (h : UpheldFrom w start p q) :
    UpheldFrom w start p.skipTo q.skipTo := by
  intro n since within
  induction hsize : w.text.length - n using Nat.strongRecOn generalizing n with
  | ind size ih =>
      have ran := h since within
      rw [skipTo.eq_def p, skipTo.eq_def q]
      generalize p w n = x at ran ⊢
      generalize q w n = y at ran ⊢
      cases ran with
      | error => exact .error
      | endless => exact .endless
      | @ok o m ahead inside =>
          by_cases success : o.isSuccessful = true
          · simp only [if_pos success]
            exact .ok ahead inside
          · by_cases atEnd : w.left n = 0
            · simp only [if_neg success, if_pos atEnd]
              exact .ok (Nat.le_refl n) within
            · have further : n < w.text.length := Nat.lt_of_sub_ne_zero atEnd
              simp only [if_neg success, if_neg atEnd]
              exact (ih _ (by omega) (Nat.le_succ_of_le since) further rfl).since (Nat.le_succ n)

/-! ## Repetition -/

/-- The separators are both missing, or the second upholds the first. -/
inductive UpheldOption (w : Setting) (start : Nat) :
    Option (Meaning Unit) → Option (Meaning Unit) → Prop where
  | none : UpheldOption w start none none
  | some {p q : Meaning Unit} (h : UpheldFrom w start p q) : UpheldOption w start (some p) (some q)

variable {separator separator' : Option (Meaning Unit)}

/-- The item of a round, behind its separator. -/
theorem upheld_item (h : UpheldFrom w start p q) (add : β → α → β) (tally : Step.Tally β)
    (since : start ≤ n) (within : n ≤ w.text.length) :
    let close (o : Outcome α) (m : Nat) : Except ErrorAt (Step.Round β × Nat) :=
      let backtrack := tally.backtrack && o.backtrack
      match o.status with
      | .error message => .ok (.missed message backtrack tally, m)
      | .ok value => .ok (.done ⟨add tally.state value, false, backtrack⟩, m)
    Upheld w n (p w n >>= fun (o, m) => close o m) (q w n >>= fun (o, m) => close o m) := by
  intro close
  refine (h since within).bind fun o m ahead inside => ?_
  obtain ⟨status, backtrack, span⟩ := o
  cases status with
  | error message => exact .ok ahead inside
  | ok value => exact .ok ahead inside

theorem upheld_round (hseparator : UpheldOption w start separator separator')
    (h : UpheldFrom w start p q) (add : β → α → β) (tally : Step.Tally β) :
    UpheldFrom w start (round separator p add tally) (round separator' q add tally) := by
  intro n since within
  obtain ⟨state, fresh, backtrack⟩ := tally
  have alone := upheld_item h add ⟨state, fresh, backtrack && true⟩ since within
  cases hseparator with
  | none => exact alone
  | some hseparator =>
      cases fresh with
      | true => exact alone
      | false =>
          unfold round
          refine (hseparator since within).bind fun before m ahead inside => ?_
          obtain ⟨status, allowed, span⟩ := before
          cases status with
          | error message => exact .ok ahead inside
          | ok _ =>
              have item := upheld_item h add ⟨state, false, backtrack && allowed⟩
                (Nat.le_trans since ahead) inside
              exact item.since ahead

theorem upheld_required (hseparator : UpheldOption w start separator separator')
    (h : UpheldFrom w start p q) (add : β → α → β) (k : Nat) (tally : Step.Tally β) :
    UpheldFrom w start (required separator p add k tally) (required separator' q add k tally) := by
  intro n since within
  induction k generalizing n tally with
  | zero => exact .ok (Nat.le_refl n) within
  | succ k ih =>
      refine (upheld_round hseparator h add tally since within).bind fun round m ahead inside => ?_
      cases round with
      | missed message backtrack tally => exact .ok ahead inside
      | done tally => exact (ih tally (Nat.le_trans since ahead) inside).since ahead

theorem upheld_upTo (isOpen : Bool) (hseparator : UpheldOption w start separator separator')
    (h : UpheldFrom w start p q) (add : β → α → β) (k : Nat) (tally : Step.Tally β) :
    UpheldFrom w start (upTo isOpen separator p add k tally)
      (upTo isOpen separator' q add k tally) := by
  intro n since within
  induction k generalizing n tally with
  | zero => exact .ok (Nat.le_refl n) within
  | succ k ih =>
      refine (upheld_round hseparator h add tally since within).bind fun round m ahead inside => ?_
      cases round with
      | missed message backtrack tally => exact .ok (Nat.le_refl n) within
      | done tally =>
          simp only
          split
          · exact .ok ahead inside
          · exact (ih tally (Nat.le_trans since ahead) inside).since ahead

theorem upheld_repeated (bounds : Repeat) (hseparator : UpheldOption w start separator separator')
    (h : UpheldFrom w start p q) (add : β → α → β) (initial : β) :
    UpheldFrom w start (repeated bounds separator p add initial)
      (repeated bounds separator' q add initial) := by
  intro n since within
  have ran := upheld_required hseparator h add bounds.min.toNat (.start initial) since within
  refine ran.bind fun round m ahead inside => ?_
  cases round with
  | missed message backtrack tally => exact .ok ahead inside
  | done tally =>
      have optional := upheld_upTo bounds.isOpen hseparator h add bounds.room tally
        (Nat.le_trans since ahead) inside
      exact (optional.since ahead).bind fun _ _ later there => .ok later there

/-! ## Parsers -/

/-- A meaning that always comes to an outcome upholds itself. -/
theorem upheld_of_delivers {r : Reading Cursor (Outcome α)}
    (h : (Tracking.following w.text []).Delivers w.skip r p) : UpheldFrom w start p p := by
  intro n _ within
  obtain ⟨o, m, ahead, inside, means⟩ := Tracking.ends_of_delivers h within
  rw [means]
  exact .ok ahead inside

variable {ρ : Type → Type} {call call' : {β : Type} → ρ β → Meaning β}

/-- A parser over rules that uphold others upholds the parser over the others. -/
theorem upheld_bodyMeaning
    (hcall : ∀ {β : Type} (r : ρ β), UpheldFrom w start (call r) (call' r)) (p : Parser ρ α) :
    UpheldFrom w start (p.bodyMeaning call) (p.bodyMeaning call') := by
  induction p with
  | primitive p => exact upheld_of_delivers (Tracking.delivers_primitive p)
  | letter l => exact upheld_of_delivers (Tracking.delivers_matchOne _ _)
  | produce name value => exact fun _ within => .ok (Nat.le_refl _) within
  | seq name combine first second ih ih' =>
      exact upheld_seq combine (upheld_framed ih) (upheld_framed ih')
  | choice name ofLeft ofRight left right ih ih' =>
      exact upheld_choose (upheld_map ofLeft (upheld_framed ih))
        (upheld_map ofRight (upheld_framed ih'))
  | opt present absent inner ih => exact upheld_opt present absent (upheld_framed ih)
  | cut inner ih => exact upheld_mapOutcome Outcome.commit (upheld_framed ih)
  | skipTo target ih => exact upheld_skipTo (upheld_framed ih)
  | lookahead inner ih => exact upheld_lookahead (upheld_framed ih)
  | not inner ih => exact upheld_not (upheld_framed ih)
  | iterate name bounds fold item ih =>
      exact upheld_map fold.finish
        (upheld_repeated bounds .none (upheld_framed ih) fold.add fold.start)
  | iterateSeparated name bounds fold separator item ih ih' =>
      exact upheld_map fold.finish
        (upheld_repeated bounds (.some (upheld_framed ih)) (upheld_framed ih') fold.add fold.start)
  | captureWith ofText inner ih => exact upheld_map ofText (upheld_capture (upheld_framed ih))
  | mapped name f inner ih => exact upheld_map f (upheld_framed ih)
  | tryMap f inner ih => exact upheld_tryMap f (upheld_framed ih)
  | tryMapRaising f inner ih => exact upheld_tryMapRaising f (upheld_framed ih)
  | flatMap first next ih ih' =>
      exact upheld_flatMap (upheld_framed ih) fun a => upheld_framed (ih' a)
  | rule name r => exact hcall r

theorem upheld_meaning
    (hcall : ∀ {β : Type} (r : ρ β), UpheldFrom w start (call r) (call' r)) (p : Parser ρ α) :
    UpheldFrom w start (p.meaning call) (p.meaning call') :=
  upheld_framed (upheld_bodyMeaning hcall p)

end Meaning

end TextGrammar
