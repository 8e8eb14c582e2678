import TextGrammar.Meaning.Choice
import TextGrammar.Proofs.Refinement.Basic

set_option autoImplicit false

/-! # Going back is beginning at the same number

Whatever may be taken back runs under a mark, and going back to that mark is what its meaning does
when it goes on from the number at which it began. -/

namespace TextGrammar.Tracking

variable {text : List Char} {t : Tracking text} {skip : Option CharClass} {α β : Type}

theorem simulates_choose {p q : Step α} {pMeaning qMeaning : Meaning α}
    (hp : t.Simulates skip p pMeaning) (hq : t.Simulates skip q qMeaning) :
    t.Simulates skip (p.choose q) (pMeaning.choose qMeaning) := by
  intro ctx n saved stands
  have ran := hp stands.mark
  unfold Step.choose Meaning.choose
  generalize p (ctx.onCursor Cursor.mark) = result at ran ⊢
  generalize pMeaning ⟨text, skip⟩ n = expected at ran ⊢
  cases ran with
  | fault ahead more interrupted =>
      exact .fault ahead ((List.suffix_cons n saved).trans more) interrupted
  | error ahead more here => exact .error ahead ((List.suffix_cons n saved).trans more) here
  | @ok first after m ahead here =>
      show t.Agrees skip n saved (if first.isSuccessful || !first.backtrack then _ else _)
        (if first.isSuccessful || !first.backtrack then _ else _)
      by_cases final : (first.isSuccessful || !first.backtrack) = true
      · rw [if_pos final, if_pos final]
        exact .ok ahead here.unmark
      · rw [if_neg final, if_neg final]
        -- the mark was made at `n`, so the second step begins there however far the first has read
        have again := hq here.reset
        generalize q (after.onCursor (Cursor.reset true)) = result at again ⊢
        generalize qMeaning ⟨text, skip⟩ n = expected at again ⊢
        cases again with
        | fault later more interrupted => exact .fault later more interrupted
        | error later more there => exact .error later more there
        | ok later there => exact .ok later there

/-- An attempt comes to a success, or to nothing at the number at which it began. -/
theorem agrees_attempt {p : Step α} {meaning : Meaning α} (h : t.Simulates skip p meaning)
    {ctx : Context} {n : Nat} {saved : List Nat} (stands : t.Stands skip ctx n saved) :
    t.Agrees skip n saved (p.attempt ctx)
      ((meaning ⟨text, skip⟩ n).map fun (o, m) =>
        if o.isSuccessful then (some o, m) else (none, n)) := by
  have ran := h stands.mark
  unfold Step.attempt
  generalize p (ctx.onCursor Cursor.mark) = result at ran ⊢
  generalize meaning ⟨text, skip⟩ n = expected at ran ⊢
  cases ran with
  | fault ahead more interrupted =>
      exact .fault ahead ((List.suffix_cons n saved).trans more) interrupted
  | error ahead more here => exact .error ahead ((List.suffix_cons n saved).trans more) here
  | @ok o after m ahead here =>
      show t.Agrees skip n saved (if o.isSuccessful then _ else _)
        (.ok (if o.isSuccessful then (some o, m) else (none, n)))
      by_cases success : o.isSuccessful = true
      · rw [if_pos success, if_pos success]
        exact .ok ahead here.unmark
      · rw [if_neg success, if_neg success]
        exact .ok (Nat.le_refl n) here.reset

theorem simulates_opt {p : Step α} {meaning : Meaning α} (present : α → β) (absent : β)
    (h : t.Simulates skip p meaning) :
    t.Simulates skip (p.opt present absent) (meaning.opt present absent) := by
  intro ctx n saved stands
  have tried := agrees_attempt h stands
  unfold Step.opt Meaning.opt
  generalize p.attempt ctx = result at tried ⊢
  generalize meaning ⟨text, skip⟩ n = expected at tried ⊢
  rcases expected with e | ⟨o, m⟩
  · cases tried with
    | fault ahead more interrupted => exact .fault ahead more interrupted
    | error ahead more here => exact .error ahead more here
  · replace tried : t.Agrees skip n saved result
        (.ok (if o.isSuccessful then (some o, m) else (none, n))) := tried
    show t.Agrees skip n saved _
      (if o.isSuccessful then .ok (o.map present, m) else .ok (.success absent, n))
    by_cases success : o.isSuccessful = true
    · rw [if_pos success] at tried ⊢
      cases tried with
      | fault ahead more interrupted => exact .fault ahead more interrupted
      | ok ahead here => exact .ok ahead here
    · rw [if_neg success] at tried ⊢
      cases tried with
      | fault ahead more interrupted => exact .fault ahead more interrupted
      | ok ahead here => exact .ok ahead here

theorem simulates_lookahead {p : Step Unit} {meaning : Meaning Unit}
    (h : t.Simulates skip p meaning) : t.Simulates skip p.lookahead meaning.lookahead := by
  intro ctx n saved stands
  have ran := h stands.mark
  unfold Step.lookahead Meaning.lookahead
  generalize p (ctx.onCursor Cursor.mark) = result at ran ⊢
  generalize meaning ⟨text, skip⟩ n = expected at ran ⊢
  cases ran with
  | fault ahead more interrupted =>
      exact .fault ahead ((List.suffix_cons n saved).trans more) interrupted
  | error ahead more here => exact .error ahead ((List.suffix_cons n saved).trans more) here
  | ok ahead here => exact .ok (Nat.le_refl n) here.reset

theorem simulates_not {p : Step Unit} {meaning : Meaning Unit} (h : t.Simulates skip p meaning) :
    t.Simulates skip p.not meaning.not := by
  intro ctx n saved stands
  have ran := h stands.mark
  unfold Step.not Meaning.not
  generalize p (ctx.onCursor Cursor.mark) = result at ran ⊢
  generalize meaning ⟨text, skip⟩ n = expected at ran ⊢
  cases ran with
  | fault ahead more interrupted =>
      exact .fault ahead ((List.suffix_cons n saved).trans more) interrupted
  | error ahead more here => exact .error ahead ((List.suffix_cons n saved).trans more) here
  | ok ahead here => exact .ok (Nat.le_refl n) here.reset

/-- A search goes on one character further each time, and ends with the text. The induction is on
the number of characters left. -/
theorem simulates_skipTo {p : Step α} {meaning : Meaning α} (h : t.Simulates skip p meaning) :
    t.Simulates skip p.skipTo meaning.skipTo := by
  intro ctx n saved stands
  induction hsize : text.length - n using Nat.strongRecOn generalizing ctx n with
  | ind size ih =>
      have tried := agrees_attempt h stands
      rw [Step.skipTo, Meaning.skipTo]
      generalize p.attempt ctx = result at tried ⊢
      generalize meaning ⟨text, skip⟩ n = expected at tried ⊢
      rcases expected with e | ⟨o, m⟩
      · cases tried with
        | fault ahead more interrupted => exact .fault ahead more interrupted
        | error ahead more here => exact .error ahead more here
      · replace tried : t.Agrees skip n saved result
            (.ok (if o.isSuccessful then (some o, m) else (none, n))) := tried
        by_cases success : o.isSuccessful = true
        · rw [if_pos success] at tried
          simp only [success, if_true]
          cases tried with
          | fault ahead more interrupted => exact .fault ahead more interrupted
          | ok ahead here => exact .ok ahead here
        · rw [if_neg success] at tried
          simp only [if_neg success]
          cases tried with
          | fault ahead more interrupted => exact .fault ahead more interrupted
          | @ok _ back _ _ here =>
              cases hfound : text[n]? with
              | none =>
                  have atEnd : Setting.left ⟨text, skip⟩ n = 0 :=
                    Nat.sub_eq_zero_of_le (List.getElem?_eq_none_iff.mp hfound)
                  have went := Agrees.reading here (yields_read_end here.cursor hfound)
                    (Nat.le_refl n)
                  simp only [if_pos atEnd]
                  generalize Context.reading Cursor.read back = result at went ⊢
                  cases went with
                  | fault ahead more interrupted => exact .fault ahead more interrupted
                  | ok ahead there => exact .ok ahead there
              | some c =>
                  have inside : n < text.length := (List.getElem?_eq_some_iff.mp hfound).1
                  have more : ¬Setting.left ⟨text, skip⟩ n = 0 :=
                    Nat.sub_ne_zero_of_lt inside
                  have went := Agrees.reading here (yields_read here.cursor hfound)
                    (Nat.le_succ n)
                  simp only [if_neg more]
                  generalize Context.reading Cursor.read back = result at went ⊢
                  cases went with
                  | fault ahead more interrupted => exact .fault ahead more interrupted
                  | @ok _ further _ ahead there =>
                      -- the step goes on only if there is less left, which is always so here
                      have before := t.size stands.cursor
                      have after := t.size there.cursor
                      have fewer : further.size < ctx.size := by
                        unfold Context.size
                        omega
                      simp only [if_pos fewer]
                      exact (ih _ (by omega) there rfl).since ahead

end TextGrammar.Tracking
