import TextGrammar.Proofs.Erasure.Basic

set_option autoImplicit false

/-! # Repetition over the text without what is passed over

Round by round, a repetition does the same in both texts. The one difference is in when a repetition
without an upper bound ends. A round that has read nothing is the last one; but a round that has only
passed over characters has read nothing in the text without them. Then the repetition in that text
ends, while the other one goes on with rounds that do the same again, until there is nothing left to
pass over or there have been as many rounds as there can be. -/

namespace TextGrammar.Meaning

variable {α : Type} {w : Setting} {n m : Nat} {separator : Option (Meaning Unit)} {p : Meaning α}
  {add : Unit → α → Unit} {tally tally' : Step.Tally Unit}

/-! ## One round -/

theorem erasable_separation (hseparator : ∀ s ∈ separator, Erasable w s) (fresh : Bool) :
    Erasable w (separation separator fresh) := by
  cases separator with
  | none => exact fun _ within => .ok ⟨_, rfl⟩ (Nat.le_refl _) within
  | some s =>
      cases fresh with
      | true => exact fun _ within => .ok ⟨_, rfl⟩ (Nat.le_refl _) within
      | false => exact hseparator s rfl

theorem erases_round (hseparator : ∀ s ∈ separator, Erasable w s) (h : Erasable w p)
    (add : Unit → α → Unit) (tally : Step.Tally Unit) (within : n ≤ w.text.length) :
    Erases w Eq n (round separator p add tally w n)
      (round separator p add tally w.erase (w.kept n)) := by
  rw [round_eq, round_eq]
  refine (erasable_separation hseparator tally.fresh within).bind
    fun before before' m _ same ahead inside => ?_
  obtain ⟨status, allowed, _⟩ := before
  obtain ⟨span, rfl⟩ := same
  cases status with
  | error message => exact .ok rfl ahead inside
  | ok _ =>
      refine ((h inside).since ahead).bind fun o o' k _ same later there => ?_
      obtain ⟨status, backtrack, _⟩ := o
      obtain ⟨span, rfl⟩ := same
      cases status with
      | error message => exact .ok rfl later there
      | ok value => exact .ok rfl later there

/-- A round that has only passed over characters comes to the same again in the text without them. -/
theorem round_again (hseparator : ∀ s ∈ separator, Erasable w s) (h : Erasable w p)
    (within : n ≤ w.text.length) (later : tally.fresh = false)
    (done : round separator p add tally w n = .ok (.done tally', m)) (idle : w.kept m = w.kept n) :
    round separator p add tally' w.erase (w.kept n) = .ok (.done tally', w.kept n) := by
  obtain ⟨before, k, o, value, separated, hbefore, ran, ho, rfl⟩ := round_eq_done_iff.mp done
  have separated' := erasable_separation hseparator tally.fresh within
  rw [separated] at separated'
  obtain ⟨_, separated', ⟨_, rfl⟩, ahead, inside⟩ := separated'.right_of_ok
  have ran' := h inside
  rw [ran] at ran'
  obtain ⟨_, ran', ⟨_, rfl⟩, further, -⟩ := ran'.right_of_ok
  -- neither the separator nor the item has read anything there
  have between : w.kept k = w.kept n := by
    have := Setting.kept_mono (w := w) ahead
    have := Setting.kept_mono (w := w) further
    omega
  rw [later, between] at separated'
  rw [between, idle] at ran'
  refine round_eq_done_iff.mpr ⟨_, _, _, value, separated', hbefore, ran', ho, ?_⟩
  congr 1
  cases tally.backtrack <;> cases before.backtrack <;> cases o.backtrack <;> rfl

/-! ## Rounds within bounds -/

theorem erases_required (hseparator : ∀ s ∈ separator, Erasable w s) (h : Erasable w p) (k : Nat)
    (within : n ≤ w.text.length) :
    Erases w Eq n (required separator p add k tally w n)
      (required separator p add k tally w.erase (w.kept n)) := by
  induction k generalizing n tally with
  | zero => exact .ok rfl (Nat.le_refl n) within
  | succ k ih =>
      refine (erases_round hseparator h add tally within).bind
        fun round round' m _ same ahead inside => ?_
      subst same
      cases round with
      | missed message backtrack tally => exact .ok rfl ahead inside
      | done tally => exact (ih inside).since ahead

/-- A tally that is still fresh behind required rounds is that of no round at all. -/
theorem eq_of_required {k : Nat}
    (done : required separator p add k tally w n = .ok (.done tally', m))
    (fresh : tally'.fresh = true) : tally = tally' ∧ n = m := by
  induction k generalizing n tally with
  | zero => cases done; exact ⟨rfl, rfl⟩
  | succ k ih =>
      change (round separator p add tally w n >>= _) = _ at done
      rcases ran : round separator p add tally w n with e | ⟨first, l⟩
      · rw [ran] at done
        cases done
      · rw [ran] at done
        cases first with
        | missed message backtrack tally => cases done
        | done first =>
            obtain ⟨rfl, -⟩ := ih done
            rw [fresh_of_round ran] at fresh
            cases fresh

/-! ## Optional rounds -/

/-- While rounds come to the same again in the text without what is passed over, the repetition goes
on until there is nothing left to pass over, and comes to that same. -/
theorem upTo_idle (hseparator : ∀ s ∈ separator, Erasable w s) (h : Erasable w p) (k : Nat)
    (within : n ≤ w.text.length)
    (again : round separator p add tally w.erase (w.kept n) = .ok (.done tally, w.kept n)) :
    ∃ m, upTo true separator p add k tally w n = .ok (tally, m) ∧ n ≤ m ∧ m ≤ w.text.length ∧
      w.kept m = w.kept n := by
  induction k generalizing n with
  | zero => exact ⟨n, rfl, Nat.le_refl n, within, rfl⟩
  | succ k ih =>
      have both := erases_round hseparator h add tally within
      rw [again] at both
      obtain ⟨round, m, ran, same_place, rfl, ahead, inside⟩ := both.left_of_ok
      by_cases still : m = n
      · exact ⟨m, upTo_eq_last ran ⟨rfl, still⟩, ahead, inside, same_place.symm⟩
      · rw [same_place] at again
        obtain ⟨l, rest, further, there, same⟩ := ih inside again
        exact ⟨l, (upTo_eq_further ran fun idle => still idle.2).trans rest,
          Nat.le_trans ahead further, there, same.trans same_place.symm⟩

/-- If a tally is fresh, nothing is passed over before its first round, so this round reads a character
or ends where it began. -/
theorem erases_upTo (isOpen : Bool) (hseparator : ∀ s ∈ separator, Erasable w s) (h : Erasable w p)
    (k : Nat) (within : n ≤ w.text.length) (entered : tally.fresh = true → w.passOver n = n) :
    Erases w Eq n (upTo isOpen separator p add k tally w n)
      (upTo isOpen separator p add k tally w.erase (w.kept n)) := by
  induction k generalizing n tally with
  | zero => exact .ok rfl (Nat.le_refl n) within
  | succ k ih =>
      have both := erases_round hseparator h add tally within
      generalize ran : round separator p add tally w n = x at both
      generalize ran' : round separator p add tally w.erase (w.kept n) = y at both
      cases both with
      | endless =>
          rw [upTo_eq_error ran, upTo_eq_error ran']
          exact .endless
      | @ok round _ m same ahead inside =>
          subst same
          cases round with
          | missed message backtrack tally' =>
              rw [upTo_eq_missed ran, upTo_eq_missed ran']
              exact .ok rfl (Nat.le_refl n) within
          | done tally' =>
              by_cases idle' : isOpen = true ∧ w.kept m = w.kept n
              · obtain ⟨rfl, same_place⟩ := idle'
                rw [upTo_eq_last ran' ⟨rfl, same_place⟩]
                by_cases still : m = n
                · rw [upTo_eq_last ran ⟨rfl, still⟩]
                  exact .ok rfl ahead inside
                · -- the other repetition is over, and this one still has characters to pass over
                  rw [upTo_eq_further ran fun idle => still idle.2]
                  have later : tally.fresh = false := by
                    rw [← Bool.not_eq_true]
                    intro fresh
                    have moved : n < m := Nat.lt_of_le_of_ne ahead (Ne.symm still)
                    exact Nat.ne_of_gt (Setting.kept_lt (entered fresh) moved inside) same_place
                  have again := round_again hseparator h within later ran same_place
                  rw [← same_place] at again
                  obtain ⟨l, rest, further, there, same⟩ := upTo_idle hseparator h k inside again
                  rw [rest, ← same]
                  exact .ok rfl (Nat.le_trans ahead further) there
              · have onward : ¬(isOpen = true ∧ m = n) :=
                  fun idle => idle' ⟨idle.1, congrArg w.kept idle.2⟩
                rw [upTo_eq_further ran onward, upTo_eq_further ran' idle']
                have later : tally'.fresh = true → w.passOver m = m := by
                  simp [fresh_of_round ran]
                exact (ih inside later).since ahead

/-- Only behind the characters to pass over is the first round of a repetition like all others. -/
theorem erasableBehind_repeated (bounds : Repeat) (hseparator : ∀ s ∈ separator, Erasable w s)
    (h : Erasable w p) : ErasableBehind w (repeated bounds separator p add ()) := by
  intro n within entered
  refine (erases_required hseparator h bounds.min.toNat within).bind
    fun round round' m required same ahead inside => ?_
  subst same
  cases round with
  | missed message backtrack tally => exact .ok ⟨_, rfl⟩ ahead inside
  | done tally =>
      have start : tally.fresh = true → w.passOver m = m := by
        intro fresh
        obtain ⟨-, rfl⟩ := eq_of_required required fresh
        exact entered
      refine ((erases_upTo bounds.isOpen hseparator h bounds.room inside start).since ahead).bind
        fun tally tally' k _ same later there => ?_
      subst same
      exact .ok ⟨_, rfl⟩ later there

end TextGrammar.Meaning
