import TextGrammar.Meaning.Basic
import TextGrammar.Step.Repeat

set_option autoImplicit false

/-! # What a repetition means

One round after another, each from where the last one ended. A round that may be missing and is
leaves the repetition where it was before the round. -/

namespace TextGrammar.Meaning

variable {α β : Type}

/-! ## One round -/

/-- One round of a repetition: a separator, unless it is the first, and an item. -/
def round (separator : Option (Meaning Unit)) (item : Meaning α) (add : β → α → β)
    (tally : Step.Tally β) (w : Setting) (n : Nat) : Except ErrorAt (Step.Round β × Nat) := do
  let (before, m) ← match separator, tally.fresh with
    | some separator, false => separator w n
    | _, _ => .ok (.success (), n)
  match before.status with
  | .error message => .ok (.missed message (tally.backtrack && before.backtrack) tally, m)
  | .ok _ =>
    let tally := { tally with backtrack := tally.backtrack && before.backtrack }
    let (o, m) ← item w m
    let backtrack := tally.backtrack && o.backtrack
    match o.status with
    | .error message => .ok (.missed message backtrack tally, m)
    | .ok value => .ok (.done ⟨add tally.state value, false, backtrack⟩, m)

/-- What comes before an item: the separator, unless the item is the first. -/
def separation (separator : Option (Meaning Unit)) (fresh : Bool) : Meaning Unit :=
  match separator, fresh with
  | some s, false => s
  | _, _ => fun _ n => .ok (.success (), n)

/-- A round is a separation and an item. -/
theorem round_eq (separator : Option (Meaning Unit)) (p : Meaning α) (add : β → α → β)
    (tally : Step.Tally β) (w : Setting) (n : Nat) :
    round separator p add tally w n =
      separation separator tally.fresh w n >>= fun (before, m) =>
        match before.status with
        | .error message => .ok (.missed message (tally.backtrack && before.backtrack) tally, m)
        | .ok _ => p w m >>= fun (o, m) =>
          match o.status with
          | .error message => .ok (.missed message (tally.backtrack && before.backtrack && o.backtrack)
              { tally with backtrack := tally.backtrack && before.backtrack }, m)
          | .ok value => .ok (.done ⟨add tally.state value, false,
              tally.backtrack && before.backtrack && o.backtrack⟩, m) := by
  obtain ⟨state, fresh, backtrack⟩ := tally
  cases separator with
  | none => rfl
  | some s => cases fresh <;> rfl

section

variable {separator : Option (Meaning Unit)} {p : Meaning α} {add : β → α → β}
  {tally tally' : Step.Tally β} {w : Setting} {n m : Nat}

/-- A round that is done is a separation and an item that both succeed. -/
theorem round_eq_done_iff :
    round separator p add tally w n = .ok (.done tally', m) ↔
      ∃ before k o value, separation separator tally.fresh w n = .ok (before, k) ∧
        before.status = .ok () ∧ p w k = .ok (o, m) ∧ o.status = .ok value ∧
        tally' = ⟨add tally.state value, false,
          tally.backtrack && before.backtrack && o.backtrack⟩ := by
  rw [round_eq]
  constructor
  · intro done
    rcases separated : separation separator tally.fresh w n with e | ⟨⟨status, allowed, span⟩, k⟩
    · rw [separated] at done
      cases done
    · rw [separated] at done
      cases status with
      | error message => cases done
      | ok _ =>
          change (p w k >>= _) = _ at done
          rcases ran : p w k with e | ⟨⟨status', backtrack, span'⟩, l⟩
          · rw [ran] at done
            cases done
          · rw [ran] at done
            cases status' with
            | error message => cases done
            | ok value =>
                cases done
                exact ⟨_, k, _, value, rfl, rfl, ran, rfl, rfl⟩
  · rintro ⟨before, k, o, value, separated, hbefore, ran, ho, rfl⟩
    rw [separated]
    simp only [bind, Except.bind, hbefore, ran, ho]

theorem fresh_of_round (done : round separator p add tally w n = .ok (.done tally', m)) :
    tally'.fresh = false := by
  obtain ⟨_, _, _, _, -, -, -, -, rfl⟩ := round_eq_done_iff.mp done
  rfl

end

/-! ## Many rounds -/

/-- Rounds that all have to succeed. -/
def required (separator : Option (Meaning Unit)) (item : Meaning α) (add : β → α → β) :
    Nat → Step.Tally β → Setting → Nat → Except ErrorAt (Step.Round β × Nat)
  | 0, tally, _, n => .ok (.done tally, n)
  | k + 1, tally, w, n => do
    match ← round separator item add tally w n with
    | (.missed message backtrack tally, m) => .ok (.missed message backtrack tally, m)
    | (.done tally, m) => required separator item add k tally w m

/-- As many rounds as succeed, within a limit. Where nothing else bounds them, one that reads nothing is
the last. -/
def upTo (isOpen : Bool) (separator : Option (Meaning Unit)) (item : Meaning α) (add : β → α → β) :
    Nat → Step.Tally β → Setting → Nat → Except ErrorAt (Step.Tally β × Nat)
  | 0, tally, _, n => .ok (tally, n)
  | k + 1, tally, w, n => do
    match ← round separator item add tally w n with
    | (.missed _ _ tally, _) => .ok (tally, n)
    | (.done tally, m) =>
      if isOpen ∧ m = n then .ok (tally, m) else upTo isOpen separator item add k tally w m

section

variable {isOpen : Bool} {separator : Option (Meaning Unit)} {p : Meaning α} {add : β → α → β}
  {tally tally' : Step.Tally β} {w : Setting} {k n m : Nat}

theorem upTo_eq_error {e : ErrorAt} (ran : round separator p add tally w n = .error e) :
    upTo isOpen separator p add (k + 1) tally w n = .error e := by
  rw [upTo, ran]
  rfl

theorem upTo_eq_missed {message : String} {backtrack : Bool}
    (ran : round separator p add tally w n = .ok (.missed message backtrack tally', m)) :
    upTo isOpen separator p add (k + 1) tally w n = .ok (tally', n) := by
  rw [upTo, ran]
  rfl

theorem upTo_eq_further (ran : round separator p add tally w n = .ok (.done tally', m))
    (onward : ¬(isOpen = true ∧ m = n)) :
    upTo isOpen separator p add (k + 1) tally w n = upTo isOpen separator p add k tally' w m := by
  rw [upTo, ran]
  exact if_neg onward

theorem upTo_eq_last (ran : round separator p add tally w n = .ok (.done tally', m))
    (idle : isOpen = true ∧ m = n) :
    upTo isOpen separator p add (k + 1) tally w n = .ok (tally', m) := by
  rw [upTo, ran]
  exact if_pos idle

end

/-- The whole repetition. -/
def repeated (bounds : Repeat) (separator : Option (Meaning Unit)) (item : Meaning α)
    (add : β → α → β) (start : β) : Meaning β := fun w n => do
  match ← required separator item add bounds.min.toNat (.start start) w n with
  | (.missed message backtrack _, n) => .ok (⟨.error message, backtrack, none⟩, n)
  | (.done tally, n) =>
    let (tally, n) ← upTo bounds.isOpen separator item add bounds.room tally w n
    .ok (⟨.ok tally.state, tally.backtrack, none⟩, n)

end TextGrammar.Meaning
