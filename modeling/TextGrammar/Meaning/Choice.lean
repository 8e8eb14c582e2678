import TextGrammar.Meaning.Basic
import TextGrammar.Step.Choice

set_option autoImplicit false

/-! # Trying

What comes to nothing is tried no further, and what is tried instead begins at the same place. -/

namespace TextGrammar.Meaning

variable {α β : Type}

/-- Ordered choice. -/
def choose (p q : Meaning α) : Meaning α := fun w n => do
  let (first, m) ← p w n
  if first.isSuccessful || !first.backtrack then .ok (first.allowBacktrack true, m)
  else
    let (second, m) ← q w n
    .ok (second.allowBacktrack true, m)

section

variable {p q : Meaning α} {w : Setting} {n m k : Nat} {first second : Outcome α}

/-- A success or a commitment decides the choice. -/
theorem choose_eq_first (h : p w n = .ok (first, m))
    (final : (first.isSuccessful || !first.backtrack) = true) :
    choose p q w n = .ok (first.allowBacktrack true, m) := by
  unfold choose
  rw [h]
  exact if_pos final

/-- Otherwise the second meaning does, from the same place. -/
theorem choose_eq_second (h : p w n = .ok (first, m))
    (soft : ¬(first.isSuccessful || !first.backtrack) = true) (h' : q w n = .ok (second, k)) :
    choose p q w n = .ok (second.allowBacktrack true, k) := by
  unfold choose
  rw [h]
  refine (if_neg soft).trans ?_
  rw [h']
  rfl

theorem choose_eq_error {e : ErrorAt} (h : p w n = .error e) : choose p q w n = .error e := by
  unfold choose
  rw [h]
  rfl

theorem choose_eq_second_error {e : ErrorAt} (h : p w n = .ok (first, m))
    (soft : ¬(first.isSuccessful || !first.backtrack) = true) (h' : q w n = .error e) :
    choose p q w n = .error e := by
  unfold choose
  rw [h]
  refine (if_neg soft).trans ?_
  rw [h']
  rfl

end

/-- The meaning, or nothing in its place. -/
def opt (present : α → β) (absent : β) (p : Meaning α) : Meaning β := fun w n => do
  let (o, m) ← p w n
  if o.isSuccessful then .ok (o.map present, m) else .ok (.success absent, n)

/-- It succeeds from here. -/
def lookahead (p : Meaning Unit) : Meaning Unit := fun w n => do
  let (o, _) ← p w n
  .ok (⟨o.status, true, none⟩, n)

/-- It fails from here. -/
def not (p : Meaning Unit) : Meaning Unit := fun w n => do
  let (o, _) ← p w n
  .ok (if o.isSuccessful then .failure Step.invalidToken else .success (), n)

/-- The first success from here on. -/
def skipTo (p : Meaning α) : Meaning α := fun w n =>
  match p w n with
  | .error e => .error e
  | .ok (o, m) =>
    if o.isSuccessful then .ok (o, m)
    else if w.left n = 0 then .ok (.failure Step.tokenNotFound, n)
    else skipTo p w (n + 1)
termination_by w n => w.left n
decreasing_by
  unfold Setting.left at *
  omega

end TextGrammar.Meaning
