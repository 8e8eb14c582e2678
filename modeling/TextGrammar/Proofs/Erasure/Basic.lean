import TextGrammar.Proofs.Erasure.Setting

set_option autoImplicit false

/-! # The same over the text without what is passed over

What a parser comes to at a place is compared with what it comes to at the place that this one has in
the text without the characters to pass over. A parser that looks at one character at a time comes to
the same behind the characters to pass over. As every parser within another is entered behind them,
putting parsers together keeps this, wherever the whole begins. -/

namespace TextGrammar

/-- The outcomes are the same apart from which stretch of the text they cover. -/
def Outcome.Alike {α : Type} (o o' : Outcome α) : Prop :=
  ∃ span, o' = { o with span }

namespace Meaning

variable {α β γ : Type} {w : Setting} {n m : Nat}

/-- The second result is that of the first over the text without what is passed over, at the place
that this text has for where the first one ends. -/
inductive Erases (w : Setting) {α : Type} (alike : α → α → Prop) (n : Nat) :
    Except ErrorAt (α × Nat) → Except ErrorAt (α × Nat) → Prop where
  | ok {a b : α} {m : Nat} (same : alike a b) (ahead : n ≤ m) (within : m ≤ w.text.length) :
      Erases w alike n (.ok (a, m)) (.ok (b, w.kept m))
  | endless {m k : Nat} :
      Erases w alike n (.error (.endlessRecursion, m)) (.error (.endlessRecursion, k))

namespace Erases

variable {alike : α → α → Prop} {alike' : β → β → Prop} {x y : Except ErrorAt (α × Nat)}

theorem since (h : Erases w alike m x y) (ahead : n ≤ m) : Erases w alike n x y := by
  cases h with
  | ok same later within => exact .ok same (Nat.le_trans ahead later) within
  | endless => exact .endless

theorem map {f : α → β} (h : Erases w alike n x y) (hf : ∀ a b, alike a b → alike' (f a) (f b)) :
    Erases w alike' n (x.map fun (a, m) => (f a, m)) (y.map fun (a, m) => (f a, m)) := by
  cases h with
  | ok same ahead within => exact .ok (hf _ _ same) ahead within
  | endless => exact .endless

theorem bind {f g : α × Nat → Except ErrorAt (β × Nat)} (h : Erases w alike n x y)
    (next : ∀ a b m, x = .ok (a, m) → alike a b → n ≤ m → m ≤ w.text.length →
      Erases w alike' n (f (a, m)) (g (b, w.kept m))) :
    Erases w alike' n (x >>= f) (y >>= g) := by
  cases h with
  | ok same ahead within => exact next _ _ _ rfl same ahead within
  | endless => exact .endless

/-- If the first result is no error, neither is the second. -/
theorem right_of_ok {a : α} (h : Erases w alike n (.ok (a, m)) y) :
    ∃ b, y = .ok (b, w.kept m) ∧ alike a b ∧ n ≤ m ∧ m ≤ w.text.length := by
  cases h with
  | ok same ahead within => exact ⟨_, rfl, same, ahead, within⟩

theorem ok_iff (h : Erases w alike n x y) :
    (∃ a m, x = .ok (a, m)) ↔ ∃ b k, y = .ok (b, k) := by
  cases h with
  | ok same ahead within => exact ⟨fun _ => ⟨_, _, rfl⟩, fun _ => ⟨_, _, rfl⟩⟩
  | endless => simp

theorem left_of_ok {b : α} {k : Nat} (h : Erases w alike n x (.ok (b, k))) :
    ∃ a m, x = .ok (a, m) ∧ k = w.kept m ∧ alike a b ∧ n ≤ m ∧ m ≤ w.text.length := by
  cases h with
  | ok same ahead within => exact ⟨_, _, rfl, rfl, same, ahead, within⟩

end Erases

/-- Wherever it begins, the meaning comes to the same over the text without what is passed over. -/
def Erasable (w : Setting) (p : Meaning α) : Prop :=
  ∀ ⦃n : Nat⦄, n ≤ w.text.length → Erases w Outcome.Alike n (p w n) (p w.erase (w.kept n))

/-- The meaning does so wherever nothing is passed over. -/
def ErasableBehind (w : Setting) (p : Meaning α) : Prop :=
  ∀ ⦃n : Nat⦄, n ≤ w.text.length → w.passOver n = n →
    Erases w Outcome.Alike n (p w n) (p w.erase (w.kept n))

variable {p q : Meaning α}

theorem Erasable.behind (h : Erasable w p) : ErasableBehind w p :=
  fun _ within _ => h within

/-! ## One character -/

theorem erasableBehind_one (accept : Char → Option α) (message : Option Char → String) :
    ErasableBehind w (one accept message) := by
  intro n within entered
  unfold one
  rw [Setting.next?_erase entered]
  cases haccept : (w.next? n).bind accept with
  | none => exact .ok ⟨_, rfl⟩ (Nat.le_refl n) within
  | some value =>
      obtain ⟨c, hc, -⟩ := Option.bind_eq_some_iff.mp haccept
      have one_more := Setting.kept_succ hc
      rw [if_pos (Setting.keeps_next entered hc)] at one_more
      rw [← one_more]
      exact .ok ⟨_, rfl⟩ (Nat.le_succ n) (List.getElem?_eq_some_iff.mp hc).1

theorem erasableBehind_next (test : Option Char → Bool) (message : Option Char → String) :
    ErasableBehind w (next test message) := by
  intro n within entered
  unfold next
  rw [Setting.next?_erase entered]
  exact .ok ⟨_, rfl⟩ (Nat.le_refl n) within

/-! ## One after another -/

theorem erasable_framed (h : ErasableBehind w p) : Erasable w (framed p) := by
  intro n within
  obtain ⟨ahead, inside⟩ := w.passOver_bounds within
  have ran := h inside (w.passOver_passOver n)
  rw [w.kept_passOver n] at ran
  unfold framed
  simp only [Setting.passOver_erase]
  generalize p w (w.passOver n) = x at ran ⊢
  generalize p w.erase (w.kept n) = y at ran ⊢
  cases ran with
  | ok same later there =>
      obtain ⟨span, rfl⟩ := same
      exact .ok ⟨_, rfl⟩ (Nat.le_trans ahead later) there
  | endless => exact .endless

theorem erasable_mapOutcome {f : Outcome α → Outcome β}
    (hf : ∀ o o' : Outcome α, o.Alike o' → (f o).Alike (f o')) (h : Erasable w p) :
    Erasable w (p.mapOutcome f) :=
  fun _ within => (h within).map hf

theorem alike_map (f : α → β) (o o' : Outcome α) (same : o.Alike o') :
    (o.map f).Alike (o'.map f) := by
  obtain ⟨span, rfl⟩ := same
  exact ⟨_, rfl⟩

theorem erasable_map (f : α → β) (h : Erasable w p) : Erasable w (p.map f) :=
  erasable_mapOutcome (alike_map f) h

theorem ErasableBehind.map (f : α → β) (h : ErasableBehind w p) : ErasableBehind w (p.map f) :=
  fun _ within entered => Erases.map (h within entered) (alike_map f)

theorem erasable_commit (h : Erasable w p) : Erasable w (p.mapOutcome Outcome.commit) := by
  refine erasable_mapOutcome (fun o o' same => ?_) h
  obtain ⟨status, backtrack, _⟩ := o
  obtain ⟨span, rfl⟩ := same
  cases status with
  | error message => exact ⟨_, rfl⟩
  | ok value => exact ⟨_, rfl⟩

theorem erasable_flatMap {next : α → Meaning β} (h : Erasable w p)
    (hnext : ∀ a, Erasable w (next a)) : Erasable w (p.flatMap next) := by
  intro n within
  refine (h within).bind fun first first' m _ same ahead inside => ?_
  obtain ⟨status, backtrack, _⟩ := first
  obtain ⟨span, rfl⟩ := same
  cases status with
  | error message => exact .ok ⟨_, rfl⟩ ahead inside
  | ok value =>
      refine ((hnext value inside).since ahead).bind fun second second' k _ same later there => ?_
      obtain ⟨span, rfl⟩ := same
      exact .ok ⟨_, rfl⟩ later there

theorem erasable_seq {r : Meaning β} (combine : α → β → γ) (h : Erasable w p)
    (h' : Erasable w r) : Erasable w (p.seq combine r) :=
  erasable_flatMap h fun a => erasable_map (combine a) h'

/-! ## Trying -/

theorem erasable_choose (h : Erasable w p) (h' : Erasable w q) : Erasable w (p.choose q) := by
  intro n within
  refine (h within).bind fun first first' m _ same ahead inside => ?_
  obtain ⟨span, rfl⟩ := same
  show Erases w Outcome.Alike n (if first.isSuccessful || !first.backtrack then _ else _)
    (if first.isSuccessful || !first.backtrack then _ else _)
  by_cases final : (first.isSuccessful || !first.backtrack) = true
  · rw [if_pos final, if_pos final]
    exact .ok ⟨_, rfl⟩ ahead inside
  · rw [if_neg final, if_neg final]
    refine (h' within).bind fun second second' k _ same later there => ?_
    obtain ⟨span, rfl⟩ := same
    exact .ok ⟨_, rfl⟩ later there

theorem erasable_opt (present : α → β) (absent : β) (h : Erasable w p) :
    Erasable w (p.opt present absent) := by
  intro n within
  refine (h within).bind fun o o' m _ same ahead inside => ?_
  obtain ⟨span, rfl⟩ := same
  show Erases w Outcome.Alike n (if o.isSuccessful then _ else _)
    (if o.isSuccessful then _ else _)
  by_cases success : o.isSuccessful = true
  · rw [if_pos success, if_pos success]
    exact .ok ⟨_, rfl⟩ ahead inside
  · rw [if_neg success, if_neg success]
    exact .ok ⟨_, rfl⟩ (Nat.le_refl n) within

theorem erasable_lookahead {p : Meaning Unit} (h : Erasable w p) : Erasable w p.lookahead := by
  intro n within
  refine (h within).bind fun o o' m _ same ahead inside => ?_
  obtain ⟨span, rfl⟩ := same
  exact .ok ⟨_, rfl⟩ (Nat.le_refl n) within

theorem erasable_not {p : Meaning Unit} (h : Erasable w p) : Erasable w p.not := by
  intro n within
  refine (h within).bind fun o o' m _ same ahead inside => ?_
  obtain ⟨span, rfl⟩ := same
  exact .ok ⟨_, rfl⟩ (Nat.le_refl n) within

/-! ### Searching -/

section

variable {o : Outcome α}

theorem skipTo_eq_error {e : ErrorAt} (tried : p w n = .error e) : p.skipTo w n = .error e := by
  rw [skipTo, tried]

theorem skipTo_eq_success (tried : p w n = .ok (o, m)) (success : o.isSuccessful = true) :
    p.skipTo w n = .ok (o, m) := by
  rw [skipTo, tried]
  exact if_pos success

theorem skipTo_eq_failure (tried : p w n = .ok (o, m)) (fails : ¬o.isSuccessful = true)
    (atEnd : w.left n = 0) : p.skipTo w n = .ok (.failure Step.tokenNotFound, n) := by
  rw [skipTo, tried]
  exact (if_neg fails).trans (if_pos atEnd)

theorem skipTo_eq_further (tried : p w n = .ok (o, m)) (fails : ¬o.isSuccessful = true)
    (more : ¬w.left n = 0) : p.skipTo w n = p.skipTo w (n + 1) := by
  rw [skipTo, tried]
  exact (if_neg fails).trans (if_neg more)

end

/-- A character to pass over costs the search a step that the other search does not make. The
induction is on the number of characters left. -/
theorem erasable_skipTo (h : Erasable w p) : Erasable w p.skipTo := by
  intro n within
  induction hsize : w.text.length - n using Nat.strongRecOn generalizing n with
  | ind size ih =>
      have ran := h within
      generalize tried : p w n = x at ran
      generalize tried' : p w.erase (w.kept n) = y at ran
      cases ran with
      | endless =>
          rw [skipTo_eq_error tried, skipTo_eq_error tried']
          exact .endless
      | @ok o o' m same ahead inside =>
          obtain ⟨span, rfl⟩ := same
          by_cases success : o.isSuccessful = true
          · rw [skipTo_eq_success tried success, skipTo_eq_success tried' success]
            exact .ok ⟨_, rfl⟩ ahead inside
          · cases next : w.next? n with
            | none =>
                have atEnd : w.left n = 0 :=
                  Nat.sub_eq_zero_of_le (List.getElem?_eq_none_iff.mp next)
                rw [skipTo_eq_failure tried success atEnd,
                  skipTo_eq_failure tried' success (Setting.left_erase_of_left atEnd)]
                exact .ok ⟨_, rfl⟩ (Nat.le_refl n) within
            | some c =>
                have more : n < w.text.length := (List.getElem?_eq_some_iff.mp next).1
                have further := (ih _ (by omega) more rfl).since (Nat.le_succ n)
                have places := Setting.kept_succ next
                rw [skipTo_eq_further tried success (Nat.sub_ne_zero_of_lt more)]
                by_cases stays : w.keeps c = true
                · rw [if_pos stays] at places
                  rw [skipTo_eq_further tried' success (Setting.left_erase_of_keeps next stays),
                    ← places]
                  exact further
                · -- the other search has no such character, and is already where this one goes
                  rw [if_neg stays] at places
                  rw [← Nat.add_zero (w.kept n), ← places]
                  exact further

end Meaning

end TextGrammar
