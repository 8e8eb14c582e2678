import TextGrammar.Proofs.Commitment.Conclusion

set_option autoImplicit false

/-! # The iterations of a repetition

A repetition is a chain of iterations, each of which begins where the one before has ended. It ends with
as many as its bounds allow, or where another iteration is missing, or where iterations do not get
further. The loops keep a tally; here it is tied to the values of the chain so far. -/

namespace TextGrammar.Meaning

variable {α β : Type}

/-! ## Iterations -/

section

variable (separator : Option (Meaning Unit)) (item : Meaning α) (w : Setting)

/-- An iteration that has `i` others before it: the separator, unless there are none, and the item
succeed one after the other. -/
inductive Iterates (i n : Nat) : α → Bool → Nat → Prop where
  | intro {value : α} {b b' : Bool} {k m : Nat}
      (before : (separation separator (i == 0)).ComesTo w n (.ok ()) b k)
      (here : item.ComesTo w k (.ok value) b' m) : Iterates i n value (b && b') m

/-- Such an iteration fails with a message. Beside whether the failure lets the choice around it go back,
this tells what is kept if it is taken back: whether a separator that succeeded does. -/
inductive Misses (i n : Nat) : String → (failed kept : Bool) → (stop : Nat) → Prop where
  | separator {message : String} {b : Bool} {stop : Nat}
      (here : (separation separator (i == 0)).ComesTo w n (.error message) b stop) :
      Misses i n message b true stop
  | item {message : String} {b b' : Bool} {k stop : Nat}
      (before : (separation separator (i == 0)).ComesTo w n (.ok ()) b k)
      (here : item.ComesTo w k (.error message) b' stop) : Misses i n message (b && b') b stop

/-- Iterations from the number `n` on, each from where the one before has ended, with the values of their
items, whether all separators and items let the choice around them go back, and where the last one has
ended. -/
inductive Chain (n : Nat) : List α → Bool → Nat → Prop where
  | nil : Chain n [] true n
  | concat {values : List α} {value : α} {b b' : Bool} {m k : Nat} (chain : Chain n values b m)
      (next : Iterates separator item w values.length m value b' k) :
      Chain n (values ++ [value]) (b && b') k

/-- Why a repetition ends behind the iterations with these values, and what the last attempt adds to
their permission to go back. -/
inductive Stops (bounds : Repeat) (n : Nat) (values : List α) (m : Nat) : (kept : Bool) → Prop where
  | full (most : values.length = bounds.max.toNat) : Stops bounds n values m true
  | missed {message : String} {failed kept : Bool} {stop : Nat}
      (room : bounds.min ≠ bounds.max)
      (miss : Misses separator item w values.length m message failed kept stop) :
      Stops bounds n values m kept
  | idle {earlier : List α} {value : α} {b b' : Bool} (unbounded : bounds.max = Repeat.unbounded)
      (last : values = earlier ++ [value]) (more : bounds.min.toNat < values.length)
      (chain : Chain separator item w n earlier b m)
      (still : Iterates separator item w earlier.length m value b' m) : Stops bounds n values m true

end

variable {separator : Option (Meaning Unit)} {item : Meaning α} {w : Setting} {n m k i : Nat}
  {value value' : α} {values values' : List α} {b b' : Bool}

/-! ## What is iterated is determined -/

theorem Iterates.unique (h : Iterates separator item w i n value b m)
    (h' : Iterates separator item w i n value' b' k) : value = value' ∧ b = b' ∧ m = k := by
  obtain ⟨before, here⟩ := h
  obtain ⟨before', here'⟩ := h'
  obtain ⟨-, rfl, rfl⟩ := before.eq before'
  obtain ⟨same, rfl, rfl⟩ := here.eq here'
  exact ⟨Except.ok.inj same, rfl, rfl⟩

theorem Iterates.not_misses {message : String} {failed kept : Bool}
    (h : Iterates separator item w i n value b m) :
    ¬Misses separator item w i n message failed kept k := by
  obtain ⟨before, here⟩ := h
  rintro (missing | ⟨before', missing⟩)
  · cases (before.eq missing).1
  · obtain ⟨-, -, rfl⟩ := before.eq before'
    cases (here.eq missing).1

theorem Chain.unique (h : Chain separator item w n values b m)
    (h' : Chain separator item w n values' b' k) (same : values.length = values'.length) :
    values = values' ∧ b = b' ∧ m = k := by
  induction h generalizing values' b' k with
  | nil =>
      cases h' with
      | nil => exact ⟨rfl, rfl, rfl⟩
      | concat chain next => simp at same
  | concat chain next ih =>
      cases h' with
      | nil => simp at same
      | concat chain' next' =>
          obtain ⟨rfl, rfl, rfl⟩ := ih chain' (by simpa using same)
          obtain ⟨rfl, rfl, rfl⟩ := next.unique next'
          exact ⟨rfl, rfl, rfl⟩

/-- Behind every shorter chain there is the next iteration. -/
theorem Chain.iterates (h : Chain separator item w n values b m)
    (h' : Chain separator item w n values' b' k) (shorter : values'.length < values.length) :
    ∃ value b l, Iterates separator item w values'.length k value b l := by
  induction h with
  | nil => simp at shorter
  | @concat values _ _ _ _ _ chain next ih =>
      rw [List.length_append, List.length_singleton, Nat.lt_succ_iff] at shorter
      rcases Nat.lt_or_eq_of_le shorter with less | same
      · exact ih less
      · obtain ⟨rfl, -, rfl⟩ := h'.unique chain same
        exact ⟨_, _, _, next⟩

/-! ## Iterations go onward -/

theorem ComesTo.ahead {p : Meaning α} {status : Except String α} (onward : UpheldFrom w 0 p p)
    (h : p.ComesTo w n status b m) (within : n ≤ w.text.length) : n ≤ m ∧ m ≤ w.text.length := by
  obtain ⟨span, came⟩ := h
  have upheld := onward (Nat.zero_le n) within
  rw [came] at upheld
  cases upheld with
  | ok ahead inside => exact ⟨ahead, inside⟩

theorem upheldFrom_separation (hseparator : ∀ s ∈ separator, UpheldFrom w 0 s s) (fresh : Bool) :
    UpheldFrom w 0 (separation separator fresh) (separation separator fresh) := by
  cases separator with
  | none => exact fun _ within => .ok (Nat.le_refl _) within
  | some s =>
      cases fresh with
      | true => exact fun _ within => .ok (Nat.le_refl _) within
      | false => exact hseparator s rfl

theorem Iterates.ahead (hseparator : ∀ s ∈ separator, UpheldFrom w 0 s s)
    (hitem : UpheldFrom w 0 item item) (h : Iterates separator item w i n value b m)
    (within : n ≤ w.text.length) : n ≤ m ∧ m ≤ w.text.length := by
  obtain ⟨before, here⟩ := h
  obtain ⟨ahead, inside⟩ := before.ahead (upheldFrom_separation hseparator _) within
  obtain ⟨later, there⟩ := here.ahead hitem inside
  exact ⟨Nat.le_trans ahead later, there⟩

theorem Chain.ahead (hseparator : ∀ s ∈ separator, UpheldFrom w 0 s s)
    (hitem : UpheldFrom w 0 item item) (h : Chain separator item w n values b m)
    (within : n ≤ w.text.length) : n ≤ m ∧ m ≤ w.text.length := by
  induction h with
  | nil => exact ⟨Nat.le_refl n, within⟩
  | concat chain next ih =>
      obtain ⟨later, there⟩ := next.ahead hseparator hitem ih.2
      exact ⟨Nat.le_trans ih.1 later, there⟩

/-! ## One round -/

/-- The tally behind a chain. -/
def tallyOf (add : β → α → β) (start : β) (values : List α) (backtrack : Bool) : Step.Tally β :=
  ⟨values.foldl add start, values.length == 0, backtrack⟩

variable {add : β → α → β} {start : β} {tally : Step.Tally β}

theorem iterates_of_round
    (done : round separator item add (tallyOf add start values b) w m = .ok (.done tally, k)) :
    ∃ value b', Iterates separator item w values.length m value b' k ∧
      tally = tallyOf add start (values ++ [value]) (b && b') := by
  obtain ⟨before, l, o, value, separated, hbefore, ran, ho, rfl⟩ := round_eq_done_iff.mp done
  obtain ⟨_, allowed, span⟩ := before
  obtain ⟨_, backtrack, span'⟩ := o
  cases hbefore
  cases ho
  exact ⟨value, allowed && backtrack, .intro ⟨span, separated⟩ ⟨span', ran⟩,
    by simp [tallyOf, Bool.and_assoc]⟩

theorem misses_of_round {message : String} {backtrack : Bool}
    (missed : round separator item add (tallyOf add start values b) w m =
      .ok (.missed message backtrack tally, k)) :
    ∃ failed kept, Misses separator item w values.length m message failed kept k ∧
      backtrack = (b && failed) ∧ tally = tallyOf add start values (b && kept) := by
  rw [round_eq] at missed
  rcases separated : separation separator (values.length == 0) w m with
    e | ⟨⟨status, allowed, span⟩, l⟩
  · rw [show separation separator (tallyOf add start values b).fresh w m = _ from separated] at missed
    cases missed
  · rw [show separation separator (tallyOf add start values b).fresh w m = _ from separated] at missed
    cases status with
    | error message =>
        cases missed
        exact ⟨allowed, true, .separator ⟨span, separated⟩, rfl, by simp [tallyOf]⟩
    | ok _ =>
        change (item w l >>= _) = _ at missed
        rcases ran : item w l with e | ⟨⟨status', backtrack', span'⟩, l'⟩
        · rw [ran] at missed
          cases missed
        · rw [ran] at missed
          cases status' with
          | ok value => cases missed
          | error message =>
              cases missed
              exact ⟨allowed && backtrack', allowed, .item ⟨span, separated⟩ ⟨span', ran⟩,
                Bool.and_assoc _ _ _, rfl⟩

/-! ## Many rounds -/

/-- What `count` required rounds come to: a chain of as many iterations, or a shorter one behind which
an iteration misses. -/
inductive Requires (separator : Option (Meaning Unit)) (item : Meaning α) (w : Setting)
    (add : β → α → β) (start : β) (n count : Nat) : Step.Round β → Nat → Prop where
  | done {values : List α} {b : Bool} {k : Nat} (chain : Chain separator item w n values b k)
      (all : values.length = count) :
      Requires separator item w add start n count (.done (tallyOf add start values b)) k
  | missed {values : List α} {b failed kept : Bool} {l k : Nat} {message : String}
      {tally : Step.Tally β} (chain : Chain separator item w n values b l)
      (short : values.length < count)
      (miss : Misses separator item w values.length l message failed kept k) :
      Requires separator item w add start n count (.missed message (b && failed) tally) k

theorem requires_of_required {count : Nat} {round : Step.Round β}
    (chain : Chain separator item w n values b m)
    (ran : required separator item add count (tallyOf add start values b) w m = .ok (round, k)) :
    Requires separator item w add start n (values.length + count) round k := by
  induction count generalizing values b m with
  | zero =>
      cases ran
      exact .done chain rfl
  | succ count ih =>
      change (Meaning.round _ _ _ _ _ _ >>= _) = _ at ran
      rcases first : Meaning.round separator item add (tallyOf add start values b) w m with
        e | ⟨missed | ⟨message, backtrack, tally⟩, l⟩
      · rw [first] at ran
        cases ran
      · rw [first] at ran
        obtain ⟨value, b', next, rfl⟩ := iterates_of_round first
        have onward := ih (chain.concat next) ran
        rwa [List.length_append, List.length_singleton, Nat.add_assoc, Nat.add_comm 1 count] at onward
      · rw [first] at ran
        cases ran
        obtain ⟨failed, kept, miss, rfl, -⟩ := misses_of_round first
        exact .missed chain (Nat.lt_add_of_pos_right (Nat.succ_pos count)) miss

/-- From `min` iterations on, each of the first `count` iterations ends further than it began. -/
def Moves (separator : Option (Meaning Unit)) (item : Meaning α) (w : Setting) (n min count : Nat) :
    Prop :=
  ∀ values b m value b' k, Chain separator item w n values b m → min ≤ values.length →
    values.length < count → Iterates separator item w values.length m value b' k → m < k

theorem Moves.mono {count count' : Nat} (h : Moves separator item w n i count) (less : count' ≤ count) :
    Moves separator item w n i count' :=
  fun _ _ _ _ _ _ chain optional within next =>
    h _ _ _ _ _ _ chain optional (Nat.lt_of_lt_of_le within less) next

theorem Moves.succ (h : Moves separator item w n i values.length)
    (chain : Chain separator item w n values b m)
    (next : Iterates separator item w values.length m value b' k) (moved : m < k) :
    Moves separator item w n i (values.length + 1) := by
  intro values' _ m' _ _ k' chain' optional within next'
  rcases Nat.lt_or_eq_of_le (Nat.le_of_lt_succ within) with less | same
  · exact h _ _ _ _ _ _ chain' optional less next'
  · obtain ⟨rfl, -, rfl⟩ := chain'.unique chain same
    obtain ⟨-, -, rfl⟩ := next'.unique next
    exact moved

end TextGrammar.Meaning
