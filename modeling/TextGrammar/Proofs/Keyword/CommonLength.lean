import TextGrammar.Keyword

set_option autoImplicit false

/-! # What texts have in common at their beginning

Of three texts, the two smallest of the three common lengths are equal, and of three texts in
ascending order the outer two have the least in common. -/

namespace TextGrammar

variable {as bs cs : List Char}

@[simp] theorem commonLength_nil_left (bs : List Char) : commonLength [] bs = 0 := rfl

@[simp] theorem commonLength_nil_right (as : List Char) : commonLength as [] = 0 := by
  cases as <;> rfl

/-- An equal first letter is one letter more in common. -/
@[simp] theorem commonLength_cons_self (a : Char) (as bs : List Char) :
    commonLength (a :: as) (a :: bs) = commonLength as bs + 1 := by
  rw [commonLength, if_pos rfl]

theorem commonLength_cons_of_ne {a b : Char} (h : a ≠ b) (as bs : List Char) :
    commonLength (a :: as) (b :: bs) = 0 := by
  rw [commonLength, if_neg h]

/-- Where the first letter is another one, there is nothing in common. -/
theorem commonLength_eq_zero {a : Char} (h : bs.head? ≠ some a) :
    commonLength (a :: as) bs = 0 := by
  cases bs with
  | nil => rfl
  | cons b bs => exact commonLength_cons_of_ne (fun same => h (congrArg some same.symm)) as bs

theorem commonLength_comm (as bs : List Char) : commonLength as bs = commonLength bs as := by
  induction as generalizing bs with
  | nil => simp
  | cons a as ih =>
      cases bs with
      | nil => rfl
      | cons b bs =>
          by_cases h : a = b
          · subst h
            rw [commonLength_cons_self, commonLength_cons_self, ih]
          · rw [commonLength_cons_of_ne h, commonLength_cons_of_ne (Ne.symm h)]

theorem commonLength_le_left (as bs : List Char) : commonLength as bs ≤ as.length := by
  induction as generalizing bs with
  | nil => simp
  | cons a as ih =>
      cases bs with
      | nil => simp
      | cons b bs =>
          by_cases h : a = b
          · subst h
            rw [commonLength_cons_self, List.length_cons]
            exact Nat.succ_le_succ (ih bs)
          · rw [commonLength_cons_of_ne h]
            exact Nat.zero_le _

/-- Two texts agree as far as their common length goes. -/
theorem take_commonLength (as bs : List Char) :
    as.take (commonLength as bs) = bs.take (commonLength as bs) := by
  induction as generalizing bs with
  | nil => simp
  | cons a as ih =>
      cases bs with
      | nil => simp
      | cons b bs =>
          by_cases h : a = b
          · subst h
            rw [commonLength_cons_self, List.take_succ_cons, List.take_succ_cons, ih]
          · rw [commonLength_cons_of_ne h, List.take_zero, List.take_zero]

/-- What is left of two texts behind letters in common has the rest in common. -/
theorem add_commonLength_drop {n : Nat} (h : n ≤ commonLength as bs) :
    n + commonLength (as.drop n) (bs.drop n) = commonLength as bs := by
  induction n generalizing as bs with
  | zero => simp
  | succ n ih =>
      cases as with
      | nil => simp at h
      | cons a as =>
          cases bs with
          | nil => simp at h
          | cons b bs =>
              by_cases hab : a = b
              · subst hab
                rw [commonLength_cons_self] at h ⊢
                have rest := ih (Nat.le_of_succ_le_succ h)
                rw [List.drop_succ_cons, List.drop_succ_cons]
                omega
              · rw [commonLength_cons_of_ne hab] at h
                omega

/-! ## Prefixes -/

/-- A text that is all in common is a prefix. -/
theorem isPrefix_iff : as <+: bs ↔ as[commonLength as bs]? = none := by
  rw [List.getElem?_eq_none_iff]
  constructor
  · rintro ⟨rest, rfl⟩
    induction as with
    | nil => simp
    | cons a as ih => simpa using ih
  · intro h
    have whole : commonLength as bs = as.length :=
      Nat.le_antisymm (commonLength_le_left as bs) h
    have agree := take_commonLength as bs
    rw [whole, List.take_length] at agree
    exact List.prefix_iff_eq_take.mpr agree

theorem commonLength_of_isPrefix (h : as <+: bs) : commonLength as bs = as.length :=
  Nat.le_antisymm (commonLength_le_left as bs) (List.getElem?_eq_none_iff.mp (isPrefix_iff.mp h))

/-- Behind a text that is all in common, more may be in common. -/
theorem commonLength_append_of_isPrefix (h : as <+: bs) (cs : List Char) :
    commonLength (as ++ cs) bs = as.length + commonLength cs (bs.drop as.length) := by
  obtain ⟨rest, rfl⟩ := h
  induction as with
  | nil => simp
  | cons a as ih =>
      rw [List.cons_append, List.cons_append, commonLength_cons_self, ih, List.length_cons,
        List.drop_succ_cons]
      omega

/-- Behind a mismatch, nothing is in common any more. -/
theorem commonLength_append_of_lt (h : commonLength as bs < as.length) (cs : List Char) :
    commonLength (as ++ cs) bs = commonLength as bs := by
  induction as generalizing bs with
  | nil => simp at h
  | cons a as ih =>
      cases bs with
      | nil => simp
      | cons b bs =>
          by_cases hab : a = b
          · subst hab
            rw [commonLength_cons_self, List.length_cons] at h
            rw [List.cons_append, commonLength_cons_self, commonLength_cons_self,
              ih (Nat.lt_of_succ_lt_succ h)]
          · rw [List.cons_append, commonLength_cons_of_ne hab, commonLength_cons_of_ne hab]

/-! ## Three texts -/

/-- What two texts have in common with a third one, they have in common. -/
theorem min_commonLength_le (as bs cs : List Char) :
    min (commonLength as bs) (commonLength bs cs) ≤ commonLength as cs := by
  induction bs generalizing as cs with
  | nil => simp
  | cons b bs ih =>
      cases as with
      | nil => simp
      | cons a as =>
          cases cs with
          | nil => simp
          | cons c cs =>
              by_cases hab : a = b
              · by_cases hbc : b = c
                · subst hab hbc
                  have := ih as cs
                  simp only [commonLength_cons_self]
                  omega
                · rw [commonLength_cons_of_ne hbc]
                  omega
              · rw [commonLength_cons_of_ne hab]
                omega

/-- A text that goes along with the first of two texts no further than the second does goes along with
the second as far. -/
theorem commonLength_le_of_le (h : commonLength as cs ≤ commonLength as bs) :
    commonLength as cs ≤ commonLength bs cs := by
  have least := min_commonLength_le bs as cs
  rw [commonLength_comm bs as] at least
  omega

/-- A text that has less in common with the second of two texts than the two have with each other has
as much in common with the first. -/
theorem commonLength_eq_of_lt (h : commonLength as bs < commonLength bs cs) :
    commonLength as cs = commonLength as bs := by
  have least := min_commonLength_le as bs cs
  have back := min_commonLength_le as cs bs
  rw [commonLength_comm cs bs] at back
  omega

/-- The outer two of three ascending texts have the least in common. -/
theorem commonLength_le_of_lt (hab : as < bs) (hbc : bs < cs) :
    commonLength as cs ≤ commonLength as bs := by
  induction as generalizing bs cs with
  | nil => simp
  | cons a as ih =>
      cases bs with
      | nil => exact absurd hab (List.not_lt_nil _)
      | cons b bs =>
          cases cs with
          | nil => simp
          | cons c cs =>
              by_cases hac : a = c
              · subst hac
                rcases List.cons_lt_cons_iff.mp hab with hlt | ⟨rfl, has⟩
                · rcases List.cons_lt_cons_iff.mp hbc with hlt' | ⟨rfl, -⟩
                  · exact absurd (Char.lt_trans hlt hlt') (Char.lt_irrefl a)
                  · exact absurd hlt (Char.lt_irrefl _)
                · rcases List.cons_lt_cons_iff.mp hbc with hlt' | ⟨-, hbs⟩
                  · exact absurd hlt' (Char.lt_irrefl a)
                  · simpa using ih has hbs
              · rw [commonLength_cons_of_ne hac]
                exact Nat.zero_le _

end TextGrammar
