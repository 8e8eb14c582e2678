import Mathlib
import TextGrammar.CharClass.Printed
import TextGrammar.Text.Digit

set_option autoImplicit false

/-! # What the printed form of a class tells

The printed form of a set of ranges is a row of letters between brackets, the bounds and the hyphens.
Each letter can be read back, since what has a meaning of its own there is escaped. Only the hyphen
is not: it is the sign between two bounds, and as a bound it is written in the same way. So ranges at
the hyphen may be grouped in two ways that print the same, and nothing else does. -/

namespace TextGrammar

namespace Text

/-- The number that hexadecimal digits stand for. -/
def hexNumber (digits : List Char) : Nat :=
  digits.foldl (fun number digit => number * 16 + hexValue digit) 0

theorem hexValue_digitChar : ∀ d < 16, hexValue (Nat.digitChar d) = d := by
  decide

/-- The digits of a number stand for it. -/
theorem hexNumber_toDigits (n : Nat) : hexNumber (Nat.toDigits 16 n) = n := by
  induction n using Nat.strongRecOn with
  | ind n ih =>
      rw [Nat.toDigits_eq_if (by decide)]
      split
      · rename_i small
        simpa [hexNumber] using hexValue_digitChar n small
      · rename_i large
        have front := ih (n / 16) (by omega)
        have last := hexValue_digitChar (n % 16) (by omega)
        unfold hexNumber at front ⊢
        rw [List.foldl_append, front, List.foldl_cons, List.foldl_nil, last]
        omega

theorem hexValue_lt_of_mem_toDigits {n : Nat} {c : Char} (h : c ∈ Nat.toDigits 16 n) :
    hexValue c < 16 := by
  induction n using Nat.strongRecOn with
  | ind n ih =>
      rw [Nat.toDigits_eq_if (by decide)] at h
      split at h
      · rename_i small
        rw [List.mem_singleton.mp h, hexValue_digitChar n small]
        exact small
      · rename_i large
        rcases List.mem_append.mp h with front | last
        · exact ih (n / 16) (by omega) front
        · have bounded : n % 16 < 16 := Nat.mod_lt n (by decide)
          rw [List.mem_singleton.mp last, hexValue_digitChar _ bounded]
          exact bounded

end Text

namespace CharRange

/-! ## Letters -/

/-- One letter of a printed form behind a backslash, with what follows it. -/
def readEscape : List Char → Option (Char × List Char)
  | [] => none
  | 't' :: rest => some ('\t', rest)
  | 'n' :: rest => some ('\n', rest)
  | 'r' :: rest => some ('\r', rest)
  | 'u' :: rest =>
    let digits := rest.tail.takeWhile (· ≠ '\x7d')
    some (Char.ofNat (Text.hexNumber digits), rest.tail.drop (digits.length + 1))
  | c :: rest => some (c, rest)

/-- The first letter of a printed form, with what follows it. -/
def readLetter : List Char → Option (Char × List Char)
  | [] => none
  | c :: rest => if c = '\\' then readEscape rest else some (c, rest)

theorem readEscape_code (c : Char) (rest : List Char) :
    readEscape ('u' :: '\x7b' :: (Nat.toDigits 16 c.toNat ++ '\x7d' :: rest)) = some (c, rest) := by
  have digits : (Nat.toDigits 16 c.toNat ++ '\x7d' :: rest).takeWhile (· ≠ '\x7d') =
      Nat.toDigits 16 c.toNat := by
    have inside : ∀ d ∈ Nat.toDigits 16 c.toNat, (decide (d ≠ '\x7d')) = true := by
      intro d hd
      have value := Text.hexValue_lt_of_mem_toDigits hd
      rw [decide_eq_true_eq]
      rintro rfl
      exact absurd value (by decide)
    rw [List.takeWhile_append_of_pos inside, List.takeWhile_cons_of_neg (by decide),
      List.append_nil]
  have behind : (Nat.toDigits 16 c.toNat ++ '\x7d' :: rest).drop
      ((Nat.toDigits 16 c.toNat).length + 1) = rest := by
    simp
  simp only [readEscape, List.tail_cons, digits, behind, Text.hexNumber_toDigits, Char.ofNat_toNat]

/-- What is written for a character is read back as that character. -/
theorem readLetter_letterText (c : Char) (rest : List Char) :
    readLetter ((letterText c).toList ++ rest) = some (c, rest) := by
  fun_cases letterText c with
  | case1 special => rcases special with rfl | rfl | rfl | rfl <;> rfl
  | case2 _ _ tab => subst tab; rfl
  | case3 _ _ _ line => subst line; rfl
  | case4 _ _ _ _ ret => subst ret; rfl
  | case5 =>
      have here := readEscape_code c rest
      simpa [Text.codeEscape, Text.hexCode, readLetter] using here
  | case6 plain => simp_all [readLetter]

/-- Several characters, written one after another. -/
def lettersText (letters : List Char) : List Char :=
  letters.flatMap fun c => (letterText c).toList

theorem readLetter_lettersText (c : Char) (cs : List Char) :
    readLetter (lettersText (c :: cs)) = some (c, lettersText cs) :=
  readLetter_letterText c (lettersText cs)

/-- What is written for several characters tells them. -/
theorem lettersText_injective : Function.Injective lettersText := by
  intro cs ds same
  induction cs generalizing ds with
  | nil =>
      cases ds with
      | nil => rfl
      | cons d ds =>
          -- an empty row has no first letter
          have read := readLetter_lettersText d ds
          rw [← same] at read
          simp [lettersText, readLetter] at read
  | cons c cs ih =>
      have read := readLetter_lettersText c cs
      rw [same] at read
      cases ds with
      | nil => simp [lettersText, readLetter] at read
      | cons d ds =>
          rw [readLetter_lettersText, Option.some.injEq, Prod.mk.injEq] at read
          obtain ⟨rfl, rest⟩ := read
          rw [ih rest.symm]

/-! ## Rows of ranges -/

/-- The range of more than one character. -/
def proper (a b : Char) (h : a < b) : CharRange :=
  ⟨a, b, le_of_lt h⟩

/-- A range has one member or more. -/
inductive Shape : CharRange → Prop
  | single (c : Char) : Shape (single c)
  | proper (a b : Char) (h : a < b) : Shape (proper a b h)

theorem shape : (r : CharRange) → Shape r
  | ⟨lo, hi, h⟩ => by
    rcases lt_or_eq_of_le h with less | rfl
    · exact .proper lo hi less
    · exact .single lo

/-- The characters in the printed form of a range. -/
def spelled (r : CharRange) : List Char :=
  if r.lo = r.hi then [r.lo] else [r.lo, '-', r.hi]

@[simp] theorem spelled_single (c : Char) : (single c).spelled = [c] :=
  if_pos rfl

@[simp] theorem spelled_proper (a b : Char) (h : a < b) :
    (proper a b h).spelled = [a, '-', b] :=
  if_neg (ne_of_lt h)

@[simp] theorem lo_single (c : Char) : (single c).lo = c := rfl

@[simp] theorem lo_proper (a b : Char) (h : a < b) : (proper a b h).lo = a := rfl

@[simp] theorem hi_proper (a b : Char) (h : a < b) : (proper a b h).hi = b := rfl

/-- The characters in the printed form of several ranges. -/
def row (ranges : List CharRange) : List Char :=
  ranges.flatMap spelled

@[simp] theorem row_cons (r : CharRange) (ranges : List CharRange) :
    row (r :: ranges) = r.spelled ++ row ranges := rfl

/-- The hyphen is not escaped, so the sign between two bounds is written like the character. -/
@[simp] theorem letterText_hyphen : letterText '-' = "-" := by
  decide

theorem toList_text (r : CharRange) : r.text.toList = lettersText r.spelled := by
  rcases r.shape with c | ⟨a, b, h⟩
  · simp [text, single, lettersText, spelled]
  · simp [text, proper, lettersText, spelled, ne_of_lt h]

/-- A row begins with the lower bound of its first range. -/
theorem exists_cons_of_row_eq {ranges : List CharRange} {c : Char} {rest : List Char}
    (h : row ranges = c :: rest) : ∃ r others, ranges = r :: others ∧ r.lo = c := by
  cases ranges with
  | nil => cases h
  | cons r others =>
      refine ⟨r, others, rfl, ?_⟩
      rcases r.shape with a | ⟨a, b, less⟩ <;> simp_all

theorem row_ne_cons {ranges : List CharRange} {c : Char} (h : ∀ r ∈ ranges, r.lo ≠ c)
    (rest : List Char) : row ranges ≠ c :: rest := by
  intro same
  obtain ⟨r, others, rfl, bound⟩ := exists_cons_of_row_eq same
  exact h r List.mem_cons_self bound

theorem eq_nil_of_row_eq {ranges : List CharRange} (h : row ranges = []) : ranges = [] := by
  cases ranges with
  | nil => rfl
  | cons r others => rcases r.shape with a | ⟨a, b, less⟩ <;> simp at h

/-- Rows that are the same either begin with the same range, or one of them goes on with a hyphen where
the other one joins two bounds. -/
theorem row_cons_eq {r s : CharRange} {rs ss : List CharRange} (h : row (r :: rs) = row (s :: ss)) :
    (r = s ∧ row rs = row ss) ∨
      (∃ a b less, r = single a ∧ s = proper a b less ∧ row rs = '-' :: b :: row ss) ∨
      ∃ a b less, r = proper a b less ∧ s = single a ∧ row ss = '-' :: b :: row rs := by
  rcases r.shape with a | ⟨a, b, less⟩ <;> rcases s.shape with c | ⟨c, d, less'⟩
  · simp_all
  · simp only [row_cons, spelled_single, spelled_proper, List.cons_append, List.nil_append,
      List.cons.injEq] at h
    obtain ⟨rfl, h⟩ := h
    exact .inr (.inl ⟨a, d, less', rfl, rfl, h⟩)
  · simp only [row_cons, spelled_single, spelled_proper, List.cons_append, List.nil_append,
      List.cons.injEq] at h
    obtain ⟨rfl, h⟩ := h
    exact .inr (.inr ⟨a, b, less, rfl, rfl, h.symm⟩)
  · simp_all

/-- Where no range begins with the hyphen, each hyphen behind a bound joins it to the next one, and the
row tells the ranges. -/
theorem eq_of_row_eq {rs ss : List CharRange} (hr : ∀ r ∈ rs, r.lo ≠ '-') (hs : ∀ s ∈ ss, s.lo ≠ '-')
    (h : row rs = row ss) : rs = ss := by
  induction rs generalizing ss with
  | nil => exact (eq_nil_of_row_eq h.symm).symm
  | cons r rs ih =>
      cases ss with
      | nil => exact eq_nil_of_row_eq h
      | cons s ss =>
          simp only [List.forall_mem_cons] at hr hs
          rcases row_cons_eq h with ⟨rfl, rest⟩ | ⟨a, b, -, -, -, rest⟩ | ⟨a, b, -, -, -, rest⟩
          · rw [ih hr.2 hs.2 rest]
          · exact absurd rest (row_ne_cons hr.2 _)
          · exact absurd rest (row_ne_cons hs.2 _)

end CharRange

theorem Gapped.tail {r : CharRange} {ranges : List CharRange} (h : Gapped (r :: ranges)) :
    Gapped ranges :=
  (List.pairwise_cons.mp h).2

theorem Gapped.before {r s : CharRange} {ranges : List CharRange} (h : Gapped (r :: s :: ranges)) :
    r.Before s :=
  (List.pairwise_cons.mp h).1 s List.mem_cons_self

/-- What lies behind a range does not begin with a character up to its end. -/
theorem Gapped.lo_ne {r : CharRange} {ranges : List CharRange} {c : Char} (h : Gapped (r :: ranges))
    (le : c ≤ r.hi) : ∀ s ∈ ranges, s.lo ≠ c := by
  rintro s hs rfl
  have gap := (List.pairwise_cons.mp h).1 s hs
  have le := (char_le_iff _ _).mp le
  unfold CharRange.Before at gap
  omega

/-- What lies in a later range does not lie in the first one. -/
theorem Gapped.contains_eq_false {r : CharRange} {ranges : List CharRange} {c : Char}
    (h : Gapped (r :: ranges)) (later : ranges.any (·.contains c) = true) : r.contains c = false := by
  obtain ⟨s, hs, within⟩ := List.any_eq_true.mp later
  have gap := (List.pairwise_cons.mp h).1 s hs
  have low := (CharRange.contains_iff s c).mp within
  unfold CharRange.Before at gap
  rw [Bool.eq_false_iff, ne_eq, CharRange.contains_iff]
  unfold CharRange.Holds at *
  omega

namespace CharRange

/-- The ranges at the hyphen are grouped in two ways. -/
inductive Regrouped : List CharRange → List CharRange → Prop
  /-- The hyphen is a member between two others, or joins these as bounds. -/
  | joined (a b : Char) (less : a < b) (rest : List CharRange) :
      Regrouped (single a :: single '-' :: single b :: rest) (proper a b less :: rest)
  /-- The hyphen is the lower bound of the second range, or the upper bound of the first one. -/
  | shifted (a b : Char) (below : a < '-') (above : '-' < b) (rest : List CharRange) :
      Regrouped (single a :: proper '-' b above :: rest) (proper a '-' below :: single b :: rest)
  /-- The ranges in front are the same. -/
  | later (r : CharRange) {rs ss : List CharRange} (h : Regrouped rs ss) :
      Regrouped (r :: rs) (r :: ss)

theorem Regrouped.row_eq {rs ss : List CharRange} (h : Regrouped rs ss) : row rs = row ss := by
  induction h with
  | joined | shifted => simp
  | later r _ ih => simp [ih]

/-- The two ways do not mean the same. The character behind the hyphen is a member where a range goes on
past the hyphen, and is not where the hyphen is the end of its range. -/
theorem Regrouped.contains_ne {rs ss : List CharRange} (h : Regrouped rs ss) (hr : Gapped rs)
    (hs : Gapped ss) : rs.any (·.contains '.') ≠ ss.any (·.contains '.') := by
  induction h with
  | joined a b less rest =>
      have below : a.toNat + 1 < 45 := hr.before
      have above : 45 + 1 < b.toNat := hr.tail.before
      have within : (proper a b less).contains '.' = true := by
        simp only [contains_iff, Holds, lo_proper, hi_proper, Char.reduceToNat]
        omega
      have behind : rest.any (·.contains '.') = false := by
        grind [hs.contains_eq_false]
      have lower : a ≠ '.' := by
        rintro rfl
        exact absurd below (by decide)
      have upper : b ≠ '.' := by
        rintro rfl
        exact absurd above (by decide)
      simp [contains_single, within, behind, lower, upper]
  | shifted a b below above rest =>
      have low : a.toNat + 1 < 45 := hr.before
      have high : 45 + 1 < b.toNat := hs.before
      have within : (proper '-' b above).contains '.' = true := by
        simp only [contains_iff, Holds, lo_proper, hi_proper, Char.reduceToNat]
        omega
      have behind : rest.any (·.contains '.') = false := by
        grind [hr.tail.contains_eq_false]
      have upper : b ≠ '.' := by
        rintro rfl
        exact absurd high (by decide)
      have short : (proper a '-' below).contains '.' = false := by
        rw [Bool.eq_false_iff, ne_eq, contains_iff, Holds, hi_proper]
        exact fun within => absurd within.2 (by decide)
      simp [contains_single, within, behind, upper, short]
  | later r h ih =>
      -- one of the rests has the character, so the range in front has not
      have differ := ih hr.tail hs.tail
      grind [Gapped.contains_eq_false]

section Hyphen

variable {a b : Char} {less : a < b} {rs ss : List CharRange}

/-- A hyphen that is a member stands between the two bounds that it joins in the other row. Behind these
no range begins with a hyphen, so both go on in the same way. -/
theorem regrouped_of_member (hr : Gapped (single a :: single '-' :: rs))
    (hs : Gapped (proper a b less :: ss)) (h : row rs = b :: row ss) :
    Regrouped (single a :: single '-' :: rs) (proper a b less :: ss) := by
  obtain ⟨q, rs, rfl, bound⟩ := exists_cons_of_row_eq h
  have gap : (single '-').Before q := hr.tail.before
  have behind : '-' ≤ b := by
    rw [char_le_iff, ← bound]
    exact Nat.le_of_lt (Nat.lt_of_succ_lt gap)
  have none := hs.lo_ne behind
  rcases q.shape with c | ⟨c, d, _⟩
  · obtain rfl : c = b := bound
    have rest : row rs = row ss := by simpa using h
    rw [eq_of_row_eq (hr.tail.tail.lo_ne behind) none rest]
    exact .joined a c less ss
  · -- a longer range goes on with a hyphen, and no range of the other row begins with one
    obtain rfl : c = b := bound
    have rest : row ss = '-' :: d :: row rs := by simpa using h.symm
    exact absurd rest (row_ne_cons none _)

/-- A hyphen that is a lower bound is the upper one in the other row, and the upper bound behind it is a
member there. -/
theorem regrouped_of_bound {above : '-' < b} {below : a < '-'}
    (hr : Gapped (single a :: proper '-' b above :: rs)) (hs : Gapped (proper a '-' below :: ss))
    (h : row ss = b :: row rs) :
    Regrouped (single a :: proper '-' b above :: rs) (proper a '-' below :: ss) := by
  obtain ⟨q, ss, rfl, bound⟩ := exists_cons_of_row_eq h
  have none := hr.tail.lo_ne (le_of_lt above)
  rcases q.shape with c | ⟨c, d, _⟩
  · obtain rfl : c = b := bound
    have rest : row rs = row ss := by simpa using h.symm
    rw [eq_of_row_eq none (hs.tail.lo_ne (le_of_lt above)) rest]
    exact .shifted a c below above ss
  · obtain rfl : c = b := bound
    have rest : row rs = '-' :: d :: row ss := by simpa using h.symm
    exact absurd rest (row_ne_cons none _)

/-- Where one row begins with one member and the other one with a longer range, there is no other way to go
on. -/
theorem regrouped_of_row_eq (hr : Gapped (single a :: rs)) (hs : Gapped (proper a b less :: ss))
    (h : row rs = '-' :: b :: row ss) : Regrouped (single a :: rs) (proper a b less :: ss) := by
  obtain ⟨q, rs, rfl, hyphen⟩ := exists_cons_of_row_eq h
  rcases q.shape with c | ⟨c, d, above⟩
  · obtain rfl : c = '-' := hyphen
    exact regrouped_of_member hr hs (by simpa using h)
  · obtain rfl : c = '-' := hyphen
    simp only [row_cons, spelled_proper, List.cons_append, List.nil_append, List.cons.injEq,
      true_and] at h
    obtain ⟨rfl, rest⟩ := h
    exact regrouped_of_bound hr hs rest.symm

end Hyphen

/-- Ascending ranges that are printed in the same way are the same or are grouped otherwise at the
hyphen. -/
theorem row_eq_iff {rs ss : List CharRange} (hr : Gapped rs) (hs : Gapped ss) :
    row rs = row ss ↔ rs = ss ∨ Regrouped rs ss ∨ Regrouped ss rs := by
  constructor
  · intro h
    induction rs generalizing ss with
    | nil => exact .inl (eq_nil_of_row_eq h.symm).symm
    | cons r rs ih =>
        cases ss with
        | nil => exact .inl (eq_nil_of_row_eq h)
        | cons s ss =>
            rcases row_cons_eq h with ⟨rfl, rest⟩ | ⟨a, b, less, rfl, rfl, rest⟩ |
              ⟨a, b, less, rfl, rfl, rest⟩
            · rcases ih hr.tail hs.tail rest with rfl | here | there
              · exact .inl rfl
              · exact .inr (.inl (.later r here))
              · exact .inr (.inr (.later r there))
            · exact .inr (.inl (regrouped_of_row_eq hr hs rest))
            · exact .inr (.inr (regrouped_of_row_eq hs hr rest))
  · rintro (rfl | here | there)
    · rfl
    · exact here.row_eq
    · exact there.row_eq.symm

end CharRange

/-- The printed form of a set tells its row of letters and no more. -/
theorem RangeSet.text_eq_iff (k l : RangeSet) :
    k.text = l.text ↔ CharRange.row k.ranges = CharRange.row l.ranges := by
  have letters (m : RangeSet) :
      m.text.toList = '[' :: CharRange.lettersText (CharRange.row m.ranges) ++ [']'] := by
    simp [RangeSet.text, CharRange.row, CharRange.lettersText, String.toList_join, List.flatMap_map,
      CharRange.toList_text, List.flatMap_assoc]
  rw [← String.toList_inj, letters, letters]
  constructor
  · intro same
    exact CharRange.lettersText_injective (by simpa using same)
  · intro same
    rw [same]

namespace CharClass

/-- Two classes of ranges have one printed form when their ranges are the same, or are grouped in two
ways at the hyphen: as a member between two others and as the sign between two bounds, or as a bound of
the second and of the first of two ranges. Of two such groupings just one has the full stop, which is the
character behind the hyphen. Classes in which no range begins with the hyphen are told by their printed
forms. -/
theorem text_eq_iff_regrouped {k l : CharClass} {rs ss : List CharRange} (hk : k.ranges? = some rs)
    (hl : l.ranges? = some ss) :
    (k.text = l.text ↔ rs = ss ∨ CharRange.Regrouped rs ss ∨ CharRange.Regrouped ss rs) ∧
      (k.text = l.text → rs ≠ ss → k.contains '.' ≠ l.contains '.') ∧
      ((∀ r ∈ rs, r.lo ≠ '-') → (∀ s ∈ ss, s.lo ≠ '-') → k.text = l.text → rs = ss) := by
  obtain ⟨m, rfl, rfl⟩ : ∃ m, k = .ranges m ∧ m.ranges = rs := by
    cases k <;> simp_all [ranges?]
  obtain ⟨n, rfl, rfl⟩ : ∃ n, l = .ranges n ∧ n.ranges = ss := by
    cases l <;> simp_all [ranges?]
  simp only [text, RangeSet.text_eq_iff, contains, RangeSet.contains_eq_any]
  have told := CharRange.row_eq_iff m.gapped n.gapped
  refine ⟨told, ?_, CharRange.eq_of_row_eq⟩
  intro same other
  rcases told.mp same with equal | here | there
  · exact absurd equal other
  · exact here.contains_ne m.gapped n.gapped
  · exact (there.contains_ne n.gapped m.gapped).symm

theorem text_eq_iff_regrouped_at_a_hyphen :
    (anyOf ['+', '-', '/']).text = (between '+' '/').text ∧
      (anyOf ['a', 'c']).text ≠ (between 'a' 'c').text := by
  constructor
  · have three : (anyOf ['+', '-', '/']).ranges? =
        some [.single '+', .single '-', .single '/'] := by cbv
    have joined : (between '+' '/').ranges? = some [.proper '+' '/' (by decide)] := by decide
    exact (text_eq_iff_regrouped three joined).1.mpr (.inr (.inl (.joined '+' '/' (by decide) [])))
  · have two : (anyOf ['a', 'c']).ranges? = some [.single 'a', .single 'c'] := by cbv
    have joined : (between 'a' 'c').ranges? = some [.proper 'a' 'c' (by decide)] := by decide
    intro same
    have told := (text_eq_iff_regrouped two joined).2.2
    exact absurd (told (by decide) (by decide) same) (by decide)

/-- The comma is in the range from the plus sign to the slash, but is not one of the three characters
whose class is printed in the same way. -/
theorem text_not_injective_at_hyphen :
    (anyOf ['+', '-', '/']).ranges? = some [.single '+', .single '-', .single '/'] ∧
      (between '+' '/').ranges? = some [.between '+' '/'] ∧
      (anyOf ['+', '-', '/']).text = (between '+' '/').text ∧
      (anyOf ['+', '-', '/']).contains ',' = false ∧ (between '+' '/').contains ',' = true := by
  refine ⟨?_, ?_, ?_, ?_, ?_⟩ <;> cbv

end CharClass

end TextGrammar
