import Mathlib.Data.List.TakeWhile
import TextGrammar.Proofs.Depth.Upheld

set_option autoImplicit false

/-! # A text without the characters to pass over

Leaving out the characters that are passed over gives another text, and a place in the first has one
in the second: as many characters from its beginning as there are characters before the place that
stay. Behind the characters to pass over, the next character is the same in both. -/

namespace TextGrammar.Setting

variable {w : Setting} {n m : Nat} {c : Char}

/-- The character is not one to pass over. -/
def keeps (w : Setting) (c : Char) : Bool :=
  !w.skip.any (·.contains c)

/-- The text without the characters to pass over, and nothing to pass over. -/
def erase (w : Setting) : Setting :=
  ⟨w.text.filter w.keeps, none⟩

/-- How many of the first `n` characters are not to be passed over. -/
def kept (w : Setting) (n : Nat) : Nat :=
  (w.text.take n).countP w.keeps

/-- In the text without the characters to pass over, nothing is passed over. -/
@[simp] theorem passOver_erase (w : Setting) (n : Nat) : w.erase.passOver n = n := rfl

/-! ## Places -/

theorem kept_mono (ahead : n ≤ m) : w.kept n ≤ w.kept m :=
  (List.take_sublist_take_left ahead).countP_le

@[simp] theorem kept_length (w : Setting) : w.kept w.text.length = w.erase.text.length := by
  rw [kept, List.take_length, List.countP_eq_length_filter]
  rfl

theorem kept_le (w : Setting) (n : Nat) : w.kept n ≤ w.erase.text.length := by
  rw [← kept_length, kept, kept, List.take_length]
  exact (List.take_sublist n w.text).countP_le

/-- A character that stays counts, and one that is passed over does not. -/
theorem kept_succ (h : w.next? n = some c) :
    w.kept (n + 1) = w.kept n + if w.keeps c then 1 else 0 := by
  have taken : w.text.take (n + 1) = w.text.take n ++ [c] := by
    rw [List.take_add_one]
    exact congrArg (_ ++ Option.toList ·) h
  rw [kept, taken, List.countP_append, List.countP_singleton]
  rfl

/-- A character that stays has its place in the other text. -/
theorem left_erase_of_keeps (h : w.next? n = some c) (stays : w.keeps c = true) :
    ¬w.erase.left (w.kept n) = 0 := by
  have one := kept_succ h
  have bounded := w.kept_le (n + 1)
  rw [if_pos stays] at one
  exact Nat.sub_ne_zero_of_lt (by omega)

/-- What is left behind a place and stays is what is left behind the other place. -/
theorem rest_erase (w : Setting) (n : Nat) :
    w.erase.rest (w.kept n) = (w.rest n).filter w.keeps := by
  have whole : w.erase.text = (w.text.take n).filter w.keeps ++ (w.text.drop n).filter w.keeps := by
    rw [← List.filter_append, List.take_append_drop]
    rfl
  rw [rest, whole, kept, List.countP_eq_length_filter, List.drop_left]
  rfl

theorem next?_eq_head?_rest (w : Setting) (n : Nat) : w.next? n = (w.rest n).head? :=
  List.head?_drop.symm

/-- At the end of the text there is nothing left of either. -/
theorem left_erase_of_left (h : w.left n = 0) : w.erase.left (w.kept n) = 0 := by
  have atEnd : w.rest n = [] := List.drop_eq_nil_of_le (Nat.le_of_sub_eq_zero h)
  have left : w.erase.left (w.kept n) = (w.erase.rest (w.kept n)).length := List.length_drop.symm
  rw [left, rest_erase, atEnd]
  rfl

/-! ## Behind the characters to pass over -/

/-- Where nothing is passed over, the next character is one that stays. -/
theorem keeps_next (entered : w.passOver n = n) (h : w.next? n = some c) : w.keeps c = true := by
  unfold passOver at entered
  unfold keeps
  cases hskip : w.skip with
  | none => rfl
  | some skip =>
      rw [hskip] at entered
      have none_passed : ((w.rest n).takeWhile skip.contains).length = 0 := by
        change n + w.runLength skip.contains n = n at entered
        unfold runLength at entered
        omega
      rw [rest_eq_cons h, List.takeWhile_cons] at none_passed
      cases hc : skip.contains c with
      | false => simpa using hc
      | true => simp [hc] at none_passed

/-- The characters of a run are those that it counts. -/
theorem take_runLength (w : Setting) (accept : Char → Bool) (n : Nat) :
    (w.rest n).take (w.runLength accept n) = (w.rest n).takeWhile accept :=
  (List.prefix_iff_eq_take.mp (List.takeWhile_prefix accept)).symm

/-- Only characters that do not stay are passed over. -/
theorem not_keeps_of_passed (passed : c ∈ (w.text.take (w.passOver n)).drop n) :
    w.keeps c = false := by
  rw [List.drop_take] at passed
  unfold passOver at passed
  unfold keeps
  cases hskip : w.skip with
  | none =>
      rw [hskip] at passed
      simp at passed
  | some skip =>
      rw [hskip] at passed
      change c ∈ (w.rest n).take (n + w.runLength skip.contains n - n) at passed
      rw [Nat.add_sub_cancel_left, take_runLength] at passed
      simpa using List.mem_takeWhile_imp passed

/-- Then the next character is the same in both texts. -/
theorem next?_erase (entered : w.passOver n = n) : w.erase.next? (w.kept n) = w.next? n := by
  rw [next?_eq_head?_rest, rest_erase]
  cases h : w.next? n with
  | none =>
      rw [rest_eq_nil h]
      rfl
  | some c =>
      rw [rest_eq_cons h, List.filter_cons_of_pos (keeps_next entered h)]
      rfl

/-- The characters that are passed over do not count. -/
@[simp] theorem kept_passOver (w : Setting) (n : Nat) : w.kept (w.passOver n) = w.kept n := by
  unfold passOver
  cases hskip : w.skip with
  | none => rfl
  | some skip =>
      show (w.text.take (n + w.runLength skip.contains n)).countP w.keeps = w.kept n
      rw [List.take_add, List.countP_append, ← rest, take_runLength]
      have none_stays : ((w.rest n).takeWhile skip.contains).countP w.keeps = 0 := by
        rw [List.countP_eq_zero]
        intro c hc
        have member : skip.contains c = true := List.mem_takeWhile_imp hc
        simp [keeps, hskip, member]
      rw [none_stays]
      rfl

/-- Where nothing is passed over, whoever goes ahead has read a character that stays. -/
theorem kept_lt (entered : w.passOver n = n) (ahead : n < m) (within : m ≤ w.text.length) :
    w.kept n < w.kept m := by
  have inside : n < w.text.length := Nat.lt_of_lt_of_le ahead within
  have next : w.next? n = some w.text[n] := List.getElem?_eq_getElem inside
  have one := kept_succ next
  rw [if_pos (keeps_next entered next)] at one
  have more : w.kept (n + 1) ≤ w.kept m := kept_mono ahead
  omega

end TextGrammar.Setting
