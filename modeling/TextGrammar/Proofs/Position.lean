import TextGrammar.Position

set_option autoImplicit false

/-! # Positions of a text

The position of a place is found by going over the characters before it. Going one character further
is one advance, which ends the line or does not by that character and the one behind it, and the
index of the position is the number of characters gone over. Its line is the number of line ends before
it and one more, and its column is counted from the last of them, both as words. -/

namespace TextGrammar.Position

@[simp] theorem advanceOver_zero (p : Position) (text : List Char) :
    p.advanceOver text 0 = p := by
  cases text <;> rfl

@[simp] theorem ofIndex_zero (text : List Char) : ofIndex text 0 = bof :=
  advanceOver_zero bof text

/-- One character further is one advance more. -/
theorem advanceOver_succ {text rest : List Char} {c : Char} {n : Nat} (p : Position)
    (h : text.drop n = c :: rest) :
    p.advanceOver text (n + 1) = (p.advanceOver text n).advance (breaksLine c rest.head?) := by
  induction n generalizing p text with
  | zero =>
      rw [List.drop_zero] at h
      subst h
      simp [advanceOver]
  | succ n ih =>
      cases text with
      | nil => simp at h
      | cons a tail =>
          rw [List.drop_succ_cons] at h
          exact ih _ h

theorem ofIndex_succ {text rest : List Char} {c : Char} {n : Nat}
    (h : text.drop n = c :: rest) :
    ofIndex text (n + 1) = (ofIndex text n).advance (breaksLine c rest.head?) :=
  advanceOver_succ bof h

/-- Going over some characters and then over more is going over all of them. -/
theorem advanceOver_add (p : Position) (text : List Char) (m n : Nat) :
    p.advanceOver text (m + n) = (p.advanceOver text m).advanceOver (text.drop m) n := by
  induction m generalizing p text with
  | zero => simp
  | succ m ih =>
      cases text with
      | nil => simp [advanceOver]
      | cons c rest =>
          rw [Nat.add_right_comm]
          exact ih _ rest

theorem index_advanceOver (p : Position) {text : List Char} {n : Nat} (h : n ≤ text.length) :
    (p.advanceOver text n).index = p.index + n := by
  induction n generalizing p text with
  | zero => simp
  | succ n ih =>
      cases text with
      | nil => simp at h
      | cons c rest =>
          rw [advanceOver, ih _ (Nat.le_of_succ_le_succ h), index_advance]
          omega

/-- The index of a position is the number of characters before it. -/
theorem index_ofIndex {text : List Char} {n : Nat} (h : n ≤ text.length) :
    (ofIndex text n).index = n := by
  rw [ofIndex, index_advanceOver _ h, index_bof, Nat.zero_add]

/-- Only the position of the first place lies at the beginning. -/
theorem isBof_ofIndex {text : List Char} {n : Nat} (h : n ≤ text.length) :
    (ofIndex text n).isBof = (n == 0) := by
  rw [isBof, index_ofIndex h]

/-! ## Lines and columns as numbers -/

/-- A line of the text ends with its character at an index. -/
def EndsLine (text : List Char) (i : Nat) : Prop :=
  text[i]? = some '\n' ∨ text[i]? = some '\r' ∧ text[i + 1]? ≠ some '\n'

instance (text : List Char) (i : Nat) : Decidable (EndsLine text i) :=
  inferInstanceAs (Decidable (_ ∨ _ ∧ _))

/-- Where the lines end that end within the first `n` characters. -/
def lineEnds (text : List Char) (n : Nat) : List Nat :=
  (List.range n).filter fun i => decide (EndsLine text i)

/-- The line of a place, counted from one. -/
def lineNumber (text : List Char) (n : Nat) : Nat :=
  (lineEnds text n).length + 1

/-- The column of a place, counted from one behind the last line end. -/
def columnNumber (text : List Char) (n : Nat) : Nat :=
  match (lineEnds text n).getLast? with
  | some i => n - i
  | none => n + 1

variable {text : List Char} {n : Nat}

theorem endsLine_iff {c : Char} {rest : List Char} (h : text.drop n = c :: rest) :
    EndsLine text n ↔ breaksLine c rest.head? = true := by
  have here : text[n]? = some c := by
    rw [← List.head?_drop, h, List.head?_cons]
  have next : text[n + 1]? = rest.head? := by
    rw [← List.head?_drop, ← List.tail_drop, h, List.tail_cons]
  simp [EndsLine, here, next, breaksLine]

theorem lineEnds_succ (text : List Char) (n : Nat) :
    lineEnds text (n + 1) = lineEnds text n ++ if EndsLine text n then [n] else [] := by
  by_cases ends : EndsLine text n <;> simp [lineEnds, List.range_succ, ends]

theorem lt_of_getLast?_lineEnds {i : Nat} (h : (lineEnds text n).getLast? = some i) : i < n := by
  have mem := List.mem_of_getLast? h
  simp only [lineEnds, List.mem_filter, List.mem_range] at mem
  exact mem.1

/-- A line end begins a line and the columns anew. -/
theorem number_succ_of_endsLine (h : EndsLine text n) :
    lineNumber text (n + 1) = lineNumber text n + 1 ∧ columnNumber text (n + 1) = 1 := by
  simp [lineNumber, columnNumber, lineEnds_succ, h]

/-- Any other character leads one column further. -/
theorem number_succ_of_not_endsLine (h : ¬EndsLine text n) :
    lineNumber text (n + 1) = lineNumber text n ∧
      columnNumber text (n + 1) = columnNumber text n + 1 := by
  have same : lineEnds text (n + 1) = lineEnds text n := by simp [lineEnds_succ, h]
  refine ⟨by rw [lineNumber, lineNumber, same], ?_⟩
  unfold columnNumber
  rw [same]
  split
  · rename_i last
    have := lt_of_getLast?_lineEnds last
    omega
  · rfl

/-- The line, the column and the index of a place, the first two as words. -/
theorem ofIndex_eq (h : n ≤ text.length) :
    ofIndex text n = ⟨.ofNat (lineNumber text n), .ofNat (columnNumber text n), n⟩ := by
  induction n with
  | zero => rw [ofIndex_zero]; rfl
  | succ n ih =>
      obtain ⟨c, rest, cut⟩ : ∃ c rest, text.drop n = c :: rest :=
        List.exists_cons_of_ne_nil (by simp; omega)
      rw [ofIndex_succ cut, ih (Nat.le_of_succ_le h)]
      -- one more as a word is the word of one more
      by_cases ends : EndsLine text n
      · obtain ⟨line, column⟩ := number_succ_of_endsLine ends
        rw [(endsLine_iff cut).mp ends, line, column, UInt32.ofNat_add]
        rfl
      · obtain ⟨line, column⟩ := number_succ_of_not_endsLine ends
        have stays : breaksLine c rest.head? = false := by
          simpa [endsLine_iff cut] using ends
        rw [stays, line, column, UInt32.ofNat_add]
        rfl

theorem lineNumber_le (text : List Char) (n : Nat) : lineNumber text n ≤ n + 1 := by
  have fewer := List.length_filter_le (fun i => decide (EndsLine text i)) (List.range n)
  rw [List.length_range] at fewer
  exact Nat.succ_le_succ fewer

theorem columnNumber_le (text : List Char) (n : Nat) : columnNumber text n ≤ n + 1 := by
  unfold columnNumber
  split <;> omega

/-- The position has these numbers as its line, column and index. Lines and columns are words, and are the
numbers themselves as long as a word can hold one for each character gone over. Then no addition on the
way has gone past the largest word either. -/
structure Counts (p : Position) (line column index : Nat) : Prop where
  line_eq : p.line = .ofNat line
  column_eq : p.column = .ofNat column
  index_eq : p.index = index
  exact : index + 1 < UInt32.size → p.line.toNat = line ∧ p.column.toNat = column

theorem counts_ofNat {line column index : Nat} (hl : line ≤ index + 1) (hc : column ≤ index + 1) :
    Counts ⟨.ofNat line, .ofNat column, index⟩ line column index where
  line_eq := rfl
  column_eq := rfl
  index_eq := rfl
  exact small := ⟨UInt32.toNat_ofNat_of_lt' (Nat.lt_of_le_of_lt hl small),
    UInt32.toNat_ofNat_of_lt' (Nat.lt_of_le_of_lt hc small)⟩

/-- The position of a place counts the line ends before it and the characters since. -/
theorem counts_ofIndex (h : n ≤ text.length) :
    (ofIndex text n).Counts (lineNumber text n) (columnNumber text n) n := by
  rw [ofIndex_eq h]
  exact counts_ofNat (lineNumber_le text n) (columnNumber_le text n)

end TextGrammar.Position
