import TextGrammar.Proofs.Cursor.Reading
import TextGrammar.Proofs.Position
import TextGrammar.Cursor.Mark
import TextGrammar.Reader

set_option autoImplicit false

/-! # A cursor follows a reader

A reader is a text, the number of characters read and saved numbers. A cursor follows it if all that
the cursor keeps is what the text and these numbers make of it: what waits to be read, the position
and the marks, and the characters that are kept for going back. Every operation on the cursor is the
operation of the same name on the reader, and leaves the one following the other. -/

namespace TextGrammar

namespace Reader

/-- The number saved first, or the number of characters read if none is saved. -/
def oldest (r : Reader) : Nat :=
  r.saved.getLastD r.index

/-- The characters read since the number saved first. -/
def kept (r : Reader) : List Char :=
  (r.text.take r.index).drop r.oldest

/-- The numbers do not go beyond the text, and do not grow from the innermost to the outermost. -/
structure Ordered (r : Reader) : Prop where
  within : r.index ≤ r.text.length
  descending : (r.index :: r.saved).Pairwise (· ≥ ·)

namespace Ordered

variable {r : Reader} {m : Nat}

theorem saved_le (h : r.Ordered) (hm : m ∈ r.saved) : m ≤ r.index :=
  (List.pairwise_cons.mp h.descending).1 m hm

theorem saved_le_length (h : r.Ordered) (hm : m ∈ r.saved) : m ≤ r.text.length :=
  Nat.le_trans (h.saved_le hm) h.within

/-- The positions of the index and of all saved numbers count the lines and columns of the text. -/
theorem counts (h : r.Ordered) (hm : m ∈ r.index :: r.saved) :
    (Position.ofIndex r.text m).Counts (Position.lineNumber r.text m)
      (Position.columnNumber r.text m) m := by
  rcases List.mem_cons.mp hm with rfl | hm
  · exact Position.counts_ofIndex h.within
  · exact Position.counts_ofIndex (h.saved_le_length hm)

/-- No saved number is older than the one saved first. -/
theorem oldest_le (h : r.Ordered) (hm : m ∈ r.index :: r.saved) : r.oldest ≤ m := by
  have general : ∀ (saved : List Nat) (n : Nat), (n :: saved).Pairwise (· ≥ ·) →
      ∀ k ∈ n :: saved, saved.getLastD n ≤ k := by
    intro saved
    induction saved with
    | nil =>
        intro n _ k hk
        rw [List.mem_singleton.mp hk]
        exact Nat.le_refl n
    | cons a saved ih =>
        intro n hn k hk
        obtain ⟨hle, htail⟩ := List.pairwise_cons.mp hn
        rw [List.getLastD_cons]
        rcases List.mem_cons.mp hk with rfl | hk
        · exact Nat.le_trans (ih a htail a List.mem_cons_self) (hle a List.mem_cons_self)
        · exact ih a htail k hk
  exact general r.saved r.index h.descending m hm

theorem mark (h : r.Ordered) : r.mark.Ordered := by
  refine ⟨h.within, List.pairwise_cons.mpr ⟨fun m hm => ?_, h.descending⟩⟩
  rcases List.mem_cons.mp hm with rfl | hm
  · exact Nat.le_refl _
  · exact h.saved_le hm

theorem unmark (h : r.Ordered) : r.unmark.Ordered := by
  obtain ⟨text, index, saved⟩ := r
  cases saved with
  | nil => exact h
  | cons m saved => exact ⟨h.within, h.descending.sublist (by simp [Reader.unmark])⟩

theorem forward (h : r.Ordered) {n : Nat} (hn : r.index + n ≤ r.text.length) :
    (r.forward n).Ordered := by
  obtain ⟨hle, hsaved⟩ := List.pairwise_cons.mp h.descending
  exact ⟨hn, List.pairwise_cons.mpr
    ⟨fun m hm => Nat.le_trans (hle m hm) (Nat.le_add_right _ _), hsaved⟩⟩

/-- Going back to the number saved last keeps the order. -/
theorem back (h : r.Ordered) : (r.reset false).Ordered := by
  obtain ⟨text, index, saved⟩ := r
  cases saved with
  | nil => exact h
  | cons m saved =>
      obtain ⟨hle, hsaved⟩ := List.pairwise_cons.mp h.descending
      refine ⟨h.saved_le_length List.mem_cons_self, List.pairwise_cons.mpr ⟨?_, hsaved⟩⟩
      intro k hk
      rcases List.mem_cons.mp hk with rfl | hk
      · exact Nat.le_refl _
      · exact (List.pairwise_cons.mp hsaved).1 k hk

end Ordered

/-- While a number is saved, the one saved first does not depend on how far has been read. -/
theorem oldest_eq {r : Reader} {m : Nat} {saved : List Nat} (h : r.saved = m :: saved) :
    r.oldest = saved.getLastD m := by
  rw [oldest, h, List.getLastD_cons]

/-- Nothing is kept while no number is saved. -/
theorem kept_of_saved_eq_nil {r : Reader} (h : r.saved = []) : r.kept = [] := by
  simp [kept, oldest, h]

/-- What is kept begins with the number saved first, if there is one. -/
theorem kept_eq (r : Reader) :
    r.kept = match r.saved.getLast? with
      | some oldest => (r.text.take r.index).drop oldest
      | none => [] := by
  obtain ⟨text, index, saved⟩ := r
  cases saved with
  | nil => exact kept_of_saved_eq_nil rfl
  | cons m saved => simp only [kept, oldest, List.getLastD_eq_getLast?, List.getLast?_cons,
      Option.getD_some]

/-- Saving a number changes nothing in what is kept. -/
@[simp] theorem kept_mark (r : Reader) : r.mark.kept = r.kept := by
  have same : r.mark.oldest = r.oldest := oldest_eq rfl
  rw [kept, same]
  rfl

/-- As long as a number stays saved, forgetting one changes nothing in what is kept. -/
theorem kept_unmark {r : Reader} {m n : Nat} {saved : List Nat} (h : r.saved = m :: n :: saved) :
    r.unmark.kept = r.kept := by
  have tail : r.unmark.saved = n :: saved := by rw [unmark, h, List.tail_cons]
  have same : r.unmark.oldest = r.oldest := by
    rw [oldest_eq h, oldest_eq tail, List.getLastD_cons]
  rw [kept, same]
  rfl

/-- The length of what is kept. -/
theorem length_kept {r : Reader} (h : r.Ordered) : r.kept.length = r.index - r.oldest := by
  rw [kept, List.length_drop, List.length_take, Nat.min_eq_left h.within]

/-- The character read is kept too, if any is. -/
theorem kept_forward_one {r : Reader} {c : Char} {rest : List Char} (h : r.Ordered)
    (hsaved : r.saved ≠ []) (hrest : r.rest = c :: rest) :
    (r.forward 1).kept = r.kept ++ [c] := by
  obtain ⟨text, index, saved⟩ := r
  cases saved with
  | nil => exact absurd rfl hsaved
  | cons m saved =>
      have hc : text[index]? = some c := by
        rw [← List.head?_drop]
        exact congrArg List.head? hrest
      have ho : saved.getLastD m ≤ index := by
        rw [← oldest_eq (r := ⟨text, index, m :: saved⟩) rfl]
        exact h.oldest_le List.mem_cons_self
      simp only [kept, oldest, forward, List.getLastD_cons, List.take_add_one, hc]
      rw [Option.toList_some, List.drop_append_of_le_length]
      rw [List.length_take, Nat.min_eq_left h.within]
      exact ho

end Reader

namespace Cursor

/-- What the cursor holds is what the reader tells, and its source has yet to report `faults`. -/
structure Follows (cur : Cursor) (r : Reader) (faults : List Fault) : Prop where
  ordered : r.Ordered
  rest : cur.rest = r.rest
  position : cur.position = r.position
  marks : cur.marks = r.saved.map (Position.ofIndex r.text)
  backup : cur.backup = r.kept.reverse
  faults : cur.faults = faults

namespace Follows

variable {cur cur' : Cursor} {r : Reader} {faults : List Fault} {m : Nat} {saved : List Nat}

/-- A cursor follows a reader from the beginning. -/
theorem ofSource (source : Source) :
    (Cursor.ofSource source).Follows (.ofText source.chars) source.faults where
  ordered := ⟨Nat.zero_le _, List.pairwise_singleton _ _⟩
  rest := rfl
  position := (Position.ofIndex_zero _).symm
  marks := rfl
  backup := rfl
  faults := rfl

/-- Over a source without faults, it follows a reader of the text that the source delivers. -/
theorem ofFaultless {source : Source} {text : List Char} (delivers : source.chars = text)
    (faultless : source.faults = []) : (Cursor.ofSource source).Follows ⟨text, 0, []⟩ [] := by
  have follows := ofSource source
  rw [delivers, faultless] at follows
  exact follows

/-- Some cursor follows a reader at any number within the text. -/
theorem exists_cursor {text : List Char} {n : Nat} (within : n ≤ text.length) :
    ∃ cur : Cursor, cur.Follows ⟨text, n, []⟩ [] := by
  refine ⟨⟨.ofItems [], text.drop n, .ofIndex text n, [], [], false⟩, ?_⟩
  exact {
    ordered := ⟨within, List.pairwise_singleton _ _⟩
    rest := List.append_nil _
    position := rfl
    marks := rfl
    backup := by rw [Reader.kept_of_saved_eq_nil rfl, List.reverse_nil]
    faults := rfl }

/-- It makes no difference where the characters wait that have not been read. -/
theorem samePlace (h : cur.Follows r faults) (same : SamePlace cur cur') :
    cur'.Follows r cur'.faults where
  ordered := h.ordered
  rest := same.rest.trans h.rest
  position := same.position.trans h.position
  marks := same.marks.trans h.marks
  backup := same.backup.trans h.backup
  faults := rfl

theorem index_position (h : cur.Follows r faults) : cur.position.index = r.index := by
  rw [h.position]
  exact Position.index_ofIndex h.ordered.within

theorem head?_rest (h : cur.Follows r faults) : cur.rest.head? = r.peek := by
  rw [h.rest, Reader.rest, List.head?_drop]
  rfl

/-! ## Marks -/

theorem mark (h : cur.Follows r faults) : cur.mark.Follows r.mark faults where
  ordered := h.ordered.mark
  rest := h.rest
  position := h.position
  marks := by
    show cur.position :: cur.marks = _
    rw [h.position, h.marks]
    rfl
  backup := by
    rw [Reader.kept_mark]
    exact h.backup
  faults := h.faults

theorem unmark (h : cur.Follows r faults) : cur.unmark.Follows r.unmark faults := by
  obtain ⟨text, index, saved⟩ := r
  have marks := h.marks
  cases saved with
  | nil =>
      rw [List.map_nil] at marks
      have unchanged : cur.unmark = cur := by simp only [Cursor.unmark, marks]
      rw [unchanged]
      exact h
  | cons m saved =>
      cases saved with
      | nil =>
          rw [List.map_cons, List.map_nil] at marks
          have forgotten : cur.unmark = { cur with marks := [], backup := [] } := by
            simp only [Cursor.unmark, marks]
          rw [forgotten]
          exact ⟨h.ordered.unmark, h.rest, h.position, rfl,
            by rw [Reader.kept_of_saved_eq_nil rfl]; rfl, h.faults⟩
      | cons n saved =>
          rw [List.map_cons, List.map_cons] at marks
          have popped : cur.unmark = { cur with marks := cur.marks.tail } := by
            simp only [Cursor.unmark, marks, List.tail_cons]
          rw [popped]
          refine ⟨h.ordered.unmark, h.rest, h.position, ?_, ?_, h.faults⟩
          · show cur.marks.tail = _
            rw [marks]
            rfl
          · rw [Reader.kept_unmark rfl]
            exact h.backup

/-- The number of characters read since a mark is the difference of the numbers. -/
theorem readSince (h : cur.Follows r faults) (hm : m ∈ r.saved) :
    cur.readSince (.ofIndex r.text m) = r.index - m := by
  rw [Cursor.readSince, h.index_position, Position.index_ofIndex (h.ordered.saved_le_length hm)]

/-- Never more characters were read since a mark than are kept. -/
theorem readSince_le (h : cur.Follows r faults) (hm : m ∈ r.saved) :
    cur.readSince (.ofIndex r.text m) ≤ cur.backup.length := by
  have := h.ordered.oldest_le (List.mem_cons_of_mem _ hm)
  rw [h.readSince hm, h.backup, List.length_reverse, Reader.length_kept h.ordered]
  omega

/-- The latest of the characters that are kept are those read since a mark. -/
theorem reverse_take_backup (h : cur.Follows r faults) (hm : m ∈ r.saved) :
    (cur.backup.take (r.index - m)).reverse = (r.text.take r.index).drop m := by
  have hle := h.ordered.oldest_le (List.mem_cons_of_mem _ hm)
  have hsaved := h.ordered.saved_le hm
  rw [h.backup, List.take_reverse, List.reverse_reverse, Reader.length_kept h.ordered,
    Reader.kept, List.drop_drop]
  congr 1
  omega

/-- The other ones are those that were kept at the mark. -/
theorem drop_backup (h : cur.Follows r faults) (hm : m ∈ r.saved) :
    cur.backup.drop (r.index - m) = ((r.text.take m).drop r.oldest).reverse := by
  have hle := h.ordered.oldest_le (List.mem_cons_of_mem _ hm)
  have hsaved := h.ordered.saved_le hm
  rw [h.backup, List.drop_reverse, Reader.length_kept h.ordered, Reader.kept, List.take_drop,
    List.take_take]
  congr 3
  omega

/-- Handing back what was read since the innermost mark is going back to its number. -/
theorem handBack (h : cur.Follows r faults) (hsaved : r.saved = m :: saved) :
    (cur.handBack (.ofIndex r.text m)).Follows (r.reset false) faults := by
  have hm : m ∈ r.saved := hsaved ▸ List.mem_cons_self
  have back : r.reset false = { r with index := m } := by simp [Reader.reset, hsaved]
  have read := h.readSince hm
  have old : ({ r with index := m } : Reader).oldest = r.oldest := by
    rw [Reader.oldest_eq hsaved]
    exact Reader.oldest_eq hsaved
  have ordered := h.ordered.back
  rw [back] at ordered ⊢
  refine ⟨ordered, ?_, rfl, h.marks, ?_, h.faults⟩
  · -- what was read since the mark now stands before what has not been read
    show (cur.backup.take (cur.readSince _)).reverse ++ cur.pending ++ cur.source.chars
      = r.text.drop m
    have waiting : cur.pending ++ cur.source.chars = r.text.drop r.index := h.rest
    rw [read, h.reverse_take_backup hm, List.append_assoc, waiting, ← List.drop_append_of_le_length,
      List.take_append_drop]
    rw [List.length_take, Nat.min_eq_left h.ordered.within]
    exact h.ordered.saved_le hm
  · -- what stays is what an outer mark has to go back over
    show cur.backup.drop (cur.readSince _) = _
    rw [read, h.drop_backup hm, Reader.kept, old]

theorem reset (h : cur.Follows r faults) (alsoUnmark : Bool) :
    (cur.reset alsoUnmark).Follows (r.reset alsoUnmark) faults := by
  have marks := h.marks
  cases hsaved : r.saved with
  | nil =>
      rw [hsaved, List.map_nil] at marks
      have unchanged : cur.reset alsoUnmark = cur := by simp only [Cursor.reset, marks]
      have same : r.reset alsoUnmark = r := by
        cases alsoUnmark <;> simp [Reader.reset, Reader.unmark, hsaved] <;> simp [← hsaved]
      rw [unchanged, same]
      exact h
  | cons m saved =>
      rw [hsaved, List.map_cons] at marks
      have back := h.handBack hsaved
      cases alsoUnmark with
      | false =>
          have moved : cur.reset false = cur.handBack (.ofIndex r.text m) := by
            simp only [Cursor.reset, marks, Bool.false_eq_true, if_false]
          rw [moved]
          exact back
      | true =>
          have moved : cur.reset true = (cur.handBack (.ofIndex r.text m)).unmark := by
            simp only [Cursor.reset, marks, if_true]
          rw [moved]
          exact back.unmark

theorem captured (h : cur.Follows r faults) :
    cur.captured = r.captured.map String.ofList := by
  have marks := h.marks
  cases hsaved : r.saved with
  | nil =>
      rw [hsaved, List.map_nil] at marks
      simp [Cursor.captured, Reader.captured, marks, hsaved]
  | cons m saved =>
      have hm : m ∈ r.saved := hsaved ▸ List.mem_cons_self
      rw [hsaved, List.map_cons] at marks
      simp only [Cursor.captured, Reader.captured, marks, hsaved, List.head?_cons, Option.map_some]
      rw [h.readSince hm, h.reverse_take_backup hm]

/-! ## Reading -/

/-- The cursor one character further follows the reader one character further. -/
theorem advanced {c : Char} (h : cur.Follows r faults) (step : Advanced cur c cur') :
    cur'.Follows (r.forward 1) cur'.faults := by
  have first : r.text.drop r.index = c :: cur'.rest := h.rest.symm.trans step.rest
  have inside : r.index < r.text.length := by
    have := congrArg List.length first
    rw [List.length_drop, List.length_cons] at this
    omega
  have left : r.text.drop (r.index + 1) = cur'.rest := by
    rw [← List.tail_drop, first, List.tail_cons]
  refine ⟨h.ordered.forward inside, left.symm, ?_, step.marks.trans h.marks, ?_, rfl⟩
  · rw [step.position, h.position]
    exact (Position.ofIndex_succ first).symm
  · rw [step.backup]
    cases hsaved : r.saved with
    | nil =>
        have none : cur.marks.isEmpty = true := by simp [h.marks, hsaved]
        have nothing : (r.forward 1).kept = [] := Reader.kept_of_saved_eq_nil hsaved
        rw [if_pos none, h.backup, Reader.kept_of_saved_eq_nil hsaved, nothing]
    | cons m saved =>
        have some : cur.marks.isEmpty = false := by simp [h.marks, hsaved]
        have more : (r.forward 1).kept = r.kept ++ [c] :=
          Reader.kept_forward_one h.ordered (by simp [hsaved]) first
        rw [some, more, List.reverse_append, h.backup]
        rfl

end Follows

end Cursor

end TextGrammar
