import TextGrammar.Proofs.Source.Faults
import TextGrammar.Cursor.Basic

set_option autoImplicit false

/-! # One step of a cursor

Looking ahead, one character or two, moves nothing. Reading takes the first character that is left,
and moves the position by what the first two of them say about the line. If the source reports a
fault instead, the cursor is where it was, also when the fault comes between a carriage return and
the character behind it. -/

namespace TextGrammar.Cursor

/-- The faults that the source of the cursor has yet to report. -/
def faults (cur : Cursor) : List Fault :=
  cur.source.faults

/-! ## Faults are reported one by one -/

theorem reports_ask {α : Type} {query : Reading Source α} {cur : Cursor}
    (h : Reading.Reports Source.faults cur.source.faults (query cur.source)) :
    Reading.Reports faults cur.faults (ask query cur) :=
  h.embed fun _ => rfl

theorem reports_peek (cur : Cursor) : Reading.Reports faults cur.faults (peek cur) := by
  unfold peek
  split
  · rfl
  · exact reports_ask cur.source.reports_peek

theorem reports_fetch (cur : Cursor) : Reading.Reports faults cur.faults (fetch cur) := by
  have asked := cur.source.reports_read
  unfold fetch
  split <;> rename_i h <;> rw [h] at asked <;> exact asked

theorem reports_peekSecond (cur : Cursor) :
    Reading.Reports faults cur.faults (peekSecond cur) := by
  unfold peekSecond
  split
  · rfl
  · exact reports_ask cur.source.reports_peek
  · have fetched := cur.reports_fetch
    split <;> rename_i h <;> rw [h] at fetched
    · rename_i cur'
      have same : cur'.faults = cur.faults := fetched
      rw [← same]
      exact reports_ask cur'.source.reports_peek
    · exact fetched

theorem reports_endsLine (c : Char) (cur : Cursor) :
    Reading.Reports faults cur.faults (endsLine c cur) := by
  unfold endsLine
  split
  · rfl
  · split
    · have seen := cur.reports_peekSecond
      split <;> rename_i h <;> rw [h] at seen <;> exact seen
    · rfl

theorem reports_drop (cur : Cursor) : Reading.Reports faults cur.faults (drop cur) := by
  have asked := cur.source.reports_read
  unfold drop
  split
  · rfl
  · split <;> rename_i h <;> rw [h] at asked <;> exact asked

/-- Reading reports no more than one fault, and reports none if it delivers a character. -/
theorem reports_read (cur : Cursor) : Reading.Reports faults cur.faults (read cur) := by
  have peeked := cur.reports_peek
  unfold read
  cases hpeek : peek cur with
  | error f cur₁ => rw [hpeek] at peeked; exact peeked
  | ok found cur₁ =>
      rw [hpeek] at peeked
      have same₁ : cur₁.faults = cur.faults := peeked
      cases found with
      | none => exact peeked
      | some c =>
          have ended := cur₁.reports_endsLine c
          rw [same₁] at ended
          cases hend : endsLine c cur₁ with
          | error f cur₂ =>
              rw [hend] at ended
              simp only [hend]
              exact ended
          | ok breaksLine cur₂ =>
              rw [hend] at ended
              have same₂ : cur₂.faults = cur.faults := ended
              have dropped := cur₂.reports_drop
              rw [same₂] at dropped
              cases hdrop : drop cur₂ with
              | error f cur₃ =>
                  rw [hdrop] at dropped
                  simp only [hend, hdrop]
                  exact dropped
              | ok _ cur₃ =>
                  rw [hdrop] at dropped
                  simp only [hend, hdrop]
                  exact dropped

/-! ## What is found -/

/-- The second look finds the character behind the first. -/
theorem eq_of_peekSecond {cur cur' : Cursor} {found : Option Char}
    (h : peekSecond cur = .ok found cur') : found = cur.rest.tail.head? := by
  have found_of_ask {cur₁ : Cursor} (h : ask Source.peek cur₁ = .ok found cur') :
      found = cur₁.source.chars.head? := by
    unfold ask at h
    cases asked : Source.peek cur₁.source with
    | error f source => rw [asked] at h; cases h
    | ok c source =>
        rw [asked] at h
        cases h
        exact Source.eq_head?_of_peek asked
  unfold peekSecond at h
  split at h
  · rename_i same
    cases h
    simp [rest, same]
  · rename_i same
    rw [found_of_ask h]
    simp [rest, same]
  · rename_i empty
    cases fetched : fetch cur with
    | error f cur₁ => rw [fetched] at h; cases h
    | ok _ cur₁ =>
        simp only [fetched] at h
        unfold fetch at fetched
        cases asked : Source.read cur.source with
        | error f source => rw [asked] at fetched; cases fetched
        | ok c source =>
            rw [asked] at fetched
            cases fetched
            rw [found_of_ask h]
            simp [rest, empty, Source.chars_of_read asked]

/-- Whether a character ends a line is told by the character behind it. -/
theorem eq_of_endsLine {cur cur' : Cursor} {c : Char} {breaksLine : Bool}
    (h : endsLine c cur = .ok breaksLine cur') :
    breaksLine = Position.breaksLine c cur.rest.tail.head? := by
  unfold endsLine at h
  unfold Position.breaksLine
  split at h
  · cases h
    simp_all
  · split at h
    · cases seen : peekSecond cur with
      | error f cur₁ => simp only [seen] at h; cases h
      | ok second cur₁ =>
          simp only [seen] at h
          cases h
          rw [eq_of_peekSecond seen]
          simp_all
    · cases h
      simp_all

/-! ## What is left behind -/

/-- The cursor without its next character is otherwise the same. -/
theorem same_of_drop {cur cur' : Cursor} (h : drop cur = .ok () cur') :
    cur'.position = cur.position ∧ cur'.marks = cur.marks ∧ cur'.backup = cur.backup := by
  unfold drop at h
  split at h
  · cases h
    exact ⟨rfl, rfl, rfl⟩
  · split at h <;> cases h
    exact ⟨rfl, rfl, rfl⟩

theorem samePlace_of_drop_error {cur cur' : Cursor} {f : Fault} (h : drop cur = .error f cur') :
    SamePlace cur cur' := by
  unfold drop at h
  split at h
  · cases h
  · rename_i empty
    split at h <;> cases h
    rename_i asked
    refine ⟨?_, rfl, rfl, rfl, rfl⟩
    simp [rest, Source.chars_of_read_error asked]

/-- The cursor `cur'` is `cur` one character further. -/
structure Advanced (cur : Cursor) (c : Char) (cur' : Cursor) : Prop where
  rest : cur.rest = c :: cur'.rest
  position : cur'.position = cur.position.advance (Position.breaksLine c cur'.rest.head?)
  marks : cur'.marks = cur.marks
  /-- A character is kept while a mark is open. -/
  backup : cur'.backup = if cur.marks.isEmpty then cur.backup else c :: cur.backup

/-- What comes of reading one character. -/
inductive ReadsOne (cur : Cursor) : EStateM.Result Fault Cursor (Option Char) → Prop where
  | char {c : Char} {cur' : Cursor} (h : Advanced cur c cur') : ReadsOne cur (.ok (some c) cur')
  | atEnd {cur' : Cursor} (empty : cur.rest = []) (h : SamePlace cur cur') :
      ReadsOne cur (.ok none cur')
  | fault {f : Fault} {cur' : Cursor} (h : SamePlace cur cur') : ReadsOne cur (.error f cur')

theorem readsOne (cur : Cursor) : ReadsOne cur (read cur) := by
  have looked := samePlace_peek cur
  unfold read
  cases peeked : peek cur with
  | error f cur₁ =>
      rw [peeked] at looked
      exact .fault looked
  | ok found cur₁ =>
      rw [peeked] at looked
      replace looked : SamePlace cur cur₁ := looked
      have first := eq_head?_of_peek peeked
      cases found with
      | none => exact .atEnd (List.head?_eq_none_iff.mp first.symm) looked
      | some c =>
          have known := looked.trans (samePlace_endsLine c cur₁)
          cases ended : endsLine c cur₁ with
          | error f cur₂ =>
              rw [ended] at known
              simpa only [ended] using .fault known
          | ok breaksLine cur₂ =>
              rw [ended] at known
              replace known : SamePlace cur cur₂ := known
              have ends := eq_of_endsLine ended
              cases dropped : drop cur₂ with
              | error f cur₃ =>
                  simpa only [ended, dropped] using
                    .fault (known.trans (samePlace_of_drop_error dropped))
              | ok _ cur₃ =>
                  have whole : read cur = .ok (some c) (cur₃.advance c breaksLine) := by
                    simp only [read, peeked, ended, dropped]
                  obtain ⟨position, marks, backup⟩ := same_of_drop dropped
                  simp only [ended, dropped]
                  refine .char ⟨rest_of_read whole, ?_, marks.trans known.marks, ?_⟩
                  · have left : cur₁.rest.tail = cur₃.rest := by
                      rw [looked.rest, rest_of_read whole]
                      rfl
                    have moved :
                        (cur₃.advance c breaksLine).position = cur₃.position.advance breaksLine := rfl
                    rw [moved, position, known.position, ends, left, rest_advance]
                  · simp [advance, marks, known.marks, backup, known.backup]

end TextGrammar.Cursor
