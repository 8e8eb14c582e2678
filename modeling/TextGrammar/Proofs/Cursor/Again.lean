import TextGrammar.Context

set_option autoImplicit false

/-! # Looking again

A source that has told its next character tells the same character again and does not change any more.
So a cursor that has looked ahead without a fault may look ahead again at no risk, and where the
characters of a class have been passed over, passing over them once more does nothing at all. -/

namespace TextGrammar

/-! ## The next character -/

theorem ItemSource.peek_again {s s' : ItemSource} {found : Option Char}
    (h : s.peek = .ok found s') : s'.peek = .ok found s' := by
  obtain ⟨items, ahead⟩ := s
  unfold peek at h
  cases ahead with
  | char c => cases h; rfl
  | atEnd => cases h; rfl
  | unknown =>
      cases items with
      | nil => cases h; rfl
      | cons item rest => cases item <;> cases h; rfl

theorem Source.peek_again {s s' : Source} {found : Option Char} (h : s.peek = .ok found s') :
    s'.peek = .ok found s' := by
  induction s generalizing s' with
  | text s => cases h; rfl
  | items s =>
      unfold peek at h
      cases seen : s.peek with
      | error f t => rw [seen] at h; cases h
      | ok c t =>
          rw [seen] at h
          cases h
          simp only [peek, ItemSource.peek_again seen, Reading.embed_ok]
  | resource inner failure? closings ih =>
      unfold peek at h
      cases seen : peek inner with
      | error f t => rw [seen] at h; cases h
      | ok c t =>
          rw [seen] at h
          cases h
          simp only [peek, ih seen, Reading.embed_ok]

namespace Cursor

variable {accept : Char → Bool} {cur cur' : Cursor} {found : Option Char} {c : Char}

theorem peek_again (h : cur.peek = .ok found cur') : cur'.peek = .ok found cur' := by
  unfold peek at h
  split at h
  · rename_i waits
    cases h
    simp only [peek, waits]
  · rename_i empty
    unfold ask at h
    cases seen : cur.source.peek with
    | error f source => rw [seen] at h; cases h
    | ok c source =>
        rw [seen] at h
        cases h
        simp only [peek, empty, ask, Source.peek_again seen, Reading.embed_ok]

/-- A character that has been seen can be read. -/
theorem read_ne_none (seen : cur.peek = .ok (some c) cur) : cur.read ≠ .ok none cur' := by
  intro missing
  unfold read at missing
  rw [seen] at missing
  simp only at missing
  split at missing
  · cases missing
  · split at missing <;> cases missing

/-! ## The characters of a class -/

theorem readWhile_of_stop (seen : cur.peek = .ok found cur) (stop : found.any accept = false) :
    cur.readWhile accept = .ok [] cur := by
  rw [readWhile]
  split
  · rename_i seen'
    cases seen.symm.trans seen'
  · rename_i seen'
    cases seen.symm.trans seen'
    rfl
  · rename_i c next seen'
    cases seen.symm.trans seen'
    rw [Option.any_some] at stop
    rw [stop]
    exact if_neg Bool.false_ne_true

/-- Where accepted characters have been read, there are no more of them. The induction is on the number
of characters left. -/
theorem readWhile_again {cs : List Char} (h : cur.readWhile accept = .ok cs cur') :
    cur'.readWhile accept = .ok [] cur' := by
  induction hsize : cur.size using Nat.strongRecOn generalizing cur cs with
  | ind size ih =>
      rw [readWhile] at h
      split at h
      · cases h
      · rename_i next seen
        cases h
        exact readWhile_of_stop (peek_again seen) rfl
      · rename_i c next seen
        have seen_again := peek_again seen
        split at h
        · split at h
          · cases h
          · rename_i missing
            exact absurd missing (read_ne_none seen_again)
          · rename_i after taken
            have fewer : after.size < size := hsize ▸ size_of_peek seen ▸ size_of_read taken
            simp only at h
            cases rest : after.readWhile accept with
            | error f last => rw [rest] at h; cases h
            | ok cs last =>
                rw [rest] at h
                cases h
                exact ih _ fewer rest rfl
        · rename_i refused
          cases h
          exact readWhile_of_stop seen_again (Bool.eq_false_iff.mpr refused)

end Cursor

/-- Behind the characters to pass over, there are no more of them. -/
theorem Context.passOver_again {ctx ctx' : Context} (h : ctx.passOver = .ok () ctx') :
    ctx'.passOver = .ok () ctx' := by
  obtain ⟨cursor, skip, trace, depth⟩ := ctx
  cases skip with
  | none => cases h; rfl
  | some members =>
      unfold passOver reading at h
      simp only at h
      cases passed : cursor.readWhile members.contains with
      | error f after => rw [passed] at h; cases h
      | ok cs after =>
          rw [passed] at h
          cases h
          simp only [passOver, reading, Cursor.readWhile_again passed]

end TextGrammar
