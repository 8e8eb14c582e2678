import TextGrammar.Proofs.Cursor.Tracking

set_option autoImplicit false

/-! # Lines

The first line of a text goes up to its first terminator, and a carriage return and the line feed
behind it are one terminator. Reading a line through a cursor gives just that line and goes over its
terminator. -/

namespace TextGrammar

namespace Reader

/-- A character inside a line. -/
theorem firstLine_cons {c : Char} (h : isTerminator c = false) (rest : List Char) :
    firstLine (c :: rest) = c :: firstLine rest := by
  simp [firstLine, h]

/-- A line that ends before it has begun is empty. -/
theorem firstLine_terminator {c : Char} (h : isTerminator c = true) (rest : List Char) :
    firstLine (c :: rest) = [] := by
  simp [firstLine, h]

theorem firstLineLength_cons {c : Char} (h : isTerminator c = false) (rest : List Char) :
    firstLineLength (c :: rest) = firstLineLength rest + 1 := by
  unfold firstLineLength
  rw [firstLine_cons h, List.length_cons, List.drop_succ_cons]
  omega

theorem firstLineLength_terminator {c : Char} (h : isTerminator c = true) (rest : List Char) :
    firstLineLength (c :: rest) = terminatorLength (c :: rest) := by
  unfold firstLineLength
  rw [firstLine_terminator h, List.length_nil, List.drop_zero, Nat.zero_add]

/-- A carriage return ends a line together with the line feed behind it. -/
theorem terminatorLength_carriageReturn (rest : List Char) :
    terminatorLength ('\r' :: rest) = if rest.head? = some '\n' then 2 else 1 := by
  cases rest with
  | nil => rfl
  | cons c rest =>
      by_cases hc : c = '\n'
      · subst hc
        rfl
      · rw [List.head?_cons, if_neg (by simpa using hc)]
        simp [terminatorLength, isTerminator, hc]

end Reader

namespace Tracking

variable {text : List Char} {t : Tracking text} {cur : Cursor} {n : Nat} {saved : List Nat}

/-- A line feed is read if there is one. -/
theorem yields_readLineFeed (h : t.At cur n saved) :
    t.Yields n saved () (if text[n]? = some '\n' then n + 1 else n) (Cursor.readLineFeed cur) := by
  have looked := yields_peek h
  unfold Cursor.readLineFeed
  generalize Cursor.peek cur = result at looked ⊢
  generalize hfound : text[n]? = found at looked ⊢
  cases looked with
  | fault ahead h => exact .fault ahead h
  | ok here =>
      by_cases hfeed : found = some '\n'
      · subst hfeed
        have taken := yields_read here hfound
        simp only [if_true]
        generalize Cursor.read _ = result at taken ⊢
        cases taken with
        | fault ahead h => exact .fault ahead h
        | ok further => exact .ok further
      · rw [if_neg hfeed]
        split
        · rename_i same
          cases same
        · rename_i same
          cases same
          exact absurd rfl hfeed
        · rename_i same
          cases same
          exact .ok here

/-- The rest of the line is read, and what ends it. -/
theorem yields_restOfLine (h : t.At cur n saved) :
    t.Yields n saved (Reader.firstLine (text.drop n))
      (n + Reader.firstLineLength (text.drop n)) (Cursor.restOfLine cur) := by
  induction hsize : text.length - n using Nat.strongRecOn generalizing cur n with
  | ind size ih =>
      rw [Cursor.restOfLine]
      cases hfound : text[n]? with
      | none =>
          have taken := yields_read_end h hfound
          rw [drop_eq_nil hfound]
          split <;> rename_i hread <;> rw [hread] at taken <;> cases taken
          · exact .fault ‹_› ‹_›
          · exact .ok ‹_›
      | some c =>
          have taken := yields_read h hfound
          rw [drop_eq_cons hfound]
          split <;> rename_i hread <;> rw [hread] at taken
          · cases taken with
            | fault ahead h => exact .fault ahead h
          · cases taken
          · cases taken with
            | ok further =>
                by_cases hfeed : c = '\n'
                · subst hfeed
                  rw [if_pos rfl]
                  exact .ok further
                · rw [if_neg hfeed]
                  by_cases hreturn : c = '\r'
                  · subst hreturn
                    have fed := (yields_readLineFeed further).since (Nat.le_succ n)
                    have length : n + Reader.firstLineLength ('\r' :: text.drop (n + 1))
                        = if text[n + 1]? = some '\n' then n + 1 + 1 else n + 1 := by
                      rw [Reader.firstLineLength_terminator rfl,
                        Reader.terminatorLength_carriageReturn, List.head?_drop]
                      split <;> rfl
                    rw [if_pos rfl, Reader.firstLine_terminator rfl, length]
                    generalize Cursor.readLineFeed _ = result at fed ⊢
                    cases fed with
                    | fault ahead h => exact .fault ahead h
                    | ok last => exact .ok last
                  · have inner : Reader.isTerminator c = false := by
                      simp [Reader.isTerminator, hfeed, hreturn]
                    have inside := (List.getElem?_eq_some_iff.mp hfound).1
                    have rest := (ih _ (by omega) further rfl).since (Nat.le_succ n)
                    have one_more (k : Nat) : n + (k + 1) = n + 1 + k := by omega
                    rw [if_neg hreturn, Reader.firstLine_cons inner,
                      Reader.firstLineLength_cons inner, one_more (Reader.firstLineLength _)]
                    generalize Cursor.restOfLine _ = result at rest ⊢
                    cases rest with
                    | fault ahead h => exact .fault ahead h
                    | ok last => exact .ok last

/-- A line is read, unless the text is at its end. -/
theorem yields_readLine (h : t.At cur n saved) :
    t.Yields n saved
      (if text[n]?.isNone then none else some (Reader.firstLine (text.drop n)))
      (n + Reader.firstLineLength (text.drop n)) (Cursor.readLine cur) := by
  have atEnd := yields_isEof h
  unfold Cursor.readLine
  generalize Cursor.isEof cur = result at atEnd ⊢
  generalize hfound : text[n]? = found at atEnd ⊢
  cases atEnd with
  | fault ahead h => exact .fault ahead h
  | ok here =>
      cases found with
      | none =>
          rw [drop_eq_nil hfound]
          exact .ok here
      | some c =>
          have line := yields_restOfLine here
          simp only [Option.isNone_some, Bool.false_eq_true, if_false]
          generalize Cursor.restOfLine _ = result at line ⊢
          cases line with
          | fault ahead h => exact .fault ahead h
          | ok last => exact .ok last

end Tracking

end TextGrammar
