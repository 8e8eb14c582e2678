import TextGrammar.Proofs.Cursor.Lines

set_option autoImplicit false

/-! # Any operations in any order

A session with a cursor is a list of operations, each with its answer; a fault is an answer too, and
the session goes on after it. Over a source without faults, every session with a cursor gives the
answers that the same session with a reader gives, and leaves the cursor in the state that the text
and the numbers of the reader determine. -/

namespace TextGrammar

/-- What can be done with a cursor. -/
inductive Operation where
  | peek
  | isEof
  | read
  | readLine
  | readToEnd
  | mark
  | unmark
  | reset (alsoUnmark : Bool)
  | capture (alsoUnmark : Bool)
deriving DecidableEq, Repr

/-- What comes of an operation. -/
inductive Answer where
  | char (found : Option Char)
  | flag (holds : Bool)
  | text (found : Option (List Char))
  | done
deriving DecidableEq, Repr

/-! ## Sessions -/

namespace Reader

/-- At the end nothing is read. -/
theorem eq_of_peek_eq_none {r : Reader} (h : r.text[r.index]? = none) :
    r.read = (none, r) ∧ r.readLine = (none, r) ∧ r.readToEnd = (none, r) := by
  simp [read, readLine, readToEnd, isEof, peek, h]

/-- Before the end, a character, a line or all that is left is read. -/
theorem eq_of_peek_eq_some {r : Reader} {c : Char} (h : r.text[r.index]? = some c) :
    r.read = (some c, r.forward 1) ∧
      r.readLine = (some (firstLine r.rest), r.forward (firstLineLength r.rest)) ∧
      r.readToEnd = (some r.rest, r.forward r.rest.length) := by
  simp [read, readLine, readToEnd, isEof, peek, h]

/-- One operation on a reader. -/
def perform : Operation → Reader → Answer × Reader
  | .peek, r => (.char r.peek, r)
  | .isEof, r => (.flag r.isEof, r)
  | .read, r => (.char r.read.1, r.read.2)
  | .readLine, r => (.text r.readLine.1, r.readLine.2)
  | .readToEnd, r => (.text r.readToEnd.1, r.readToEnd.2)
  | .mark, r => (.done, r.mark)
  | .unmark, r => (.done, r.unmark)
  | .reset alsoUnmark, r => (.done, r.reset alsoUnmark)
  | .capture alsoUnmark, r => (.text (r.capture alsoUnmark).1, (r.capture alsoUnmark).2)

/-- Some operations on a reader, one after another. -/
def performAll : List Operation → Reader → List Answer × Reader
  | [], r => ([], r)
  | op :: ops, r =>
    let (answer, r) := r.perform op
    let (answers, r) := r.performAll ops
    (answer :: answers, r)

/-- No operation changes the text. -/
theorem text_perform (op : Operation) (r : Reader) : (r.perform op).2.text = r.text := by
  cases op with
  | peek => rfl
  | isEof => rfl
  | read => simp only [perform, read]; split <;> rfl
  | readLine => simp only [perform, readLine]; split <;> rfl
  | readToEnd => simp only [perform, readToEnd]; split <;> rfl
  | mark => rfl
  | unmark => rfl
  | reset alsoUnmark => cases alsoUnmark <;> rfl
  | capture alsoUnmark => cases alsoUnmark <;> rfl

theorem text_performAll (ops : List Operation) (r : Reader) :
    (r.performAll ops).2.text = r.text := by
  induction ops generalizing r with
  | nil => rfl
  | cons op ops ih => exact (ih _).trans (text_perform op r)

end Reader

namespace Cursor

/-- The answer of a reading, and the cursor that it leaves. -/
def answer {α : Type} (form : α → Answer) :
    EStateM.Result Fault Cursor α → Except Fault Answer × Cursor
  | .ok a cur => (.ok (form a), cur)
  | .error f cur => (.error f, cur)

/-- One operation on a cursor. -/
def perform : Operation → Cursor → Except Fault Answer × Cursor
  | .peek, cur => answer .char cur.peek
  | .isEof, cur => answer .flag cur.isEof
  | .read, cur => answer .char cur.read
  | .readLine, cur => answer .text cur.readLine
  | .readToEnd, cur => answer .text cur.readToEnd
  | .mark, cur => (.ok .done, cur.mark)
  | .unmark, cur => (.ok .done, cur.unmark)
  | .reset alsoUnmark, cur => (.ok .done, cur.reset alsoUnmark)
  | .capture alsoUnmark, cur =>
    (.ok (.text ((cur.capture alsoUnmark).1.map String.toList)), (cur.capture alsoUnmark).2)

/-- Some operations on a cursor, one after another. -/
def performAll : List Operation → Cursor → List (Except Fault Answer) × Cursor
  | [], cur => ([], cur)
  | op :: ops, cur =>
    let (answer, cur) := cur.perform op
    let (answers, cur) := cur.performAll ops
    (answer :: answers, cur)

/-! ## One operation -/

variable {cur : Cursor} {r : Reader}

theorem answer_of_yields {α : Type} {a : α} {m : Nat} {form : α → Answer}
    {result : EStateM.Result Fault Cursor α}
    (h : (Tracking.following r.text []).Yields r.index r.saved a m result) :
    ∃ cur', answer form result = (.ok (form a), cur') ∧
      cur'.Follows { r with index := m } [] := by
  obtain ⟨cur', rfl, follows⟩ := Tracking.eq_ok_of_yields h
  exact ⟨cur', rfl, follows⟩

/-- One operation gives the answer of the reader and keeps the cursor following it. -/
theorem perform_follows (h : cur.Follows r []) (op : Operation) :
    ∃ cur', cur.perform op = (.ok (r.perform op).1, cur') ∧
      cur'.Follows (r.perform op).2 [] := by
  have here : (Tracking.following r.text []).At cur r.index r.saved :=
    Tracking.at_following_nil.mpr h
  cases op with
  | peek => exact answer_of_yields (Tracking.yields_peek here)
  | isEof => exact answer_of_yields (Tracking.yields_isEof here)
  | read =>
      cases hfound : r.text[r.index]? with
      | none =>
          rw [Reader.perform, (Reader.eq_of_peek_eq_none hfound).1]
          exact answer_of_yields (Tracking.yields_read_end here hfound)
      | some c =>
          rw [Reader.perform, (Reader.eq_of_peek_eq_some hfound).1]
          exact answer_of_yields (Tracking.yields_read here hfound)
  | readLine =>
      have line := Tracking.yields_readLine here
      cases hfound : r.text[r.index]? with
      | none =>
          rw [hfound, drop_eq_nil hfound] at line
          rw [Reader.perform, (Reader.eq_of_peek_eq_none hfound).2.1]
          exact answer_of_yields line
      | some c =>
          rw [hfound] at line
          rw [Reader.perform, (Reader.eq_of_peek_eq_some hfound).2.1]
          exact answer_of_yields line
  | readToEnd =>
      have all := Tracking.yields_readToEnd here
      cases hfound : r.text[r.index]? with
      | none =>
          rw [hfound, drop_eq_nil hfound] at all
          rw [Reader.perform, (Reader.eq_of_peek_eq_none hfound).2.2]
          exact answer_of_yields all
      | some c =>
          rw [hfound] at all
          rw [Reader.perform, (Reader.eq_of_peek_eq_some hfound).2.2]
          exact answer_of_yields all
  | mark => exact ⟨cur.mark, rfl, h.mark⟩
  | unmark => exact ⟨cur.unmark, rfl, h.unmark⟩
  | reset alsoUnmark => exact ⟨cur.reset alsoUnmark, rfl, h.reset alsoUnmark⟩
  | capture alsoUnmark =>
      refine ⟨(cur.capture alsoUnmark).2, ?_, ?_⟩
      · have same : cur.captured.map String.toList = r.captured := by
          rw [h.captured]
          cases r.captured <;> simp
        exact congrArg (fun found => (Except.ok (Answer.text found), _)) same
      · cases alsoUnmark with
        | false => exact h
        | true => exact h.unmark

/-- A whole session keeps the cursor following the reader, answer by answer. -/
theorem performAll_follows (h : cur.Follows r []) (ops : List Operation) :
    (cur.performAll ops).1 = (r.performAll ops).1.map .ok ∧
      (cur.performAll ops).2.Follows (r.performAll ops).2 [] := by
  induction ops generalizing cur r with
  | nil => exact ⟨rfl, h⟩
  | cons op ops ih =>
      obtain ⟨cur', hstep, follows⟩ := perform_follows h op
      obtain ⟨answers, last⟩ := ih follows
      simp only [performAll, Reader.performAll, hstep]
      exact ⟨by rw [answers, List.map_cons], last⟩

/-! ## What every session keeps -/

/-- The cursor never has to hand back more than it keeps: no mark is ahead of the position, and all
that was read since a mark is there. -/
theorem Follows.backed (h : cur.Follows r []) {saved : Position} (hsaved : saved ∈ cur.marks) :
    saved.index ≤ cur.position.index ∧ cur.readSince saved ≤ cur.backup.length := by
  rw [h.marks] at hsaved
  obtain ⟨m, hm, rfl⟩ := List.mem_map.mp hsaved
  refine ⟨?_, h.readSince_le hm⟩
  rw [Position.index_ofIndex (h.ordered.saved_le_length hm), h.index_position]
  exact h.ordered.saved_le hm

/-- Without a mark there is nothing to forget, to go back to or to capture. -/
theorem unchanged_of_marks_eq_nil (h : cur.marks = []) :
    cur.unmark = cur ∧ ∀ alsoUnmark, cur.reset alsoUnmark = cur ∧
      cur.capture alsoUnmark = (none, cur) := by
  have same : cur.unmark = cur := by simp only [unmark, h]
  refine ⟨same, fun alsoUnmark => ⟨by simp only [reset, h], ?_⟩⟩
  have nothing : cur.captured = none := by simp only [captured, h]
  rw [capture, nothing, same, ite_self]

/-- Over a source without faults, a session with a cursor is a session with a reader of what the
source delivers. The answers are the same, and the cursor that is left waits for the rest of the text,
keeps what was read since the number saved first and nothing without one, has the positions of the
numbers, and can go back to each of its marks. The positions count the lines and columns of the text
before each number. -/
theorem performAll_ofSource (source : Source) (faultless : source.faults = [])
    (ops : List Operation) :
    let (answers, cur) := (ofSource source).performAll ops
    let (expected, r) := (Reader.ofText source.chars).performAll ops
    answers = expected.map .ok ∧
      r.index ≤ source.chars.length ∧
      (r.index :: r.saved).Pairwise (· ≥ ·) ∧
      cur.pending ++ cur.source.chars = source.chars.drop r.index ∧
      cur.backup.reverse =
        (match r.saved.getLast? with
          | some oldest => (source.chars.take r.index).drop oldest
          | none => []) ∧
      cur.position = .ofIndex source.chars r.index ∧
      cur.marks = r.saved.map (.ofIndex source.chars) ∧
      (∀ n ∈ r.index :: r.saved, (Position.ofIndex source.chars n).Counts
        (Position.lineNumber source.chars n) (Position.columnNumber source.chars n) n) ∧
      (∀ saved ∈ cur.marks,
        saved.index ≤ cur.position.index ∧ cur.readSince saved ≤ cur.backup.length) ∧
      (cur.marks = [] → cur.unmark = cur ∧ ∀ alsoUnmark, cur.reset alsoUnmark = cur ∧
        cur.capture alsoUnmark = (none, cur)) := by
  have start : (ofSource source).Follows (.ofText source.chars) [] :=
    faultless ▸ Follows.ofSource source
  obtain ⟨answers, h⟩ := performAll_follows start ops
  have text : ((Reader.ofText source.chars).performAll ops).2.text = source.chars :=
    Reader.text_performAll ops _
  generalize (Reader.ofText source.chars).performAll ops = session at answers h text ⊢
  obtain ⟨expected, r⟩ := session
  rw [← text]
  refine ⟨answers, h.ordered.within, h.ordered.descending, h.rest, ?_, h.position, h.marks,
    fun n hn => h.ordered.counts hn, fun saved hsaved => h.backed hsaved, unchanged_of_marks_eq_nil⟩
  rw [h.backup, List.reverse_reverse]
  exact r.kept_eq

/-- A session that goes back into a line end, and forgets its marks one by one. -/
theorem performAll_over_a_line_end :
    let source := Source.ofItems [.char 'a', .char '\r', .char '\n', .char 'b']
    source.faults = [] ∧
      ((ofSource source).performAll
        [.read, .mark, .read, .mark, .readLine, .reset false, .capture true, .readToEnd,
          .reset true, .readLine, .capture false]).1 =
        [.ok (.char (some 'a')), .ok .done, .ok (.char (some '\r')), .ok .done,
          .ok (.text (some [])), .ok .done, .ok (.text (some [])), .ok (.text (some ['\n', 'b'])),
          .ok .done, .ok (.text (some [])), .ok (.text none)] :=
  ⟨rfl, (performAll_ofSource _ rfl _).1.trans rfl⟩

end Cursor

end TextGrammar
