import TextGrammar.Proofs.Refinement.Frame

set_option autoImplicit false

/-! # The lines of a text

Terminators cut a text into lines. A line feed, a carriage return and both in this order are one
terminator each, and what stands behind the last of them is a line only if it is not empty. Every text
can be cut in one way only, and reading line by line from its beginning gives the pieces. -/

namespace TextGrammar

open Reader (isTerminator firstLine firstLineLength)

/-- A line of a text and what ends it, which is nothing in a line that ends with the text. -/
structure Line where
  segment : List Char
  terminator : List Char
deriving DecidableEq, Repr

/-- All characters of a line. -/
def Line.chars (l : Line) : List Char :=
  l.segment ++ l.terminator

/-- The first characters are one terminator, if the second ones stand behind it. -/
inductive Terminates : List Char → List Char → Prop where
  | both (rest : List Char) : Terminates ['\r', '\n'] rest
  | lineFeed (rest : List Char) : Terminates ['\n'] rest
  | carriageReturn {rest : List Char} (alone : rest.head? ≠ some '\n') : Terminates ['\r'] rest

/-- The text is cut into these lines. -/
inductive Lines : List Char → List Line → Prop where
  | empty : Lines [] []
  | unterminated {segment : List Char} (proper : segment ≠ [])
      (inner : ∀ c ∈ segment, isTerminator c = false) : Lines segment [⟨segment, []⟩]
  | terminated {segment terminator rest : List Char} {lines : List Line}
      (inner : ∀ c ∈ segment, isTerminator c = false) (ends : Terminates terminator rest)
      (behind : Lines rest lines) :
      Lines (segment ++ terminator ++ rest) (⟨segment, terminator⟩ :: lines)

/-! ## The first line -/

theorem Terminates.ne_nil {terminator rest : List Char} (h : Terminates terminator rest) :
    terminator ≠ [] := by
  cases h <;> exact List.cons_ne_nil _ _

namespace Reader

theorem firstLine_append {segment : List Char} (inner : ∀ c ∈ segment, isTerminator c = false)
    (rest : List Char) :
    firstLine (segment ++ rest) = segment ++ firstLine rest ∧
      firstLineLength (segment ++ rest) = segment.length + firstLineLength rest := by
  induction segment with
  | nil => simp
  | cons c segment ih =>
      obtain ⟨hc, inner⟩ := List.forall_mem_cons.mp inner
      obtain ⟨line, length⟩ := ih inner
      rw [List.cons_append, firstLine_cons hc, firstLineLength_cons hc, line, length,
        List.length_cons]
      exact ⟨rfl, by omega⟩

theorem firstLine_of_terminates {terminator rest : List Char} (h : Terminates terminator rest) :
    firstLine (terminator ++ rest) = [] ∧
      firstLineLength (terminator ++ rest) = terminator.length := by
  cases h with
  | both => exact ⟨firstLine_terminator rfl _, firstLineLength_terminator rfl _⟩
  | lineFeed => exact ⟨firstLine_terminator rfl _, firstLineLength_terminator rfl _⟩
  | carriageReturn alone =>
      refine ⟨firstLine_terminator rfl _, (firstLineLength_terminator rfl _).trans ?_⟩
      exact (terminatorLength_carriageReturn rest).trans (if_neg alone)

end Reader

/-- A text whose first line is empty begins with a terminator. -/
theorem exists_terminates {text : List Char} (proper : text ≠ []) (line : firstLine text = []) :
    ∃ terminator rest, text = terminator ++ rest ∧ Terminates terminator rest := by
  cases text with
  | nil => exact absurd rfl proper
  | cons c rest =>
      have either : c = '\n' ∨ c = '\r' := by
        by_contra neither
        have inside : isTerminator c = false := by simpa [isTerminator] using neither
        rw [Reader.firstLine_cons inside] at line
        cases line
      rcases either with rfl | rfl
      · exact ⟨['\n'], rest, rfl, .lineFeed rest⟩
      · by_cases fed : rest.head? = some '\n'
        · obtain ⟨behind, rfl⟩ := List.head?_eq_some_iff.mp fed
          exact ⟨['\r', '\n'], behind, rfl, .both behind⟩
        · exact ⟨['\r'], rest, rfl, .carriageReturn fed⟩

namespace Lines

variable {text : List Char} {l : Line} {lines : List Line}

/-- The first of some lines is terminated, or it is the only one and ends with the text. -/
theorem of_cons (h : Lines text (l :: lines)) :
    ∃ rest, text = l.chars ++ rest ∧ Lines rest lines ∧
      (∀ c ∈ l.segment, isTerminator c = false) ∧
      (Terminates l.terminator rest ∨
        l.terminator = [] ∧ l.segment ≠ [] ∧ rest = [] ∧ lines = []) := by
  cases h with
  | unterminated proper inner =>
      exact ⟨[], by simp [Line.chars], .empty, inner, .inr ⟨rfl, proper, rfl, rfl⟩⟩
  | terminated inner ends behind => exact ⟨_, rfl, behind, inner, .inl ends⟩

/-- What a reader takes to be the first line is the first of the lines. -/
theorem firstLine_eq (h : Lines text (l :: lines)) :
    firstLine text = l.segment ∧ firstLineLength text = l.chars.length := by
  obtain ⟨rest, rfl, -, inner, ends⟩ := h.of_cons
  obtain ⟨line, length⟩ := Reader.firstLine_append inner (l.terminator ++ rest)
  rw [Line.chars, List.append_assoc, line, length, List.length_append]
  rcases ends with ends | ⟨nothing, -, rfl, -⟩
  · obtain ⟨line, length⟩ := Reader.firstLine_of_terminates ends
    rw [line, length, List.append_nil]
    exact ⟨rfl, rfl⟩
  · rw [nothing]
    exact ⟨List.append_nil _, rfl⟩

theorem ne_nil (h : Lines text (l :: lines)) : text ≠ [] := by
  obtain ⟨rest, rfl, -, -, ends⟩ := h.of_cons
  rcases ends with ends | ⟨-, proper, -⟩
  · simp [Line.chars, ends.ne_nil]
  · simp [Line.chars, proper]

/-- The lines with their terminators put back are the text. -/
theorem flatMap_chars (h : Lines text lines) : lines.flatMap Line.chars = text := by
  induction h with
  | empty => rfl
  | unterminated => simp [Line.chars]
  | terminated inner ends behind ih => rw [List.flatMap_cons, ih, Line.chars]

/-- No terminator stands inside a line. -/
theorem inner (h : Lines text lines) : ∀ l ∈ lines, ∀ c ∈ l.segment, isTerminator c = false := by
  induction h with
  | empty => simp
  | unterminated proper inner => simpa using inner
  | terminated inner ends behind ih => exact List.forall_mem_cons.mpr ⟨inner, ih⟩

/-! ## Every text has lines, and only these -/

theorem unique {others : List Line} (h : Lines text lines) (h' : Lines text others) :
    lines = others := by
  induction lines generalizing text others with
  | nil =>
      cases others with
      | nil => rfl
      | cons l' others => exact absurd h.flatMap_chars.symm h'.ne_nil
  | cons l lines ih =>
      cases others with
      | nil => exact absurd h'.flatMap_chars.symm h.ne_nil
      | cons l' others =>
          obtain ⟨line, length⟩ := h.firstLine_eq
          obtain ⟨line', length'⟩ := h'.firstLine_eq
          obtain ⟨rest, rfl, behind, -⟩ := h.of_cons
          obtain ⟨rest', same, behind', -⟩ := h'.of_cons
          have segments : l.segment = l'.segment := line.symm.trans line'
          obtain ⟨chars, rests⟩ := List.append_inj same (length.symm.trans length')
          have terminators : l.terminator = l'.terminator := by
            rw [Line.chars, Line.chars, segments] at chars
            exact List.append_cancel_left chars
          subst rests
          rw [ih behind behind', show l = l' by cases l; cases l'; simp_all]

theorem exists_lines (text : List Char) : ∃ lines, Lines text lines := by
  induction hsize : text.length using Nat.strongRecOn generalizing text with
  | ind size ih =>
      have inner : ∀ c ∈ firstLine text, isTerminator c = false := fun c hc => by
        simpa using List.mem_takeWhile_imp hc
      obtain ⟨rest, whole⟩ : ∃ rest, firstLine text ++ rest = text :=
        List.takeWhile_prefix (!isTerminator ·)
      by_cases last : rest = []
      · rw [last, List.append_nil] at whole
        by_cases nothing : text = []
        · exact ⟨[], nothing ▸ .empty⟩
        · rw [whole] at inner
          exact ⟨_, .unterminated nothing inner⟩
      · have short := (Reader.firstLine_append inner rest).1
        rw [whole, List.self_eq_append_right] at short
        obtain ⟨terminator, behind, rfl, ends⟩ := exists_terminates last short
        have shorter : behind.length < size := by
          have proper := List.length_pos_iff.mpr ends.ne_nil
          rw [← hsize, ← whole, List.length_append, List.length_append]
          omega
        obtain ⟨lines, cut⟩ := ih _ shorter behind rfl
        rw [← whole, ← List.append_assoc]
        exact ⟨_, .terminated inner ends cut⟩

end Lines

/-! ## Positions behind lines -/

namespace Position

variable {p : Position}

/-- Characters inside a line lead no further than to its end. -/
theorem advanceOver_segment {segment : List Char} (inner : ∀ c ∈ segment, isTerminator c = false)
    (rest : List Char) : p.advanceOver (segment ++ rest) segment.length =
      ⟨p.line, p.column + .ofNat segment.length, p.index + segment.length⟩ := by
  induction segment generalizing p with
  | nil => simp
  | cons c segment ih =>
      obtain ⟨hc, inner⟩ := List.forall_mem_cons.mp inner
      have stays : breaksLine c (segment ++ rest).head? = false := by
        simp only [isTerminator, Bool.or_eq_false_iff] at hc
        simp [breaksLine, hc.1, hc.2]
      rw [List.cons_append, List.length_cons, advanceOver, stays, ih inner]
      simp only [advance, Bool.false_eq_true, if_false, advanceColumn, mk.injEq, true_and]
      rw [Nat.add_comm segment.length 1, UInt32.ofNat_add, UInt32.add_assoc, Nat.add_assoc]
      exact ⟨rfl, rfl⟩

/-- A terminator leads to the beginning of the next line, and its first character not yet if there are
two. -/
theorem advanceOver_terminator {terminator rest : List Char} (ends : Terminates terminator rest) :
    p.advanceOver (terminator ++ rest) terminator.length =
      ⟨p.line + 1, 1, p.index + terminator.length⟩ := by
  cases ends with
  | both => exact advanceOver_zero _ rest
  | lineFeed => exact advanceOver_zero _ rest
  | carriageReturn alone =>
      have breaks : breaksLine '\r' rest.head? = true := by simpa [breaksLine] using alone
      rw [List.singleton_append, List.length_singleton, advanceOver, breaks, advanceOver_zero]
      rfl

end Position

namespace Lines

variable {text : List Char} {l : Line} {lines : List Line}

/-- The position behind a line, which begins the next line or ends the text. -/
theorem advanceOver_chars (h : Lines text (l :: lines)) (p : Position) :
    p.advanceOver text l.chars.length =
      if l.terminator = [] then
        ⟨p.line, p.column + .ofNat l.segment.length, p.index + l.chars.length⟩
      else ⟨p.line + 1, 1, p.index + l.chars.length⟩ := by
  obtain ⟨rest, rfl, -, inner, ends⟩ := h.of_cons
  rw [Line.chars, List.append_assoc, List.length_append, Position.advanceOver_add,
    Position.advanceOver_segment inner, List.drop_left]
  rcases ends with ends | ⟨nothing, -, rfl, -⟩
  · rw [if_neg ends.ne_nil, Position.advanceOver_terminator ends, Nat.add_assoc]
  · simp [nothing]

/-- The position behind each line of a text. -/
theorem advanceOver_take (h : Lines text lines) {p : Position} (begins : p.column = 1) {k : Nat}
    (found : lines[k]? = some l) :
    p.advanceOver text ((lines.take (k + 1)).flatMap Line.chars).length =
      if l.terminator = [] then
        ⟨p.line + .ofNat k, .ofNat (l.segment.length + 1),
          p.index + ((lines.take (k + 1)).flatMap Line.chars).length⟩
      else
        ⟨p.line + .ofNat (k + 1), 1,
          p.index + ((lines.take (k + 1)).flatMap Line.chars).length⟩ := by
  induction lines generalizing text p k with
  | nil => simp at found
  | cons first lines ih =>
      have passed := h.advanceOver_chars p
      obtain ⟨rest, rfl, behind, -, ends⟩ := h.of_cons
      cases k with
      | zero =>
          cases found
          simpa [begins, UInt32.ofNat_add, UInt32.add_comm] using passed
      | succ k =>
          rw [List.getElem?_cons_succ] at found
          have terminated : first.terminator ≠ [] := by
            rcases ends with ends | ⟨-, -, -, rfl⟩
            · exact ends.ne_nil
            · simp at found
          have later (n : Nat) : p.line + 1 + .ofNat n = p.line + .ofNat (n + 1) := by
            rw [Nat.add_comm n 1, UInt32.ofNat_add, UInt32.add_assoc]
            rfl
          rw [if_neg terminated] at passed
          rw [List.take_succ_cons, List.flatMap_cons, List.length_append, Position.advanceOver_add,
            passed, List.drop_left, ih behind rfl found]
          simp only [later, Nat.add_assoc]

theorem chars_ne_nil (h : Lines text lines) : ∀ l ∈ lines, l.chars ≠ [] := by
  induction h with
  | empty => simp
  | unterminated proper => simpa [Line.chars] using proper
  | terminated inner ends behind ih =>
      exact List.forall_mem_cons.mpr ⟨by simp [Line.chars, ends.ne_nil], ih⟩

/-- Only the last line may lack a terminator. -/
theorem take_succ_eq (h : Lines text lines) {k : Nat} (found : lines[k]? = some l)
    (last : l.terminator = []) : lines.take (k + 1) = lines := by
  induction h generalizing k with
  | empty => simp at found
  | unterminated proper inner => simp
  | terminated inner ends behind ih =>
      cases k with
      | zero =>
          cases found
          exact absurd last ends.ne_nil
      | succ k => rw [List.take_succ_cons, ih found]

/-- Each line has a character, so that there are no more lines than characters. -/
theorem length_le_flatMap {lines : List Line} (h : ∀ l ∈ lines, l.chars ≠ []) :
    lines.length ≤ (lines.flatMap Line.chars).length := by
  induction lines with
  | nil => exact Nat.zero_le _
  | cons l lines ih =>
      obtain ⟨some, others⟩ := List.forall_mem_cons.mp h
      have := List.length_pos_iff.mpr some
      have := ih others
      simp only [List.length_cons, List.flatMap_cons, List.length_append]
      omega

/-- Behind a line, both its number and its length are within what has been read. -/
theorem le_length_flatMap_take (h : Lines text lines) {k : Nat} (found : lines[k]? = some l) :
    k + 1 ≤ ((lines.take (k + 1)).flatMap Line.chars).length ∧
      l.segment.length ≤ ((lines.take (k + 1)).flatMap Line.chars).length := by
  obtain ⟨short, rfl⟩ := List.getElem?_eq_some_iff.mp found
  constructor
  · have each : ∀ l ∈ lines.take (k + 1), l.chars ≠ [] :=
      fun l hl => h.chars_ne_nil l (List.mem_of_mem_take hl)
    have all := length_le_flatMap each
    rwa [List.length_take, Nat.min_eq_left short] at all
  · rw [List.take_add_one, found, List.flatMap_append, List.length_append]
    simp [Line.chars]
    omega

end Lines

/-! ## Reading line by line -/

namespace Reader

variable {r : Reader} {l : Line} {lines : List Line}

/-- Behind the last line there is nothing to read. -/
theorem readLine_of_nil (h : Lines r.rest []) : r.readLine = (none, r) := by
  have rest : r.rest = [] := h.flatMap_chars.symm
  have behind : r.text[r.index]? = none :=
    List.getElem?_eq_none (List.drop_eq_nil_iff.mp rest)
  exact (eq_of_peek_eq_none behind).2.1

/-- Reading a line gives the first of the lines that are left, and leaves the others. -/
theorem readLine_of_cons (h : Lines r.rest (l :: lines)) :
    r.readLine = (some l.segment, r.forward l.chars.length) ∧
      Lines (r.forward l.chars.length).rest lines := by
  obtain ⟨line, length⟩ := h.firstLine_eq
  obtain ⟨rest, cut, behind, -⟩ := h.of_cons
  constructor
  · obtain ⟨c, found⟩ : ∃ c, r.text[r.index]? = some c := by
      have short : r.index < r.text.length := by
        by_contra passed
        exact h.ne_nil (List.drop_eq_nil_of_le (Nat.le_of_not_lt passed))
      exact ⟨_, List.getElem?_eq_getElem short⟩
    rw [(eq_of_peek_eq_some found).2.1, line, length]
  · have left : (r.forward l.chars.length).rest = rest := by
      show r.text.drop (r.index + l.chars.length) = rest
      rw [← List.drop_drop, show r.text.drop r.index = l.chars ++ rest from cut, List.drop_left]
    exact left ▸ behind

/-- Reading one line after another gives the lines, and then nothing any more. -/
theorem performAll_readLine (h : Lines r.rest lines) (k : Nat) :
    r.performAll (List.replicate k .readLine) =
      ((List.range k).map fun i => .text (lines[i]?.map Line.segment),
        r.forward ((lines.take k).flatMap Line.chars).length) := by
  induction k generalizing r lines with
  | zero => rfl
  | succ k ih =>
      rw [List.replicate_succ, performAll, List.range_succ_eq_map, List.map_cons, List.map_map]
      cases lines with
      | nil =>
          simp only [perform, readLine_of_nil h, ih h, List.take_nil]
          rfl
      | cons l lines =>
          obtain ⟨line, behind⟩ := readLine_of_cons h
          have farther (n : Nat) :
              (r.forward l.chars.length).forward n = r.forward (l.chars.length + n) := by
            simp only [forward, Nat.add_assoc]
          simp only [perform, line, ih behind, farther, List.take_succ_cons, List.flatMap_cons,
            List.length_append]
          rfl

end Reader

namespace Cursor

/-- Reading line by line from the beginning of a text gives its lines without their terminators, and
nothing when there are no more. The position behind each line counts one line more for each terminator,
and begins the next line or ends the text. -/
theorem readLine_partitions {source : Source} (faultless : source.faults = []) {cur : Cursor}
    (reached : cur.Reachable source) (begins : cur.position = .bof) :
    ∃ lines, Lines source.chars lines ∧ (∀ others, Lines source.chars others → others = lines) ∧
      lines.flatMap Line.chars = source.chars ∧
      (∀ l ∈ lines, '\r' ∉ l.segment ∧ '\n' ∉ l.segment) ∧
      (∀ k, (cur.performAll (List.replicate k .readLine)).1 =
        (List.range k).map fun i => .ok (.text (lines[i]?.map Line.segment))) ∧
      ∀ k l, lines[k]? = some l →
        let p := (cur.performAll (List.replicate (k + 1) .readLine)).2.position
        if l.terminator = [] then p.Counts (k + 1) (l.segment.length + 1) source.chars.length
        else p.Counts (k + 2) 1 ((lines.take (k + 1)).flatMap Line.chars).length := by
  obtain ⟨saved, follows⟩ := reached.follows faultless
  rw [begins] at follows
  obtain ⟨lines, cut⟩ := Lines.exists_lines source.chars
  have read := Reader.performAll_readLine (r := ⟨source.chars, 0, saved⟩) cut
  refine ⟨lines, cut, fun others h => h.unique cut, cut.flatMap_chars, ?_, ?_, ?_⟩
  · intro l hl
    have inner := cut.inner l hl
    exact ⟨fun stands => absurd (inner _ stands) (by decide),
      fun stands => absurd (inner _ stands) (by decide)⟩
  · intro k
    rw [(performAll_follows follows _).1]
    simp only [Position.index_bof, read, List.map_map]
    rfl
  · intro k l found
    have there := (performAll_follows follows (List.replicate (k + 1) .readLine)).2.position
    simp only [Position.index_bof, read, Reader.forward, Nat.zero_add] at there
    rw [Reader.position, Position.ofIndex, cut.advanceOver_take rfl found] at there
    obtain ⟨number, length⟩ := cut.le_length_flatMap_take found
    -- the position has counted in words, so the numbers are put together as words
    have line (n : Nat) : (Position.bof.line + .ofNat n) = .ofNat (n + 1) := by
      rw [UInt32.ofNat_add, UInt32.add_comm]
      rfl
    rw [line, line, Position.index_bof, Nat.zero_add] at there
    intro p
    by_cases last : l.terminator = []
    · have whole : ((lines.take (k + 1)).flatMap Line.chars).length = source.chars.length := by
        rw [cut.take_succ_eq found last, cut.flatMap_chars]
      rw [if_pos last] at there ⊢
      rw [show p = _ from there, ← whole]
      exact Position.counts_ofNat (Nat.le_succ_of_le number) (Nat.succ_le_succ length)
    · rw [if_neg last] at there ⊢
      rw [show p = _ from there]
      exact Position.counts_ofNat (Nat.succ_le_succ number) (Nat.succ_le_succ (Nat.zero_le _))

/-- Terminators of all kinds next to each other, read again from the beginning after a way back from the
middle of one of them. -/
theorem readLine_partitions_again :
    let source := Source.ofItems
      [.char 'a', .char '\r', .char '\n', .char '\n', .char '\r', .char 'b']
    let further := ((((ofSource source).perform .mark).2.perform .read).2.perform .read).2
    let cur := (further.perform (.reset true)).2
    let lines : List Line := [⟨['a'], ['\r', '\n']⟩, ⟨[], ['\n']⟩, ⟨[], ['\r']⟩, ⟨['b'], []⟩]
    source.faults = [] ∧ cur.Reachable source ∧ cur.position = .bof ∧
      Lines source.chars lines ∧
      (cur.performAll (List.replicate 5 .readLine)).1 =
        [some ['a'], some [], some [], some ['b'], none].map (.ok <| .text ·) ∧
      (cur.performAll (List.replicate 3 .readLine)).2.position.Counts 4 1 5 ∧
      (cur.performAll (List.replicate 4 .readLine)).2.position.Counts 4 2 6 := by
  intro source further cur lines
  have marked : ((ofSource source).perform .mark).2.Reachable source := .perform .start .mark
  have reached : cur.Reachable source :=
    .perform (.perform (.perform marked .read) .read) (.reset true)
  have begins : cur.position = .bof := rfl
  obtain ⟨_, cut, unique, -, -, answers, positions⟩ := readLine_partitions rfl reached begins
  have fourth : Lines ['b'] [⟨['b'], []⟩] :=
    .unterminated (List.cons_ne_nil _ _) (by simp [isTerminator])
  have third : Lines ([] ++ ['\r'] ++ ['b']) (⟨[], ['\r']⟩ :: _) :=
    .terminated (List.forall_mem_nil _) (.carriageReturn (by simp)) fourth
  have second : Lines ([] ++ ['\n'] ++ ['\r', 'b']) (⟨[], ['\n']⟩ :: _) :=
    .terminated (List.forall_mem_nil _) (.lineFeed _) third
  have all : Lines (['a'] ++ ['\r', '\n'] ++ ['\n', '\r', 'b']) lines :=
    .terminated (by simp [isTerminator]) (.both _) second
  obtain rfl := unique lines all
  exact ⟨rfl, reached, begins, cut, answers 5, positions 2 _ rfl, positions 3 _ rfl⟩

end Cursor

end TextGrammar
