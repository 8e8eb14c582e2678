import TextGrammar.Proofs.Cursor.Session

set_option autoImplicit false

/-! # Every character once, every fault once

Over a list of characters and faults, an operation that asks for no more than the next character
either is answered as if there were no faults, or it reports the first fault that has not been
reported and nothing else happens. A session of such operations therefore gives the answers of a
reader of the characters alone, in which the operations that ended in a fault were never made, and the
faults it reports are those of the items it has reached. -/

namespace TextGrammar

/-- A fault stops the operation before anything has been read, or not at all. -/
def Operation.isAtomic : Operation → Bool
  | .readLine => false
  | .readToEnd => false
  | _ => true

/-- The operations that were answered; the others ended in a fault. -/
def answered : List Operation → List (Except Fault Answer) → List Operation
  | op :: ops, .ok _ :: answers => op :: answered ops answers
  | _ :: ops, .error _ :: answers => answered ops answers
  | _, _ => []

/-- The fault in place of an answer. -/
def Answer.fault? : Except Fault Answer → Option Fault
  | .ok _ => none
  | .error f => some f

/-! ## The items that a source has yet to deliver -/

/-- Taking an item off a list leaves the items behind it. -/
theorem ItemSource.undelivered_peek (s : ItemSource) :
    (Reading.left s.peek).undelivered <:+ s.undelivered := by
  obtain ⟨items, ahead⟩ := s
  cases ahead with
  | char c => exact List.suffix_refl _
  | atEnd => exact List.suffix_refl _
  | unknown =>
      rcases items with _ | ⟨_ | _, rest⟩
      · exact List.suffix_refl _
      · exact List.suffix_refl _
      · exact List.suffix_cons _ _

theorem ItemSource.undelivered_read (s : ItemSource) :
    (Reading.left s.read).undelivered <:+ s.undelivered := by
  obtain ⟨items, ahead⟩ := s
  cases ahead with
  | char c => exact List.suffix_cons _ _
  | atEnd => exact List.suffix_refl _
  | unknown =>
      rcases items with _ | ⟨_ | _, rest⟩
      · exact List.suffix_refl _
      · exact List.suffix_cons _ _
      · exact List.suffix_cons _ _

/-- The source delivers the last of some items and nothing else. -/
def Source.EndsLike (items : List Item) (source : Source) : Prop :=
  ∃ s, source = .items s ∧ s.undelivered <:+ items

/-- A property of sources is kept by all that a source is asked. -/
structure Source.Kept (P : Source → Prop) : Prop where
  peek {source : Source} : P source → P (Reading.left source.peek)
  read {source : Source} : P source → P (Reading.left source.read)

theorem Source.kept_endsLike (items : List Item) : Source.Kept (Source.EndsLike items) where
  peek := by
    rintro _ ⟨s, rfl, h⟩
    exact ⟨_, Reading.left_embed _ _, s.undelivered_peek.trans h⟩
  read := by
    rintro _ ⟨s, rfl, h⟩
    exact ⟨_, Reading.left_embed _ _, s.undelivered_read.trans h⟩

namespace Cursor

/-- The answer and what is left are those of the reading. -/
theorem left_answer {α : Type} (form : α → Answer) (result : EStateM.Result Fault Cursor α) :
    (answer form result).2 = Reading.left result := by
  cases result <;> rfl

/-! ## A cursor only peeks and reads -/

section

variable {P : Source → Prop} (kept : Source.Kept P) {cur : Cursor}
include kept

theorem kept_askPeek (h : P cur.source) : P (Reading.left (ask Source.peek cur)).source := by
  rw [ask, Reading.left_embed]
  exact kept.peek h

theorem kept_peek (h : P cur.source) : P (Reading.left cur.peek).source := by
  unfold peek
  split
  · exact h
  · exact kept_askPeek kept h

theorem kept_fetch (h : P cur.source) : P (Reading.left (fetch cur)).source := by
  have asked := kept.read h
  unfold fetch
  split <;> rename_i same <;> rw [same] at asked <;> exact asked

theorem kept_peekSecond (h : P cur.source) : P (Reading.left (peekSecond cur)).source := by
  unfold peekSecond
  split
  · exact h
  · exact kept_askPeek kept h
  · have fetched := kept_fetch kept h
    split <;> rename_i same <;> rw [same] at fetched
    · exact kept_askPeek kept fetched
    · exact fetched

theorem kept_endsLine (c : Char) (h : P cur.source) : P (Reading.left (endsLine c cur)).source := by
  unfold endsLine
  split
  · exact h
  · split
    · have seen := kept_peekSecond kept h
      split <;> rename_i same <;> rw [same] at seen <;> exact seen
    · exact h

theorem kept_drop (h : P cur.source) : P (Reading.left (drop cur)).source := by
  have asked := kept.read h
  unfold drop
  split
  · exact h
  · split <;> rename_i same <;> rw [same] at asked <;> exact asked

theorem kept_read (h : P cur.source) : P (Reading.left cur.read).source := by
  have seen := kept_peek kept h
  unfold read
  cases peeked : peek cur with
  | error f cur₁ => rw [peeked] at seen; exact seen
  | ok found cur₁ =>
      rw [peeked] at seen
      replace seen : P cur₁.source := seen
      cases found with
      | none => exact seen
      | some c =>
          have known := kept_endsLine kept c seen
          simp only
          generalize endsLine c cur₁ = result at known ⊢
          cases result with
          | error f cur₂ => exact known
          | ok breaksLine cur₂ =>
              have dropped := kept_drop kept known
              simp only
              rw [Reading.left_ok] at dropped
              generalize drop cur₂ = result at dropped ⊢
              cases result with
              | error f cur₃ => exact dropped
              | ok _ cur₃ => exact dropped

theorem kept_isEof (h : P cur.source) : P (Reading.left cur.isEof).source := by
  have seen := kept_peek kept h
  unfold isEof
  split <;> rename_i same <;> rw [same] at seen <;> exact seen

/-- Marks are no matter of the source. -/
theorem kept_perform {op : Operation} (atomic : op.isAtomic = true) (h : P cur.source) :
    P (cur.perform op).2.source := by
  have unmarked (cur : Cursor) : cur.unmark.source = cur.source := by
    unfold unmark
    split <;> rfl
  cases op with
  | peek => rw [perform, left_answer]; exact kept_peek kept h
  | isEof => rw [perform, left_answer]; exact kept_isEof kept h
  | read => rw [perform, left_answer]; exact kept_read kept h
  | readLine => cases atomic
  | readToEnd => cases atomic
  | mark => exact h
  | unmark => rw [perform, unmarked]; exact h
  | reset alsoUnmark =>
      have same : (cur.reset alsoUnmark).source = cur.source := by
        unfold reset
        split
        · rfl
        · cases alsoUnmark with
          | false => rfl
          | true => exact unmarked _
      rw [perform, same]
      exact h
  | capture alsoUnmark =>
      cases alsoUnmark with
      | false => exact h
      | true => rw [perform, capture, if_pos rfl, unmarked]; exact h

theorem kept_performAll {ops : List Operation} (atomic : ∀ op ∈ ops, op.isAtomic = true)
    (h : P cur.source) : P (cur.performAll ops).2.source := by
  induction ops generalizing cur with
  | nil => exact h
  | cons op ops ih =>
      exact ih (fun op hop => atomic op (List.mem_cons_of_mem _ hop))
        (kept_perform kept (atomic op List.mem_cons_self) h)

end

/-! ## One operation -/

variable {cur : Cursor} {r : Reader} {faults : List Fault}

/-- What a reading comes to where the cursor follows a reader: `a`, with the cursor where `r'` is, or
the first fault that has not been reported, with the cursor where it was. -/
inductive Gives {α : Type} (cur : Cursor) (r : Reader) (faults : List Fault) (a : α) (r' : Reader) :
    EStateM.Result Fault Cursor α → Prop where
  | ok {cur' : Cursor} (h : cur'.Follows r' faults) : Gives cur r faults a r' (.ok a cur')
  | fault {f : Fault} {later : List Fault} {cur' : Cursor} (first : faults = f :: later)
      (same : SamePlace cur cur') (h : cur'.Follows r later) :
      Gives cur r faults a r' (.error f cur')

theorem gives_fault {α : Type} {a : α} {r' : Reader} {f : Fault} {cur' : Cursor}
    (h : cur.Follows r faults) (same : SamePlace cur cur') (reported : f :: cur'.faults = cur.faults) :
    Gives cur r faults a r' (.error f cur') :=
  .fault (h.faults.symm.trans reported.symm) same (h.samePlace same)

theorem gives_peek (h : cur.Follows r faults) : Gives cur r faults r.peek r cur.peek := by
  have same := samePlace_peek cur
  have reported := cur.reports_peek
  cases peeked : peek cur with
  | error f cur' =>
      rw [peeked] at same reported
      exact gives_fault h same reported
  | ok found cur' =>
      rw [peeked] at same reported
      have first : found = r.peek := (eq_head?_of_peek peeked).trans h.head?_rest
      have all : cur'.faults = faults := reported.trans h.faults
      subst first
      exact .ok (all ▸ h.samePlace same)

theorem gives_isEof (h : cur.Follows r faults) : Gives cur r faults r.isEof r cur.isEof := by
  have looked := gives_peek h
  unfold isEof
  generalize peek cur = result at looked ⊢
  cases looked with
  | ok follows => exact .ok follows
  | fault first same follows => exact .fault first same follows

theorem gives_read (h : cur.Follows r faults) :
    Gives cur r faults r.read.1 r.read.2 cur.read := by
  have one := cur.readsOne
  have reported := cur.reports_read
  have next : cur.rest.head? = r.text[r.index]? := h.head?_rest
  generalize read cur = result at one reported ⊢
  cases one with
  | fault same => exact gives_fault h same reported
  | @atEnd cur' empty same =>
      rw [empty, List.head?_nil] at next
      rw [(Reader.eq_of_peek_eq_none next.symm).1]
      have all : cur'.faults = faults := reported.trans h.faults
      exact .ok (all ▸ h.samePlace same)
  | @char c cur' step =>
      rw [step.rest, List.head?_cons] at next
      rw [(Reader.eq_of_peek_eq_some next.symm).1]
      have all : cur'.faults = faults := reported.trans h.faults
      exact .ok (all ▸ h.advanced step)

/-- What comes of an operation on a cursor that follows a reader: the answer of the reader, or the
first fault that has not been reported. -/
inductive Delivers (cur : Cursor) (r : Reader) (faults : List Fault) (op : Operation) :
    Except Fault Answer × Cursor → Prop where
  | answered {cur' : Cursor} (h : cur'.Follows (r.perform op).2 faults) :
      Delivers cur r faults op (.ok (r.perform op).1, cur')
  | interrupted {f : Fault} {later : List Fault} {cur' : Cursor} (first : faults = f :: later)
      (same : SamePlace cur cur') (h : cur'.Follows r later) :
      Delivers cur r faults op (.error f, cur')

theorem Gives.delivers {α : Type} {a : α} {r' : Reader} {form : α → Answer} {op : Operation}
    {result : EStateM.Result Fault Cursor α} (h : Gives cur r faults a r' result)
    (performed : r.perform op = (form a, r')) : Delivers cur r faults op (answer form result) := by
  cases h with
  | fault first same follows => exact .interrupted first same follows
  | @ok cur' follows =>
      have done : Delivers cur r faults op (.ok (r.perform op).1, cur') :=
        .answered (by rw [performed]; exact follows)
      rw [performed] at done
      exact done

theorem delivers_perform (h : cur.Follows r faults) {op : Operation} (atomic : op.isAtomic = true) :
    Delivers cur r faults op (cur.perform op) := by
  cases op with
  | peek => exact (gives_peek h).delivers rfl
  | isEof => exact (gives_isEof h).delivers rfl
  | read => exact (gives_read h).delivers rfl
  | readLine => cases atomic
  | readToEnd => cases atomic
  | mark => exact .answered h.mark
  | unmark => exact .answered h.unmark
  | reset alsoUnmark => exact .answered (h.reset alsoUnmark)
  | capture alsoUnmark =>
      have text : cur.captured.map String.toList = r.captured := by
        rw [h.captured]
        cases r.captured <;> simp
      have done : Delivers cur r faults (.capture alsoUnmark)
          (.ok (r.perform (.capture alsoUnmark)).1, (cur.capture alsoUnmark).2) := by
        refine .answered ?_
        cases alsoUnmark with
        | false => exact h
        | true => exact h.unmark
      rw [perform, capture, text]
      exact done

/-! ## Sessions -/

/-- A whole session: the answers are those of the reader to the operations that were answered, and the
faults are the first ones that were to be reported. -/
theorem performAll_delivers (h : cur.Follows r faults) {ops : List Operation}
    (atomic : ∀ op ∈ ops, op.isAtomic = true) :
    let (answers, last) := cur.performAll ops
    let (expected, r') := r.performAll (answered ops answers)
    answers.filterMap Except.toOption = expected ∧
      ∃ later, faults = answers.filterMap Answer.fault? ++ later ∧ last.Follows r' later := by
  induction ops generalizing cur r faults with
  | nil => exact ⟨rfl, faults, rfl, h⟩
  | cons op ops ih =>
      have step := delivers_perform h (atomic op List.mem_cons_self)
      have others : ∀ op ∈ ops, op.isAtomic = true :=
        fun op hop => atomic op (List.mem_cons_of_mem _ hop)
      simp only [performAll]
      generalize cur.perform op = result at step ⊢
      cases step with
      | answered follows =>
          obtain ⟨answers, later, reported, last⟩ := ih follows others
          exact ⟨congrArg _ answers, later, reported, last⟩
      | interrupted first same follows =>
          obtain ⟨answers, later, reported, last⟩ := ih follows others
          exact ⟨answers, later, by rw [first, reported]; rfl, last⟩

/-- A session over a list of characters and faults. The answers are those of a reader of the
characters alone to the operations that were answered, the cursor ends where that reader does, with
positions that count the lines and columns of these characters, and the faults, each in the place of one
answer, are those of the items that have been delivered. Whatever has happened, an operation that ends in
a fault leaves the cursor where it was. -/
theorem performAll_ofItems (items : List Item) (ops : List Operation)
    (atomic : ∀ op ∈ ops, op.isAtomic = true) :
    let chars := items.filterMap Item.char?
    let (answers, cur) := (ofSource (.ofItems items)).performAll ops
    let (expected, r) := (Reader.ofText chars).performAll (answered ops answers)
    answers.filterMap Except.toOption = expected ∧
      cur.rest = chars.drop r.index ∧
      cur.position = .ofIndex chars r.index ∧
      cur.marks = r.saved.map (.ofIndex chars) ∧
      (∀ n ∈ r.index :: r.saved, (Position.ofIndex chars n).Counts
        (Position.lineNumber chars n) (Position.columnNumber chars n) n) ∧
      (∃ s delivered, cur.source = .items s ∧ items = delivered ++ s.undelivered ∧
        answers.filterMap Answer.fault? = delivered.filterMap Item.fault?) ∧
      ∀ op : Operation, op.isAtomic = true → ∀ f cur', cur.perform op = (.error f, cur') →
        cur'.position = cur.position ∧ cur'.marks = cur.marks ∧ cur'.backup = cur.backup ∧
          cur'.rest = cur.rest := by
  intro chars
  have session := performAll_delivers (Follows.ofSource (.ofItems items)) atomic
  have begins : Source.EndsLike items (ofSource (.ofItems items)).source :=
    ⟨_, rfl, List.suffix_refl _⟩
  have ends := kept_performAll (Source.kept_endsLike items) atomic begins
  rw [Source.chars_ofItems, Source.faults_ofItems] at session
  change let (answers, last) := (ofSource (.ofItems items)).performAll ops
    let (expected, r) := (Reader.ofText chars).performAll (answered ops answers)
    _ at session
  generalize (ofSource (.ofItems items)).performAll ops = performed at session ends ⊢
  obtain ⟨answers, cur⟩ := performed
  have text : ((Reader.ofText chars).performAll (answered ops answers)).2.text = chars :=
    Reader.text_performAll _ _
  simp only at session ⊢
  generalize (Reader.ofText chars).performAll (answered ops answers) = read at session text ⊢
  obtain ⟨expected, r⟩ := read
  obtain ⟨same, later, reported, h⟩ := session
  rw [← text]
  refine ⟨same, h.rest, h.position, h.marks, fun n hn => h.ordered.counts hn, ?_, ?_⟩
  · obtain ⟨s, source, delivered, whole⟩ := ends
    refine ⟨s, delivered, source, whole.symm, ?_⟩
    -- both are what stands before the faults that are still to come
    have still : later = s.undelivered.filterMap Item.fault? := by
      rw [← h.faults, Cursor.faults, source]
      rfl
    have all := congrArg (List.filterMap Item.fault?) whole
    rw [List.filterMap_append, reported, still] at all
    exact (List.append_cancel_right all).symm
  · intro op atomic f cur' failed
    have step := delivers_perform h atomic
    rw [failed] at step
    cases step with
    | interrupted first there follows =>
        exact ⟨there.position, there.marks, there.backup, there.rest⟩

/-- Two faults stand between a carriage return and its line feed. The carriage return is asked for
three times, the line feed still belongs to it, and the line ends once. -/
theorem performAll_over_a_broken_line_end :
    let first : Fault := ⟨.interrupted, "first"⟩
    let second : Fault := ⟨.invalidData, "second"⟩
    let items := [.char 'a', .char '\r', .fault first, .fault second, .char '\n', .char 'b']
    let ops : List Operation :=
      [.read, .mark, .read, .peek, .read, .read, .read, .capture true, .isEof, .read, .peek]
    (∀ op ∈ ops, op.isAtomic = true) ∧
      ((ofSource (.ofItems items)).performAll ops).1.filterMap Except.toOption =
        [.char (some 'a'), .done, .char (some '\r'), .char (some '\r'), .char (some '\n'),
          .text (some ['\r', '\n']), .flag false, .char (some 'b'), .char none] ∧
      ((ofSource (.ofItems items)).performAll ops).1.filterMap Answer.fault? = [first, second] ∧
      ((ofSource (.ofItems items)).performAll ops).2.position = ⟨2, 2, 4⟩ :=
  ⟨by decide, (performAll_ofItems _ _ (by decide)).1.trans rfl, rfl,
    (performAll_ofItems _ _ (by decide)).2.2.1.trans rfl⟩

end Cursor

end TextGrammar
