import TextGrammar.Proofs.Cursor.Tracking

set_option autoImplicit false

/-! # A source that fails beside one that goes on

Two sources deliver the same characters; then one of them reports a fault, and the other one goes on
with some text. As long as the fault has not been reported, whoever reads through a cursor cannot tell
which of the two is behind it. So a cursor over the first source tracks the text of the second, however
that text goes on, and all that interrupts it is the fault. -/

namespace TextGrammar

/-- What a reading comes to in each of two states: a fault in the first, or the same in both, with
states that are again related. -/
inductive Reading.Mirrors {σ τ α : Type} (fault : Fault) (related : σ → τ → Prop) :
    EStateM.Result Fault σ α → EStateM.Result Fault τ α → Prop where
  | ok {a : α} {s : σ} {t : τ} (h : related s t) : Mirrors fault related (.ok a s) (.ok a t)
  | fault {s : σ} {result : EStateM.Result Fault τ α} :
      Mirrors fault related (.error fault s) result

/-! ## What a source delivers next -/

theorem Item.filterMap_char?_map (chars : List Char) :
    (chars.map Item.char).filterMap Item.char? = chars := by
  rw [List.filterMap_map]
  exact List.filterMap_some

theorem Item.filterMap_fault?_map (chars : List Char) :
    (chars.map Item.char).filterMap Item.fault? = [] := by
  induction chars with
  | nil => rfl
  | cons c chars ih => exact ih

namespace ItemSource

variable {s : ItemSource} {c : Char} {f : Fault} {rest : List Item}

/-- A character that comes next is seen, and nothing is delivered. -/
theorem peek_char (h : s.undelivered = .char c :: rest) :
    ∃ s', s.peek = .ok (some c) s' ∧ s'.undelivered = s.undelivered := by
  obtain ⟨items, ahead⟩ := s
  cases ahead with
  | char d => cases h; exact ⟨_, rfl, rfl⟩
  | atEnd => cases h
  | unknown =>
      change items = _ at h
      subst h
      exact ⟨_, rfl, rfl⟩

theorem peek_fault (h : s.undelivered = .fault f :: rest) : ∃ s', s.peek = .error f s' := by
  obtain ⟨items, ahead⟩ := s
  cases ahead with
  | char d => cases h
  | atEnd => cases h
  | unknown =>
      change items = _ at h
      subst h
      exact ⟨_, rfl⟩

theorem read_char (h : s.undelivered = .char c :: rest) :
    ∃ s', s.read = .ok (some c) s' ∧ s'.undelivered = rest := by
  obtain ⟨items, ahead⟩ := s
  cases ahead with
  | char d => cases h; exact ⟨_, rfl, rfl⟩
  | atEnd => cases h
  | unknown =>
      change items = _ at h
      subst h
      exact ⟨_, rfl, rfl⟩

theorem read_fault (h : s.undelivered = .fault f :: rest) : ∃ s', s.read = .error f s' := by
  obtain ⟨s', seen⟩ := peek_fault h
  exact ⟨s', by simp only [read, seen]⟩

end ItemSource

namespace Source

variable {c : Char} {f : Fault} {rest : List Item}

/-- The characters among them are those that are left. -/
theorem filterMap_char?_undelivered (s : Source) :
    s.undelivered.filterMap Item.char? = s.chars := by
  induction s with
  | text s => exact Item.filterMap_char?_map s.chars
  | items s => rfl
  | resource inner failure? closings ih => exact ih

theorem peek_char {s : Source} (h : s.undelivered = .char c :: rest) :
    ∃ s', s.peek = .ok (some c) s' ∧ s'.undelivered = s.undelivered := by
  induction s with
  | text s =>
      cases chars : s.chars <;> rw [undelivered, chars] at h <;> cases h
      exact ⟨_, by rw [peek, s.peek_eq_head?, chars]; rfl, rfl⟩
  | items s =>
      obtain ⟨s', seen, same⟩ := ItemSource.peek_char h
      exact ⟨.items s', by rw [peek, seen]; rfl, same⟩
  | resource inner failure? closings ih =>
      obtain ⟨inner', seen, same⟩ := ih h
      exact ⟨.resource inner' failure? closings, by rw [peek, seen]; rfl, same⟩

theorem peek_fault {s : Source} (h : s.undelivered = .fault f :: rest) :
    ∃ s', s.peek = .error f s' := by
  induction s with
  | text s => cases chars : s.chars <;> rw [undelivered, chars] at h <;> cases h
  | items s =>
      obtain ⟨s', seen⟩ := ItemSource.peek_fault h
      exact ⟨.items s', by rw [peek, seen]; rfl⟩
  | resource inner failure? closings ih =>
      obtain ⟨inner', seen⟩ := ih h
      exact ⟨.resource inner' failure? closings, by rw [peek, seen]; rfl⟩

theorem read_char {s : Source} (h : s.undelivered = .char c :: rest) :
    ∃ s', s.read = .ok (some c) s' ∧ s'.undelivered = rest := by
  induction s with
  | text s =>
      cases chars : s.chars <;> rw [undelivered, chars] at h <;> cases h
      exact ⟨.text s.advance, by rw [read, s.peek_eq_head?, chars]; rfl,
        by rw [undelivered, s.chars_advance, chars]; rfl⟩
  | items s =>
      obtain ⟨s', taken, left⟩ := ItemSource.read_char h
      exact ⟨.items s', by rw [read, taken]; rfl, left⟩
  | resource inner failure? closings ih =>
      obtain ⟨inner', taken, left⟩ := ih h
      exact ⟨.resource inner' failure? closings, by rw [read, taken]; rfl, left⟩

theorem read_fault {s : Source} (h : s.undelivered = .fault f :: rest) :
    ∃ s', s.read = .error f s' := by
  induction s with
  | text s => cases chars : s.chars <;> rw [undelivered, chars] at h <;> cases h
  | items s =>
      obtain ⟨s', taken⟩ := ItemSource.read_fault h
      exact ⟨.items s', by rw [read, taken]; rfl⟩
  | resource inner failure? closings ih =>
      obtain ⟨inner', taken⟩ := ih h
      exact ⟨.resource inner' failure? closings, by rw [read, taken]; rfl⟩

/-- Where `source` reports `fault`, with the items `later` behind it, `other` goes on with the text
`next`. -/
def GoesOn (fault : Fault) (later : List Item) (next : List Char) (source other : Source) : Prop :=
  ∃ chars : List Char, source.undelivered = chars.map .char ++ .fault fault :: later ∧
    other.undelivered = (chars ++ next).map .char

section

variable {fault : Fault} {later : List Item} {next : List Char} {source other : Source}

theorem GoesOn.peek (h : GoesOn fault later next source other) :
    Reading.Mirrors fault (GoesOn fault later next) source.peek other.peek := by
  obtain ⟨chars, hsource, hother⟩ := h
  cases chars with
  | nil =>
      obtain ⟨_, seen⟩ := peek_fault hsource
      rw [seen]
      exact .fault
  | cons c chars =>
      obtain ⟨_, seen, same⟩ := peek_char hsource
      obtain ⟨_, seen', same'⟩ := peek_char hother
      rw [seen, seen']
      exact .ok ⟨c :: chars, same.trans hsource, same'.trans hother⟩

theorem GoesOn.read (h : GoesOn fault later next source other) :
    Reading.Mirrors fault (GoesOn fault later next) source.read other.read := by
  obtain ⟨chars, hsource, hother⟩ := h
  cases chars with
  | nil =>
      obtain ⟨_, taken⟩ := read_fault hsource
      rw [taken]
      exact .fault
  | cons c chars =>
      obtain ⟨_, taken, left⟩ := read_char hsource
      obtain ⟨_, taken', left'⟩ := read_char hother
      rw [taken, taken']
      exact .ok ⟨chars, left, left'⟩

end

end Source

/-! ## Two cursors -/

namespace Cursor

/-- The cursors differ in their sources alone, of which the second goes on where the first reports the
fault. -/
def GoesOn (fault : Fault) (later : List Item) (next : List Char) (cur other : Cursor) : Prop :=
  ∃ source, other = { cur with source } ∧ Source.GoesOn fault later next cur.source source

namespace GoesOn

variable {fault : Fault} {later : List Item} {next : List Char} {cur other : Cursor}

theorem askPeek (h : cur.GoesOn fault later next other) :
    Reading.Mirrors fault (GoesOn fault later next) (ask Source.peek cur) (ask Source.peek other) := by
  obtain ⟨source, rfl, hsource⟩ := h
  have asked := hsource.peek
  unfold ask
  generalize cur.source.peek = result at asked ⊢
  generalize source.peek = result' at asked ⊢
  cases asked with
  | fault => exact .fault
  | ok goesOn => exact .ok ⟨_, rfl, goesOn⟩

theorem pending (h : cur.GoesOn fault later next other) : other.pending = cur.pending := by
  obtain ⟨source, rfl, -⟩ := h
  rfl

theorem peek (h : cur.GoesOn fault later next other) :
    Reading.Mirrors fault (GoesOn fault later next) cur.peek other.peek := by
  unfold Cursor.peek
  rw [h.pending]
  cases cur.pending with
  | nil => exact h.askPeek
  | cons c pending => exact .ok h

theorem fetch (h : cur.GoesOn fault later next other) :
    Reading.Mirrors fault (GoesOn fault later next) cur.fetch other.fetch := by
  obtain ⟨source, rfl, hsource⟩ := h
  have taken := hsource.read
  unfold Cursor.fetch
  generalize cur.source.read = result at taken ⊢
  generalize source.read = result' at taken ⊢
  cases taken with
  | fault => exact .fault
  | ok goesOn => exact .ok ⟨_, rfl, goesOn⟩

theorem peekSecond (h : cur.GoesOn fault later next other) :
    Reading.Mirrors fault (GoesOn fault later next) cur.peekSecond other.peekSecond := by
  have fetched := h.fetch
  unfold Cursor.peekSecond
  rw [h.pending]
  rcases cur.pending with _ | ⟨_, _ | ⟨c, pending⟩⟩
  · generalize cur.fetch = result at fetched ⊢
    generalize other.fetch = result' at fetched ⊢
    cases fetched with
    | fault => exact .fault
    | ok goesOn => exact goesOn.askPeek
  · exact h.askPeek
  · exact .ok h

theorem endsLine (c : Char) (h : cur.GoesOn fault later next other) :
    Reading.Mirrors fault (GoesOn fault later next) (cur.endsLine c) (other.endsLine c) := by
  unfold Cursor.endsLine
  split
  · exact .ok h
  · split
    · have seen := h.peekSecond
      generalize cur.peekSecond = result at seen ⊢
      generalize other.peekSecond = result' at seen ⊢
      cases seen with
      | fault => exact .fault
      | ok goesOn => exact .ok goesOn
    · exact .ok h

theorem drop (h : cur.GoesOn fault later next other) :
    Reading.Mirrors fault (GoesOn fault later next) cur.drop other.drop := by
  unfold Cursor.drop
  rw [h.pending]
  obtain ⟨source, rfl, hsource⟩ := h
  cases cur.pending with
  | nil =>
      have taken := hsource.read
      simp only
      generalize cur.source.read = result at taken ⊢
      generalize source.read = result' at taken ⊢
      cases taken with
      | fault => exact .fault
      | ok goesOn => exact .ok ⟨_, rfl, goesOn⟩
  | cons c pending => exact .ok ⟨source, rfl, hsource⟩

theorem advance (c : Char) (breaksLine : Bool) (h : cur.GoesOn fault later next other) :
    (cur.advance c breaksLine).GoesOn fault later next (other.advance c breaksLine) := by
  obtain ⟨source, rfl, hsource⟩ := h
  exact ⟨source, rfl, hsource⟩

/-- If reading has to look behind the character that it takes, it finds another one there or the fault.
So what it takes for the end of a line is one in every text that goes on. -/
theorem read (h : cur.GoesOn fault later next other) :
    Reading.Mirrors fault (GoesOn fault later next) cur.read other.read := by
  have seen := h.peek
  unfold Cursor.read
  generalize cur.peek = result at seen ⊢
  generalize other.peek = result' at seen ⊢
  cases seen with
  | fault => exact .fault
  | @ok found cur₁ other₁ goesOn =>
      cases found with
      | none => exact .ok goesOn
      | some c =>
          have ended := goesOn.endsLine c
          simp only
          generalize cur₁.endsLine c = result at ended ⊢
          generalize other₁.endsLine c = result' at ended ⊢
          cases ended with
          | fault => exact .fault
          | @ok breaksLine cur₂ other₂ goesOn =>
              have dropped := goesOn.drop
              simp only
              generalize cur₂.drop = result at dropped ⊢
              generalize other₂.drop = result' at dropped ⊢
              cases dropped with
              | fault => exact .fault
              | ok goesOn => exact .ok (goesOn.advance c breaksLine)

/-! ### Marks -/

theorem mark (h : cur.GoesOn fault later next other) :
    cur.mark.GoesOn fault later next other.mark := by
  obtain ⟨source, rfl, hsource⟩ := h
  exact ⟨source, rfl, hsource⟩

theorem marks (h : cur.GoesOn fault later next other) : other.marks = cur.marks := by
  obtain ⟨source, rfl, -⟩ := h
  rfl

theorem unmark (h : cur.GoesOn fault later next other) :
    cur.unmark.GoesOn fault later next other.unmark := by
  unfold Cursor.unmark
  rw [h.marks]
  rcases cur.marks with _ | ⟨m, _ | ⟨k, marks⟩⟩
  · exact h
  all_goals
    obtain ⟨source, rfl, hsource⟩ := h
    exact ⟨source, rfl, hsource⟩

theorem handBack (saved : Position) (h : cur.GoesOn fault later next other) :
    (cur.handBack saved).GoesOn fault later next (other.handBack saved) := by
  obtain ⟨source, rfl, hsource⟩ := h
  exact ⟨source, rfl, hsource⟩

theorem reset (h : cur.GoesOn fault later next other) :
    (cur.reset true).GoesOn fault later next (other.reset true) := by
  unfold Cursor.reset
  rw [h.marks]
  cases cur.marks with
  | nil => exact h
  | cons saved marks => exact (h.handBack saved).unmark

theorem captured (h : cur.GoesOn fault later next other) : other.captured = cur.captured := by
  obtain ⟨source, rfl, -⟩ := h
  rfl

theorem position (h : cur.GoesOn fault later next other) : other.position = cur.position := by
  obtain ⟨source, rfl, -⟩ := h
  rfl

/-- The first source has the characters behind the fault in place of those with which the second goes
on. -/
theorem size (h : cur.GoesOn fault later next other) :
    cur.size + next.length = other.size + (later.filterMap Item.char?).length := by
  obtain ⟨source, rfl, chars, hsource, hother⟩ := h
  have left : cur.source.chars = chars ++ later.filterMap Item.char? := by
    rw [← Source.filterMap_char?_undelivered, hsource, List.filterMap_append, Item.filterMap_char?_map]
    rfl
  have left' : source.chars = chars ++ next := by
    rw [← Source.filterMap_char?_undelivered, hother, Item.filterMap_char?_map]
  simp only [Cursor.size, rest, left, left', List.length_append]
  omega

end GoesOn

end Cursor

namespace Tracking

variable {text next : List Char} {fault : Fault} {later : List Item} {cur other : Cursor} {n : Nat}
  {saved : List Nat}

/-- A cursor over a source that reports the fault behind `text`, with the items `later` behind it,
tracks the text however it goes on. -/
def untilFault (text next : List Char) (fault : Fault) (later : List Item) :
    Tracking (text ++ next) where
  At cur n saved := ∃ other, cur.GoesOn fault later next other ∧
    other.Follows ⟨text ++ next, n, saved⟩ []
  Interrupted f _ _ _ := f = fault
  total := text.length + (later.filterMap Item.char?).length
  within := fun ⟨_, _, h⟩ => h.ordered.within
  size := fun {cur n saved} ⟨other, goesOn, h⟩ => by
    have left := (following (text ++ next) []).size (at_following_nil.mpr h)
    have differ := goesOn.size
    change other.size + n = (text ++ next).length at left
    rw [List.length_append] at left
    omega
  position := fun ⟨other, goesOn, h⟩ => goesOn.position ▸ h.position
  peek := fun {cur n saved} ⟨other, goesOn, h⟩ => by
    have seen := goesOn.peek
    have looked := (following (text ++ next) []).peek (at_following_nil.mpr h)
    generalize cur.peek = result at seen ⊢
    generalize other.peek = result' at seen looked
    cases seen with
    | fault => rfl
    | ok goesOn' => exact ⟨looked.1, _, goesOn', at_following_nil.mp looked.2⟩
  read := fun {cur n saved} ⟨other, goesOn, h⟩ => by
    have taken := goesOn.read
    have went := (following (text ++ next) []).read (at_following_nil.mpr h)
    generalize cur.read = result at taken ⊢
    generalize other.read = result' at taken went
    cases taken with
    | fault => rfl
    | @ok found _ _ goesOn' =>
        cases found with
        | none => exact ⟨went.1, _, goesOn', at_following_nil.mp went.2⟩
        | some c => exact ⟨went.1, _, goesOn', at_following_nil.mp went.2⟩
  mark := fun ⟨_, goesOn, h⟩ => ⟨_, goesOn.mark, h.mark⟩
  unmark := fun ⟨_, goesOn, h⟩ => ⟨_, goesOn.unmark, h.unmark⟩
  reset := fun ⟨_, goesOn, h⟩ => ⟨_, goesOn.reset, h.reset true⟩
  captured := fun ⟨_, goesOn, h⟩ =>
    goesOn.captured ▸ (following (text ++ next) []).captured (at_following_nil.mpr h)

end Tracking

end TextGrammar
