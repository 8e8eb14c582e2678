import Mathlib.Data.List.Permutation
import TextGrammar.Cursor.Close
import TextGrammar.Proofs.Cursor.Delivery
import TextGrammar.Proofs.Refinement.Parse

set_option autoImplicit false

/-! # What a run leaves in place

Whatever has been done with a cursor, and whatever faults its source has reported, the cursor follows a
reader of the characters that the source delivers. A run from such a state that comes to an outcome
closes every mark that it has opened and no other; one that ends in an error may leave marks open, but
only on top of those it has found. No run ends before the place where it began. -/

namespace TextGrammar

/-- The state that a run leaves, whether it comes to an outcome or ends in an error. -/
def Running.left {α : Type} : EStateM.Result ParseError Context α → Context
  | .ok _ ctx => ctx
  | .error _ ctx => ctx

/-! ## Releasing a source -/

namespace Source

/-- What a source has yet to deliver does not depend on whether it has been released. -/
@[simp] theorem chars_close (s : Source) : (Reading.left s.close).chars = s.chars := by
  induction s with
  | text s => rfl
  | items s => rfl
  | resource inner failure? closings ih =>
      unfold close
      cases closed : inner.close with
      | error f inner' =>
          rw [closed] at ih
          exact ih
      | ok _ inner' =>
          rw [closed] at ih
          cases failure? <;> exact ih

@[simp] theorem faults_close (s : Source) : (Reading.left s.close).faults = s.faults := by
  induction s with
  | text s => rfl
  | items s => rfl
  | resource inner failure? closings ih =>
      unfold close
      cases closed : inner.close with
      | error f inner' =>
          rw [closed] at ih
          exact ih
      | ok _ inner' =>
          rw [closed] at ih
          cases failure? <;> exact ih

end Source

/-! ## Reachable cursors -/

namespace Cursor

/-- A cursor over a source, after any operations and any runs of parsers, which may have ended in
faults or other errors, and whether or not the source has been released in between. -/
inductive Reachable (source : Source) : Cursor → Prop where
  | start : Reachable source (ofSource source)
  | perform {cur : Cursor} (h : Reachable source cur) (op : Operation) :
      Reachable source (cur.perform op).2
  | close {cur : Cursor} (h : Reachable source cur) : Reachable source (Reading.left cur.close)
  | parse {ρ : Type → Type} (g : Grammar ρ) {α : Type} (p : Parser ρ α) {ctx : Context}
      (h : Reachable source ctx.cursor) : Reachable source (Running.left (g.parse p ctx)).cursor

end Cursor

namespace Tracking

variable {text : List Char} {faults : List Fault} {cur : Cursor} {n : Nat} {saved : List Nat}

/-- A fault leaves the cursor following the reader. -/
theorem at_of_interrupted {f : Fault} (h : (following text faults).Interrupted f cur n saved) :
    (following text faults).At cur n saved := by
  obtain ⟨later, hlater, follows⟩ := h
  exact ⟨later, (List.suffix_cons f later).trans hlater, follows⟩

theorem at_left_of_yields {α : Type} {a : α} {m : Nat} {result : EStateM.Result Fault Cursor α}
    (h : (following text faults).Yields n saved a m result) :
    ∃ k, (following text faults).At (Reading.left result) k saved := by
  cases h with
  | ok here => exact ⟨_, here⟩
  | fault ahead interrupted => exact ⟨_, at_of_interrupted interrupted⟩

/-- Every operation leaves the cursor following a reader, whether it is answered or not. -/
theorem at_perform (h : (following text faults).At cur n saved) (op : Operation) :
    ∃ k kept, (following text faults).At (cur.perform op).2 k kept := by
  have answered {α : Type} {form : α → Answer} {a : α} {m : Nat}
      {result : EStateM.Result Fault Cursor α}
      (yields : (following text faults).Yields n saved a m result) :
      ∃ k kept, (following text faults).At (Cursor.answer form result).2 k kept := by
    obtain ⟨k, there⟩ := at_left_of_yields yields
    exact ⟨k, saved, by rw [Cursor.left_answer]; exact there⟩
  obtain ⟨later, hlater, follows⟩ := h
  have here : (following text faults).At cur n saved := ⟨later, hlater, follows⟩
  cases op with
  | peek => exact answered (yields_peek here)
  | isEof => exact answered (yields_isEof here)
  | read =>
      cases hfound : text[n]? with
      | none => exact answered (yields_read_end here hfound)
      | some c => exact answered (yields_read here hfound)
  | readLine => exact answered (yields_readLine here)
  | readToEnd => exact answered (yields_readToEnd here)
  | mark => exact ⟨_, _, later, hlater, follows.mark⟩
  | unmark => exact ⟨_, _, later, hlater, follows.unmark⟩
  | reset alsoUnmark =>
      cases alsoUnmark with
      | false => exact ⟨_, _, later, hlater, follows.reset false⟩
      | true => exact ⟨_, _, later, hlater, follows.reset true⟩
  | capture alsoUnmark =>
      cases alsoUnmark with
      | false => exact ⟨_, _, here⟩
      | true => exact ⟨_, _, later, hlater, follows.unmark⟩

theorem at_close (h : (following text faults).At cur n saved) :
    (following text faults).At (Reading.left cur.close) n saved := by
  obtain ⟨later, hlater, follows⟩ := h
  refine ⟨later, hlater, ?_⟩
  unfold Cursor.close
  split
  · exact follows
  · rw [Cursor.ask, Reading.left_embed]
    exact {
      ordered := follows.ordered
      rest := by
        rw [← follows.rest]
        exact congrArg (cur.pending ++ ·) cur.source.chars_close
      position := follows.position
      marks := follows.marks
      backup := follows.backup
      faults := cur.source.faults_close.trans follows.faults }

variable {skip : Option CharClass} {α : Type} {ctx : Context}

/-- A run leaves the cursor following a reader that has gone no way back and has saved all that was
saved before. -/
theorem at_left_of_agrees {result : EStateM.Result ParseError Context α}
    {expected : Except ErrorAt (α × Nat)}
    (h : (following text faults).Agrees skip n saved result expected) :
    ∃ m kept, n ≤ m ∧ saved <:+ kept ∧
      (following text faults).At (Running.left result).cursor m kept := by
  cases h with
  | ok ahead here => exact ⟨_, saved, ahead, List.suffix_refl saved, here.cursor⟩
  | error ahead more here => exact ⟨_, _, ahead, more, here.cursor⟩
  | fault ahead more interrupted => exact ⟨_, _, ahead, more, at_of_interrupted interrupted⟩

/-- A parser that comes to an outcome covers what it has read behind the characters to pass over, and
leaves the saved numbers as they were. -/
theorem span_of_framed {t : Tracking text} {body : Step α} {meaning : Meaning α} {name : String}
    {o : Outcome α} {ctx' : Context} (h : t.Simulates skip body meaning)
    (stands : t.Stands skip ctx n saved) (ran : Step.framed name body ctx = .ok o ctx') :
    ∃ k m, n ≤ k ∧ k ≤ m ∧ o.span = some ⟨.ofIndex text k, .ofIndex text m⟩ ∧
      t.Stands skip ctx' m saved := by
  have entered := agrees_enter name stands
  unfold Step.framed at ran
  generalize ctx.enter name = result at entered ran
  cases entered with
  | fault ahead more interrupted => cases ran
  | @ok _ inside k ahead here =>
      have went := h here
      simp only at ran
      generalize body inside = result at went ran
      generalize meaning ⟨text, skip⟩ _ = expected at went
      cases went with
      | fault later more interrupted => cases ran
      | error later more there => cases ran
      | @ok o after m later there =>
          cases ran
          exact ⟨_, m, ahead, later, by rw [← there.position]; rfl, there.cursor, there.skip⟩

end Tracking

/-- Every reachable cursor follows a reader of what the source delivers. -/
theorem Cursor.Reachable.at_following {source : Source} {cur : Cursor} (h : cur.Reachable source) :
    ∃ n saved, (Tracking.following source.chars source.faults).At cur n saved := by
  induction h with
  | start => exact ⟨0, [], source.faults, List.suffix_refl _, .ofSource source⟩
  | perform _ op ih =>
      obtain ⟨n, saved, here⟩ := ih
      exact Tracking.at_perform here op
  | close _ ih =>
      obtain ⟨n, saved, here⟩ := ih
      exact ⟨n, saved, Tracking.at_close here⟩
  | parse g p _ ih =>
      obtain ⟨n, saved, here⟩ := ih
      have agrees := Tracking.simulates_parse g p rfl ⟨here, rfl⟩
      obtain ⟨m, kept, -, -, there⟩ := Tracking.at_left_of_agrees agrees
      exact ⟨m, kept, there⟩

/-- Over a source without faults, every reachable cursor follows a reader of what the source delivers,
at the index of its position. -/
theorem Cursor.Reachable.follows {source : Source} {cur : Cursor} (h : cur.Reachable source)
    (faultless : source.faults = []) :
    ∃ saved, cur.Follows ⟨source.chars, cur.position.index, saved⟩ [] := by
  obtain ⟨n, saved, here⟩ := h.at_following
  rw [faultless] at here
  have follows := Tracking.at_following_nil.mp here
  have index : cur.position.index = n := follows.index_position
  exact ⟨saved, index ▸ follows⟩

theorem Cursor.Reachable.performAll {source : Source} {cur : Cursor} (h : cur.Reachable source)
    (ops : List Operation) : (cur.performAll ops).2.Reachable source := by
  induction ops generalizing cur with
  | nil => exact h
  | cons op ops ih => exact ih (h.perform op)

namespace Grammar

variable {ρ : Type → Type} (g : Grammar ρ) {α : Type} (p : Parser ρ α)

/-- From every state in which the cursor can be, over any source, a run that comes to an outcome leaves
the marks as they were, and the outcome covers a stretch that begins no earlier than the run and ends
where the cursor is. A run that ends in an error leaves the marks under those that it has made, the
innermost of which come first, and the cursor no further back. -/
theorem parse_frames {source : Source} {ctx : Context} (h : ctx.cursor.Reachable source) :
    match g.parse p ctx with
    | .ok o ctx' =>
      ctx'.cursor.marks = ctx.cursor.marks ∧
        ∃ start, o.span = some ⟨start, ctx'.position⟩ ∧
          ctx.position.index ≤ start.index ∧ start.index ≤ ctx'.position.index
    | .error _ ctx' =>
      ctx.cursor.marks <:+ ctx'.cursor.marks ∧ ctx.position.index ≤ ctx'.position.index := by
  obtain ⟨n, saved, here⟩ := h.at_following
  obtain ⟨later, hlater, follows⟩ := here
  have stands : (Tracking.following source.chars source.faults).Stands ctx.skip ctx n saved :=
    ⟨⟨later, hlater, follows⟩, rfl⟩
  have index : ctx.position.index = n := follows.index_position
  cases ran : g.parse p ctx with
  | error e ctx' =>
      have agrees := Tracking.simulates_parse g p rfl stands
      rw [ran] at agrees
      obtain ⟨m, kept, ahead, more, _, _, follows'⟩ := Tracking.at_left_of_agrees agrees
      replace follows' : ctx'.cursor.Follows ⟨source.chars, m, kept⟩ _ := follows'
      have index' : ctx'.position.index = m := follows'.index_position
      refine ⟨?_, by rw [index, index']; exact ahead⟩
      rw [follows.marks, follows'.marks]
      exact more.map _
  | ok o ctx' =>
      have body : (Tracking.following source.chars source.faults).Simulates ctx.skip
          (p.body (g.call (g.depthBound ctx))) (p.bodyMeaning (g.callMeaning (g.depthBound ctx))) :=
        Tracking.simulates_body (fun r => Tracking.simulates_call g _ r) p
      obtain ⟨k, m, behind, ahead, covers, there⟩ := Tracking.span_of_framed body stands ran
      obtain ⟨_, _, follows'⟩ := there.cursor
      have index' : ctx'.position.index = m := follows'.index_position
      have marks : ctx'.cursor.marks = ctx.cursor.marks := follows'.marks.trans follows.marks.symm
      refine ⟨marks, .ofIndex source.chars k, ?_, ?_, ?_⟩
      · rw [covers, there.position]
      · rw [index, Position.index_ofIndex (Nat.le_trans ahead follows'.ordered.within)]
        exact behind
      · rw [index', Position.index_ofIndex (Nat.le_trans ahead follows'.ordered.within)]
        exact ahead

/-- A choice in which the source fails, over a cursor with a mark. The mark of the choice stays open on
top of it. -/
theorem parse_frames_fault :
    let broken : Fault := ⟨.other, "broken"⟩
    let source := Source.ofItems [.char 'x', .char 'a', .fault broken, .char 'b']
    let cur := (((Cursor.ofSource source).perform .read).2.perform .mark).2
    let p := Parser.or (.andThen (.exact 'a') (.exact 'b')) (.exact 'a')
    cur.Reachable source ∧ ∃ ctx', withoutRules.parse p (.ofCursor cur none false) =
        .error (.source broken) ctx' ∧
      ctx'.cursor.marks = ⟨1, 2, 1⟩ :: cur.marks ∧
      cur.marks <:+ ctx'.cursor.marks ∧ cur.position.index ≤ ctx'.position.index := by
  intro broken source cur p
  have first : ((Cursor.ofSource source).perform .read).2.Reachable source := .perform .start .read
  have reachable : (Context.ofCursor cur none false).cursor.Reachable source := .perform first .mark
  have ran : withoutRules.parse p (.ofCursor cur none false) = .error (.source broken)
      ⟨⟨.items ⟨[.char 'b'], .unknown⟩, [], ⟨1, 3, 2⟩, [⟨1, 2, 1⟩, ⟨1, 2, 1⟩], ['a'], false⟩,
        none, none, 0⟩ := by
    cbv
  clear_value p
  have frames := parse_frames withoutRules p reachable
  rw [ran] at frames
  have one : cur.marks = [⟨1, 2, 1⟩] := by cbv
  exact ⟨reachable, _, ran, one ▸ rfl, frames⟩

end Grammar

end TextGrammar
