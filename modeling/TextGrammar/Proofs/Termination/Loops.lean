import TextGrammar.Proofs.Refinement.Frame

set_option autoImplicit false

/-! # Loops that end

An open repetition goes on as long as its last round has moved the cursor, up to as many rounds as a word
can count, and a search as long as there is a character to pass. Both are described here by the rounds
that they make, however many these are: `Drives` and `Searches` relate a loop to its result by one step
for each round, and a loop that never ends is related to none. Over a source, which is finite, an item
that never moves the cursor back lets the loop end after as many rounds as there are characters left, and
one. -/

namespace TextGrammar

/-! ## Where a cursor is -/

namespace Cursor

/-- The cursor is at a place of the text that the source delivers, and so are its marks. This is so of
every reachable cursor. -/
def Over (source : Source) (cur : Cursor) : Prop :=
  ∃ n saved, (Tracking.following source.chars source.faults).At cur n saved

theorem Over.of_reachable {source : Source} {cur : Cursor} (h : cur.Reachable source) :
    cur.Over source :=
  h.at_following

@[simp] theorem position_unmark (cur : Cursor) : cur.unmark.position = cur.position := by
  unfold unmark
  split <;> rfl

theorem index_of_at {text : List Char} {t : Tracking text} {cur : Cursor} {n : Nat}
    {saved : List Nat} (h : t.At cur n saved) : cur.position.index = n := by
  rw [t.position h, Position.index_ofIndex (t.within h)]

namespace Over

variable {source : Source} {cur cur' : Cursor}

theorem perform (h : cur.Over source) (op : Operation) : (cur.perform op).2.Over source := by
  obtain ⟨n, saved, here⟩ := h
  exact Tracking.at_perform here op

/-- The position tells which place it is, and how many characters are left. -/
theorem position_eq_and_size (h : cur.Over source) :
    cur.position = .ofIndex source.chars cur.position.index ∧
      cur.size + cur.position.index = source.chars.length := by
  obtain ⟨n, saved, here⟩ := h
  rw [index_of_at here]
  exact ⟨Tracking.position _ here, Tracking.size _ here⟩

/-- No mark is further ahead than the innermost one. -/
theorem index_le_of_mem_marks (h : cur.Over source) {p innermost : Position}
    {others : List Position} (marks : cur.marks = innermost :: others) (hp : p ∈ cur.marks) :
    p.index ≤ innermost.index := by
  obtain ⟨n, saved, later, -, follows⟩ := h
  have ordered := (List.pairwise_cons.mp follows.ordered.descending).2
  have within (m : Nat) (hm : m ∈ saved) : m ≤ source.chars.length :=
    follows.ordered.saved_le_length hm
  rw [follows.marks] at hp marks
  obtain ⟨m, hm, rfl⟩ := List.mem_map.mp hp
  cases saved with
  | nil => cases hm
  | cons k saved =>
      obtain ⟨rfl, -⟩ := List.cons.inj marks
      rw [Position.index_ofIndex (within m hm), Position.index_ofIndex (within k List.mem_cons_self)]
      rcases List.mem_cons.mp hm with rfl | hm
      · exact Nat.le_refl _
      · exact (List.pairwise_cons.mp ordered).1 m hm

/-- A cursor that is not further back is at the same place or has fewer characters left. -/
theorem size_lt (h : cur.Over source) (h' : cur'.Over source)
    (onward : cur.position.index ≤ cur'.position.index) (moved : cur'.position ≠ cur.position) :
    cur'.size < cur.size := by
  have here := h.position_eq_and_size
  have there := h'.position_eq_and_size
  have ahead : cur.position.index ≠ cur'.position.index := by
    intro same
    refine moved ?_
    rw [there.1, here.1, same]
  omega

end Over

end Cursor

/-! ## Parts that go onward -/

namespace Running

variable {α : Type}

/-- Over a source, the part never comes to anything further back than where it began. -/
def Onward (source : Source) (part : Running α) : Prop :=
  ∀ ⦃ctx a ctx'⦄, ctx.cursor.Over source → part ctx = .ok a ctx' →
    ctx'.cursor.Over source ∧ ctx.position.index ≤ ctx'.position.index

/-- Over a source, whatever the part comes to, it has taken away no mark but its own. -/
def KeepsMarks (source : Source) (part : Running α) : Prop :=
  ∀ ⦃ctx a ctx'⦄, ctx.cursor.Over source → part ctx = .ok a ctx' →
    ctx'.cursor.Over source ∧ ctx.cursor.marks <:+ ctx'.cursor.marks

end Running

namespace Step

variable {α β : Type} {source : Source}

/-! ## Repetition -/

section

variable (separator : Option (Step Unit)) (item : Step α) (add : β → α → β)

/-- How often a round runs its item: once, unless the separator ends the round. -/
def itemRuns (tally : Tally β) (ctx : Context) : Nat :=
  match separate separator tally ctx with
  | .ok (.done _) _ => 1
  | _ => 0

/-- A repetition without an upper bound, of which `n` more rounds are required and `k` more can be
counted behind these, runs its item `runs` times and comes to the result. Behind the required rounds it
goes on until a round fails or ends where it began, or no more can be counted. -/
inductive Drives : (n k : Nat) → Tally β → Context → (runs : Nat) →
    EStateM.Result ParseError Context (Outcome β) → Prop where
  | requiredError {n k tally ctx e ctx'} (h : round separator item add tally ctx = .error e ctx') :
      Drives (n + 1) k tally ctx (itemRuns separator tally ctx) (.error e ctx')
  | requiredMissed {n k tally ctx message backtrack tally' ctx'}
      (h : round separator item add tally ctx = .ok (.missed message backtrack tally') ctx') :
      Drives (n + 1) k tally ctx (itemRuns separator tally ctx)
        (.ok ⟨.error message, backtrack, none⟩ ctx')
  | required {n k tally ctx tally' ctx' runs result}
      (h : round separator item add tally ctx = .ok (.done tally') ctx')
      (rest : Drives n k tally' ctx' runs result) :
      Drives (n + 1) k tally ctx (itemRuns separator tally ctx + runs) result
  | counted {tally ctx} : Drives 0 0 tally ctx 0 (.ok ⟨.ok tally.state, tally.backtrack, none⟩ ctx)
  | error {k tally ctx e ctx'} (h : optionalRound separator item add tally ctx = .error e ctx') :
      Drives 0 (k + 1) tally ctx (itemRuns separator tally (ctx.onCursor Cursor.mark)) (.error e ctx')
  | missed {k tally ctx message backtrack tally' ctx'}
      (h : optionalRound separator item add tally ctx = .ok (.missed message backtrack tally') ctx') :
      Drives 0 (k + 1) tally ctx (itemRuns separator tally (ctx.onCursor Cursor.mark))
        (.ok ⟨.ok tally'.state, tally'.backtrack, none⟩ ctx')
  | still {k tally ctx tally' ctx'}
      (h : optionalRound separator item add tally ctx = .ok (.done tally') ctx')
      (same : ctx'.position = ctx.position) :
      Drives 0 (k + 1) tally ctx (itemRuns separator tally (ctx.onCursor Cursor.mark))
        (.ok ⟨.ok tally'.state, tally'.backtrack, none⟩ ctx')
  | further {k tally ctx tally' ctx' runs result}
      (h : optionalRound separator item add tally ctx = .ok (.done tally') ctx')
      (moved : ctx'.position ≠ ctx.position) (rest : Drives 0 k tally' ctx' runs result) :
      Drives 0 (k + 1) tally ctx (itemRuns separator tally (ctx.onCursor Cursor.mark) + runs) result

variable {separator item add}

theorem itemRuns_le_one (tally : Tally β) (ctx : Context) : itemRuns separator tally ctx ≤ 1 := by
  unfold itemRuns
  split
  · exact Nat.le_refl 1
  · exact Nat.zero_le 1

/-- A repetition comes to one result, after one number of runs. -/
theorem Drives.unique {n k : Nat} {tally : Tally β} {ctx : Context} {runs runs' : Nat}
    {result result' : EStateM.Result ParseError Context (Outcome β)}
    (h : Drives separator item add n k tally ctx runs result)
    (h' : Drives separator item add n k tally ctx runs' result') : runs = runs' ∧ result = result' := by
  induction h generalizing runs' result' with
  | requiredError ran => cases h' <;> simp_all
  | requiredMissed ran => cases h' <;> simp_all
  | required ran rest ih =>
      cases h' with
      | requiredError ran' => simp_all
      | requiredMissed ran' => simp_all
      | required ran' rest' =>
          cases ran.symm.trans ran'
          obtain ⟨rfl, rfl⟩ := ih rest'
          exact ⟨rfl, rfl⟩
  | counted =>
      cases h'
      exact ⟨rfl, rfl⟩
  | error ran => cases h' <;> simp_all
  | missed ran => cases h' <;> simp_all
  | still ran same => cases h' <;> simp_all
  | further ran moved rest ih =>
      cases h' with
      | error ran' => simp_all
      | missed ran' => simp_all
      | still ran' same' => simp_all
      | further ran' moved' rest' =>
          cases ran.symm.trans ran'
          obtain ⟨rfl, rfl⟩ := ih rest'
          exact ⟨rfl, rfl⟩

/-! ### Rounds go onward -/

theorem onward_separate (hseparator : ∀ s ∈ separator, Running.Onward source s) (tally : Tally β) :
    Running.Onward source (separate separator tally) := by
  intro ctx round ctx' here ran
  obtain ⟨state, fresh, backtrack⟩ := tally
  cases separator with
  | none =>
      cases ran
      exact ⟨here, Nat.le_refl _⟩
  | some s =>
      cases fresh with
      | true =>
          cases ran
          exact ⟨here, Nat.le_refl _⟩
      | false =>
          unfold separate at ran
          simp only at ran
          cases separated : s ctx with
          | error e after =>
              rw [separated] at ran
              cases ran
          | ok o after =>
              have onward := hseparator s rfl here separated
              rw [separated] at ran
              cases status : o.status <;> simp only [status] at ran <;> cases ran <;> exact onward

theorem onward_round (hseparator : ∀ s ∈ separator, Running.Onward source s)
    (hitem : Running.Onward source item) (tally : Tally β) :
    Running.Onward source (round separator item add tally) := by
  intro ctx round ctx' here ran
  unfold Step.round at ran
  cases separated : separate separator tally ctx with
  | error e between =>
      rw [separated] at ran
      cases ran
  | ok before between =>
      obtain ⟨there, onward⟩ := onward_separate hseparator tally here separated
      rw [separated] at ran
      cases before with
      | missed message backtrack tally =>
          cases ran
          exact ⟨there, onward⟩
      | done tally =>
          simp only at ran
          cases went : item between with
          | error e after =>
              rw [went] at ran
              cases ran
          | ok o after =>
              obtain ⟨further, still_onward⟩ := hitem there went
              have all : ctx.position.index ≤ after.position.index :=
                Nat.le_trans onward still_onward
              rw [went] at ran
              cases status : o.status <;> simp only [status] at ran <;> cases ran <;>
                exact ⟨further, all⟩

/-- A round that was not taken back ends where its item has ended. -/
theorem onward_of_optionalRound_done (hseparator : ∀ s ∈ separator, Running.Onward source s)
    (hitem : Running.Onward source item) {tally tally' : Tally β} {ctx ctx' : Context}
    (here : ctx.cursor.Over source)
    (ran : optionalRound separator item add tally ctx = .ok (.done tally') ctx') :
    ctx'.cursor.Over source ∧ ctx.position.index ≤ ctx'.position.index := by
  unfold optionalRound at ran
  cases went : Step.round separator item add tally (ctx.onCursor Cursor.mark) with
  | error e after =>
      rw [went] at ran
      cases ran
  | ok round after =>
      have marked : (ctx.onCursor Cursor.mark).cursor.Over source := here.perform .mark
      obtain ⟨there, onward⟩ := onward_round hseparator hitem tally marked went
      rw [went] at ran
      cases round with
      | missed message backtrack tally => cases ran
      | done tally =>
          cases ran
          have unmarked : after.cursor.unmark.Over source := there.perform .unmark
          refine ⟨unmarked, ?_⟩
          show ctx.position.index ≤ after.cursor.unmark.position.index
          rw [Cursor.position_unmark]
          exact onward

/-! ### The end of a repetition -/

/-- An open repetition comes to the same by its rounds, of which there is one for each character left
at most, and one more: only a round that moves the cursor is followed by another. The induction is on how
many can be counted. -/
theorem exists_drives_upTo (hseparator : ∀ s ∈ separator, Running.Onward source s)
    (hitem : Running.Onward source item) (k : Nat) (tally : Tally β) {ctx : Context}
    (here : ctx.cursor.Over source) :
    ∃ runs ≤ ctx.size + 1, Drives separator item add 0 k tally ctx runs
      (match upTo true separator item add k tally ctx with
        | .error e ctx => .error e ctx
        | .ok tally ctx => .ok ⟨.ok tally.state, tally.backtrack, none⟩ ctx) := by
  induction k generalizing ctx tally with
  | zero => exact ⟨0, Nat.zero_le _, .counted⟩
  | succ k ih =>
      have one : itemRuns separator tally (ctx.onCursor Cursor.mark) ≤ 1 := itemRuns_le_one _ _
      unfold upTo
      cases ran : optionalRound separator item add tally ctx with
      | error e after => exact ⟨_, by omega, .error ran⟩
      | ok round next =>
          cases round with
          | missed message backtrack tally => exact ⟨_, by omega, .missed ran⟩
          | done tally =>
              obtain ⟨there, onward⟩ := onward_of_optionalRound_done hseparator hitem here ran
              by_cases same : next.position = ctx.position
              · simp only [same, and_self, if_true]
                exact ⟨_, by omega, .still ran same⟩
              · have fewer : next.size < ctx.size := here.size_lt there onward same
                obtain ⟨runs, few, drives⟩ := ih tally there
                simp only [same, and_false, if_false]
                exact ⟨_, by omega, .further ran same drives⟩

variable (source separator item add) in
/-- Over a source, a repetition comes to its result by its rounds. Their
item runs no more often than is required, and if all required rounds succeed, no more often beyond that
than there are characters left behind them, and once more. -/
def RepetitionEnds (bounds : Repeat) (start : β) : Prop :=
  ∀ ctx : Context, ctx.cursor.Over source →
    ∃ runs, Drives separator item add bounds.min.toNat bounds.room (.start start) ctx runs
        (repeated bounds separator item add start ctx) ∧
      match required separator item add bounds.min.toNat (.start start) ctx with
      | .ok (.done _) first => runs ≤ bounds.min.toNat + first.size + 1
      | _ => runs ≤ bounds.min.toNat

/-- An open repetition ends if neither its item nor its separator goes back. -/
theorem repetition_ends {bounds : Repeat} (unbounded : bounds.max = Repeat.unbounded)
    (hseparator : ∀ s ∈ separator, Running.Onward source s) (hitem : Running.Onward source item)
    (start : β) : RepetitionEnds source separator item add bounds start := by
  intro ctx here
  unfold repeated
  rw [Repeat.isOpen_iff.mpr unbounded]
  generalize Tally.start start = tally
  induction bounds.min.toNat generalizing tally ctx with
  | zero =>
      obtain ⟨runs, few, drives⟩ := exists_drives_upTo hseparator hitem bounds.room tally here
      exact ⟨runs, drives, by simpa [required] using few⟩
  | succ n ih =>
      have one : itemRuns separator tally ctx ≤ 1 := itemRuns_le_one _ _
      unfold required
      cases ran : Step.round separator item add tally ctx with
      | error e after => exact ⟨_, .requiredError ran, by simp only; omega⟩
      | ok round after =>
          cases round with
          | missed message backtrack tally => exact ⟨_, .requiredMissed ran, by simp only; omega⟩
          | done tally =>
              have there := (onward_round hseparator hitem _ here ran).1
              obtain ⟨runs, drives, few⟩ := ih after there tally
              refine ⟨_, .required ran drives, ?_⟩
              simp only
              generalize required separator item add n tally after = result at few ⊢
              rcases result with ⟨_ | _, first⟩ | _
              · replace few : runs ≤ n + first.size + 1 := few
                simp only
                omega
              · replace few : runs ≤ n := few
                simp only
                omega
              · replace few : runs ≤ n := few
                simp only
                omega

end

/-! ## Searching -/

/-- A search tries its target `tries` times and comes to the result. It goes on until an attempt
succeeds or there is no character to pass. -/
inductive Searches (target : Step α) : Context → (tries : Nat) →
    EStateM.Result ParseError Context (Outcome α) → Prop where
  | error {ctx e ctx'} (h : attempt target ctx = .error e ctx') : Searches target ctx 1 (.error e ctx')
  | found {ctx o ctx'} (h : attempt target ctx = .ok (some o) ctx') :
      Searches target ctx 1 (.ok o ctx')
  | fault {ctx back e ctx'} (h : attempt target ctx = .ok none back)
      (ran : Context.reading Cursor.read back = .error e ctx') : Searches target ctx 1 (.error e ctx')
  | atEnd {ctx back ctx'} (h : attempt target ctx = .ok none back)
      (ran : Context.reading Cursor.read back = .ok none ctx') :
      Searches target ctx 1 (.ok (.failure tokenNotFound) ctx')
  | further {ctx back c ctx' tries result} (h : attempt target ctx = .ok none back)
      (ran : Context.reading Cursor.read back = .ok (some c) ctx')
      (rest : Searches target ctx' tries result) : Searches target ctx (tries + 1) result

section

variable {target : Step α}

/-- A search comes to one result, after one number of tries. -/
theorem Searches.unique {ctx : Context} {tries tries' : Nat}
    {result result' : EStateM.Result ParseError Context (Outcome α)}
    (h : Searches target ctx tries result) (h' : Searches target ctx tries' result') :
    tries = tries' ∧ result = result' := by
  induction h generalizing tries' result' with
  | error ran => cases h' <;> simp_all
  | found ran => cases h' <;> simp_all
  | fault ran read => cases h' <;> simp_all
  | atEnd ran read => cases h' <;> simp_all
  | further ran read rest ih =>
      cases h' with
      | error ran' => simp_all
      | found ran' => simp_all
      | fault ran' read' => simp_all
      | atEnd ran' read' => simp_all
      | further ran' read' rest' =>
          cases ran.symm.trans ran'
          cases read.symm.trans read'
          obtain ⟨rfl, rfl⟩ := ih rest'
          exact ⟨rfl, rfl⟩

/-- An attempt that came to nothing is back where it began, or at a mark that was made behind that. -/
theorem onward_of_attempt_none (htarget : Running.KeepsMarks source target) {ctx back : Context}
    (here : ctx.cursor.Over source) (ran : attempt target ctx = .ok none back) :
    back.cursor.Over source ∧ ctx.position.index ≤ back.position.index := by
  unfold attempt at ran
  cases went : target (ctx.onCursor Cursor.mark) with
  | error e after =>
      rw [went] at ran
      cases ran
  | ok o after =>
      have marked : (ctx.onCursor Cursor.mark).cursor.Over source := here.perform .mark
      obtain ⟨there, kept⟩ := htarget marked went
      rw [went] at ran
      simp only at ran
      split at ran <;> cases ran
      have reset : (after.cursor.reset true).Over source := there.perform (.reset true)
      refine ⟨reset, ?_⟩
      -- the mark of the attempt is among those that are left, and the innermost of these is no older
      have made : ctx.position ∈ after.cursor.marks := kept.subset List.mem_cons_self
      cases marks : after.cursor.marks with
      | nil => simp [marks] at made
      | cons innermost others =>
          have older := there.index_le_of_mem_marks marks made
          show ctx.position.index ≤ (after.cursor.reset true).position.index
          simpa [Cursor.reset, marks, Cursor.handBack] using older

theorem over_of_reading {ctx ctx' : Context} {found : Option Char}
    (here : ctx.cursor.Over source)
    (ran : Context.reading Cursor.read ctx = .ok found ctx') : ctx'.cursor.Over source := by
  have performed : (ctx.cursor.perform .read).2.Over source := here.perform .read
  rw [Cursor.perform, Cursor.left_answer] at performed
  unfold Context.reading at ran
  cases went : Cursor.read ctx.cursor with
  | error f cursor =>
      rw [went] at ran
      cases ran
  | ok found cursor =>
      rw [went] at ran performed
      cases ran
      exact performed

theorem size_lt_of_reading {ctx ctx' : Context} {c : Char}
    (ran : Context.reading Cursor.read ctx = .ok (some c) ctx') : ctx'.size < ctx.size := by
  unfold Context.reading at ran
  cases went : Cursor.read ctx.cursor with
  | error f cursor =>
      rw [went] at ran
      cases ran
  | ok found cursor =>
      rw [went] at ran
      cases ran
      exact Cursor.size_of_read went

variable (source target) in
/-- Over a source, a search comes to its result by its tries, of which
there is one for each character left at most, and one more. -/
def SearchEnds : Prop :=
  ∀ ctx : Context, ctx.cursor.Over source →
    ∃ tries ≤ ctx.size + 1, Searches target ctx tries (skipTo target ctx)

/-- A search ends if its target takes away no mark but its own. The induction is on the number of
characters left: between two tries one is read. -/
theorem search_ends (htarget : Running.KeepsMarks source target) : SearchEnds source target := by
  intro ctx here
  induction hsize : ctx.size using Nat.strongRecOn generalizing ctx with
  | ind size ih =>
      rw [skipTo]
      cases ran : attempt target ctx with
      | error e after => exact ⟨1, by omega, .error ran⟩
      | ok found back =>
          cases found with
          | some o => exact ⟨1, by omega, .found ran⟩
          | none =>
              obtain ⟨there, onward⟩ := onward_of_attempt_none htarget here ran
              simp only
              cases read : Context.reading Cursor.read back with
              | error e after => exact ⟨1, by omega, .fault ran read⟩
              | ok c next =>
                  cases c with
                  | none => exact ⟨1, by omega, .atEnd ran read⟩
                  | some c =>
                      have fewer : next.size < ctx.size := by
                        have before := here.position_eq_and_size.2
                        have after := there.position_eq_and_size.2
                        have less := size_lt_of_reading read
                        unfold Context.position at onward
                        unfold Context.size at less ⊢
                        omega
                      have still : next.cursor.Over source := over_of_reading there read
                      obtain ⟨tries, few, searches⟩ := ih _ (hsize ▸ fewer) next still rfl
                      simp only [if_pos fewer]
                      exact ⟨_, by omega, .further ran read searches⟩

end

end Step

end TextGrammar
