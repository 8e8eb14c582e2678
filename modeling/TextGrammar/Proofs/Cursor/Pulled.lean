import TextGrammar.Proofs.Refinement.Frame

set_option autoImplicit false

/-! # How much is taken from the source

A cursor takes no character from its source before it has to. However often it goes back and reads
again, the source has given no more than one character beyond the furthest place that the cursor has
been at: the one that was looked at to tell whether the input or a line ends. The characters that were
handed back wait in the cursor, and the source stands behind all of them. -/

namespace TextGrammar

/-! ## The character that a source holds ready -/

/-- The number of characters that were taken from the list to be looked at. -/
def ItemSource.lookahead (s : ItemSource) : Nat :=
  match s.ahead with
  | .char _ => 1
  | _ => 0

namespace Source

/-- The number of characters that were looked at and are still to be delivered. A text does not know
whether its next character was looked at, so it counts as such. -/
def lookahead : Source → Nat
  | .text s => min 1 s.chars.length
  | .items s => s.lookahead
  | .resource inner _ _ => inner.lookahead

theorem lookahead_le (s : Source) : s.lookahead ≤ 1 := by
  induction s with
  | text s => exact Nat.min_le_left _ _
  | items s =>
      simp only [lookahead, ItemSource.lookahead]
      split <;> omega
  | resource inner failure? closings ih => exact ih

/-- Where a fault is found instead of a character, none is held ready. -/
theorem lookahead_of_peek_error {s s' : Source} {f : Fault} (h : s.peek = .error f s') :
    s'.lookahead = 0 := by
  induction s generalizing s' with
  | text s => cases h
  | items s =>
      obtain ⟨items, ahead⟩ := s
      rcases ahead with _ | _ | _ <;> rcases items with _ | ⟨_ | _, rest⟩ <;> cases h
      rfl
  | resource inner failure? closings ih =>
      unfold peek at h
      cases seen : peek inner with
      | ok c t => rw [seen] at h; cases h
      | error g t => rw [seen] at h; cases h; exact @ih t seen

/-- The number of characters that a source has given up to a later state of it: those delivered since,
and the one that is held ready. -/
def takenUpTo (source later : Source) : Nat :=
  source.chars.length - later.chars.length + later.lookahead

@[simp] theorem lookahead_close (s : Source) : (Reading.left s.close).lookahead = s.lookahead := by
  induction s with
  | text s => rfl
  | items s => rfl
  | resource inner failure? closings ih =>
      unfold close
      cases closed : inner.close with
      | error f inner' =>
          rw [closed] at ih
          exact ih
      | ok _ inner' =>
          rw [closed] at ih
          cases failure? <;> exact ih

end Source

namespace Cursor

variable {cur cur' : Cursor} {furthest : Nat}

/-- The cursor has been at the index `furthest` and not further. All characters before that index have
come out of the source, and of the others one at most has. -/
structure Pulled (cur : Cursor) (furthest : Nat) : Prop where
  behind : cur.position.index ≤ furthest
  waiting : furthest ≤ cur.position.index + cur.pending.length
  ahead : cur.position.index + cur.pending.length + cur.source.lookahead ≤ furthest + 1

/-- The same when the next character is about to be read: it does not count as ahead any more. -/
structure Ready (cur : Cursor) (furthest : Nat) : Prop where
  behind : cur.position.index ≤ furthest
  waiting : furthest ≤ cur.position.index + cur.pending.length
  ahead : cur.position.index + cur.pending.length + cur.source.lookahead ≤
    max furthest (cur.position.index + 1) + 1

theorem Pulled.ready (h : cur.Pulled furthest) : cur.Ready furthest :=
  ⟨h.behind, h.waiting, Nat.le_trans h.ahead (by omega)⟩

/-! ## One character -/

theorem pulled_askPeek (behind : cur.position.index ≤ furthest)
    (waiting : furthest ≤ cur.position.index + cur.pending.length) (empty : cur.pending = []) :
    (Reading.left (ask Source.peek cur)).Pulled furthest := by
  have held := (Reading.left cur.source.peek).lookahead_le
  rw [ask, Reading.left_embed]
  refine ⟨behind, waiting, ?_⟩
  simp only [empty, List.length_nil]
  omega

theorem pulled_peek (h : cur.Pulled furthest) : (Reading.left cur.peek).Pulled furthest := by
  unfold peek
  split
  · exact h
  · rename_i empty
    exact pulled_askPeek h.behind h.waiting empty

/-- What a reading of a second character leaves: the next one can be read, or the cursor stays. -/
def Prepares {α : Type} (furthest : Nat) : EStateM.Result Fault Cursor α → Prop
  | .ok _ cur => cur.Ready furthest
  | .error _ cur => cur.Pulled furthest

/-- With no more than one character in the cursor, the one behind it may be looked at. -/
theorem prepares_askPeek (behind : cur.position.index ≤ furthest)
    (waiting : furthest ≤ cur.position.index + cur.pending.length)
    (near : cur.position.index + cur.pending.length ≤ furthest + 1)
    (short : cur.pending.length ≤ 1) : Prepares furthest (ask Source.peek cur) := by
  have held := (Reading.left cur.source.peek).lookahead_le
  unfold ask
  cases seen : cur.source.peek with
  | ok found source =>
      rw [seen] at held
      refine ⟨behind, waiting, ?_⟩
      simp only [Reading.left_ok] at held ⊢
      omega
  | error f source =>
      have none := Source.lookahead_of_peek_error seen
      refine ⟨behind, waiting, ?_⟩
      simp only [none]
      omega

theorem prepares_peekSecond (h : cur.Pulled furthest) : Prepares furthest (peekSecond cur) := by
  have near : cur.position.index + cur.pending.length ≤ furthest + 1 :=
    Nat.le_trans (Nat.le_add_right _ _) h.ahead
  unfold peekSecond
  split
  · exact h.ready
  · rename_i one
    exact prepares_askPeek h.behind h.waiting near (by simp [one])
  · rename_i empty
    have behind := h.behind
    have waiting := h.waiting
    rw [empty, List.length_nil] at waiting
    unfold fetch
    cases taken : cur.source.read with
    | ok found source =>
        have one : found.toList.length ≤ 1 := by cases found <;> simp
        exact prepares_askPeek behind (Nat.le_trans waiting (Nat.le_add_right _ _)) (by simp; omega) one
    | error f source =>
        have held := source.lookahead_le
        refine ⟨behind, h.waiting, ?_⟩
        simp only [empty, List.length_nil]
        omega

theorem prepares_endsLine (c : Char) (h : cur.Pulled furthest) :
    Prepares furthest (endsLine c cur) := by
  unfold endsLine
  split
  · exact h.ready
  · split
    · have seen := prepares_peekSecond h
      split <;> rename_i same <;> rw [same] at seen <;> exact seen
    · exact h.ready

/-- A character that is ready is read from where it waits, or from the source. -/
theorem pulled_drop (h : cur.Ready furthest) :
    match drop cur with
    | .ok _ cur' => ∀ c breaksLine,
        (cur'.advance c breaksLine).Pulled (max furthest (cur.position.index + 1))
    | .error _ cur' => cur'.Pulled furthest := by
  obtain ⟨behind, waiting, ahead⟩ := h
  unfold drop
  split
  · rename_i cur' dropped
    split at dropped
    · rename_i c pending whole
      cases dropped
      intro c breaksLine
      rw [whole, List.length_cons] at waiting ahead
      constructor <;> simp only [advance, Position.index_advance] <;> omega
    · rename_i empty
      split at dropped <;> cases dropped
      rename_i found source taken
      have held := source.lookahead_le
      intro c breaksLine
      rw [empty, List.length_nil] at waiting
      constructor <;> simp only [advance, Position.index_advance, empty, List.length_nil] <;> omega
  · rename_i f cur' failed
    split at failed
    · cases failed
    · rename_i empty
      split at failed <;> cases failed
      rename_i source taken
      have held := source.lookahead_le
      refine ⟨behind, waiting, ?_⟩
      simp only [empty, List.length_nil]
      omega

/-! ## Going forward -/

/-- The cursor has gone forward, and has taken no more from its source than it had to. -/
structure Onward (cur cur' : Cursor) : Prop where
  forward : cur.position.index ≤ cur'.position.index
  pulled {furthest : Nat} :
    cur.Pulled furthest → cur'.Pulled (max furthest cur'.position.index)

theorem Onward.refl (cur : Cursor) : cur.Onward cur where
  forward := Nat.le_refl _
  pulled h := by rwa [Nat.max_eq_left h.behind]

theorem Onward.trans {cur₁ cur₂ cur₃ : Cursor} (h : cur₁.Onward cur₂) (h' : cur₂.Onward cur₃) :
    cur₁.Onward cur₃ where
  forward := Nat.le_trans h.forward h'.forward
  pulled before := by
    have after := h'.pulled (h.pulled before)
    rwa [Nat.max_assoc, Nat.max_eq_right h'.forward] at after

/-- A cursor that stays where it is has gone no way back. -/
theorem onward_of_pulled (same : cur'.position = cur.position)
    (pulled : ∀ {furthest : Nat}, cur.Pulled furthest → cur'.Pulled furthest) : cur.Onward cur' where
  forward := Nat.le_of_eq (congrArg Position.index same.symm)
  pulled h := by rw [same, Nat.max_eq_left h.behind]; exact pulled h

theorem onward_peek (cur : Cursor) : cur.Onward (Reading.left cur.peek) :=
  onward_of_pulled cur.samePlace_peek.position pulled_peek

/-- Reading a character whose line end is known. -/
theorem onward_drop {known : Cursor} (c : Char) (breaksLine : Bool)
    (same : known.position = cur.position)
    (ready : ∀ {furthest : Nat}, cur.Pulled furthest → known.Ready furthest) :
    match drop known with
    | .ok _ cur' => cur.Onward (cur'.advance c breaksLine)
    | .error _ cur' => cur.Onward cur' := by
  cases dropped : drop known with
  | error f cur' =>
      have place := (samePlace_of_drop_error dropped).position
      refine onward_of_pulled (place.trans same) fun h => ?_
      have stays := pulled_drop (ready h)
      rw [dropped] at stays
      exact stays
  | ok _ cur' =>
      have index : (cur'.advance c breaksLine).position.index = cur.position.index + 1 := by
        simp only [advance, Position.index_advance, (same_of_drop dropped).1, same]
      refine ⟨by omega, fun h => ?_⟩
      have moved := pulled_drop (ready h)
      rw [dropped, same] at moved
      rw [index]
      exact moved c breaksLine

theorem onward_read (cur : Cursor) : cur.Onward (Reading.left cur.read) := by
  have seen := cur.onward_peek
  unfold read
  cases peeked : peek cur with
  | error f cur₁ => rwa [peeked] at seen
  | ok found cur₁ =>
      rw [peeked] at seen
      cases found with
      | none => exact seen
      | some c =>
          refine Onward.trans seen ?_
          have place := (samePlace_endsLine c cur₁).position
          have prepared {furthest : Nat} (h : cur₁.Pulled furthest) := prepares_endsLine c h
          simp only
          generalize endsLine c cur₁ = result at place prepared ⊢
          cases result with
          | error f cur₂ => exact onward_of_pulled place prepared
          | ok breaksLine cur₂ =>
              replace place : cur₂.position = cur₁.position := place
              have went := onward_drop c breaksLine place prepared
              simp only
              generalize drop cur₂ = result at went ⊢
              cases result <;> exact went

theorem onward_isEof (cur : Cursor) : cur.Onward (Reading.left cur.isEof) := by
  have seen := cur.onward_peek
  unfold isEof
  split <;> rename_i same <;> rwa [same] at seen

/-! ## Many characters -/

/-- A reading that goes forward from everywhere has gone forward to what it leaves here. -/
theorem Onward.reached {α : Type} {reading : Reading Cursor α}
    {result : EStateM.Result Fault Cursor α}
    (onward : ∀ cur : Cursor, cur.Onward (Reading.left (reading cur))) (same : reading cur = result)
    (last : Reading.left result = cur') : cur.Onward cur' := by
  subst same last
  exact onward cur

theorem onward_readWhile (accept : Char → Bool) (cur : Cursor) :
    cur.Onward (Reading.left (readWhile accept cur)) := by
  fun_induction readWhile accept cur with
  | case1 cur f next peeked => exact .reached onward_peek peeked rfl
  | case2 cur next peeked => exact .reached onward_peek peeked rfl
  | case3 cur c next peeked _ f after taken =>
      exact (Onward.reached onward_peek peeked rfl).trans (.reached onward_read taken rfl)
  | case4 cur c next peeked _ after taken =>
      exact (Onward.reached onward_peek peeked rfl).trans (.reached onward_read taken rfl)
  | case5 cur c next peeked _ d after taken _ f last same ih =>
      rw [same] at ih
      exact ((Onward.reached onward_peek peeked rfl).trans (.reached onward_read taken rfl)).trans ih
  | case6 cur c next peeked _ d after taken _ cs last same ih =>
      rw [same] at ih
      exact ((Onward.reached onward_peek peeked rfl).trans (.reached onward_read taken rfl)).trans ih
  | case7 cur c next peeked => exact .reached onward_peek peeked rfl

theorem onward_readToEnd (cur : Cursor) : cur.Onward (Reading.left cur.readToEnd) := by
  fun_cases readToEnd cur with
  | case1 f next ended => exact .reached onward_isEof ended rfl
  | case2 next ended => exact .reached onward_isEof ended rfl
  | case3 next ended f last all =>
      exact (Onward.reached onward_isEof ended rfl).trans (.reached (onward_readWhile _) all rfl)
  | case4 next ended cs last all =>
      exact (Onward.reached onward_isEof ended rfl).trans (.reached (onward_readWhile _) all rfl)

theorem onward_readLineFeed (cur : Cursor) : cur.Onward (Reading.left cur.readLineFeed) := by
  fun_cases readLineFeed cur with
  | case1 f next peeked => exact .reached onward_peek peeked rfl
  | case2 next peeked f last taken =>
      exact (Onward.reached onward_peek peeked rfl).trans (.reached onward_read taken rfl)
  | case3 next peeked found last taken =>
      exact (Onward.reached onward_peek peeked rfl).trans (.reached onward_read taken rfl)
  | case4 next found _ peeked => exact .reached onward_peek peeked rfl

theorem onward_restOfLine (cur : Cursor) : cur.Onward (Reading.left cur.restOfLine) := by
  fun_induction restOfLine cur with
  | case1 cur f after taken => exact .reached onward_read taken rfl
  | case2 cur after taken => exact .reached onward_read taken rfl
  | case3 cur after taken => exact .reached onward_read taken rfl
  | case4 cur after f last same taken =>
      exact (Onward.reached onward_read taken rfl).trans (.reached onward_readLineFeed same rfl)
  | case5 cur after _ last same taken =>
      exact (Onward.reached onward_read taken rfl).trans (.reached onward_readLineFeed same rfl)
  | case6 cur c after taken _ _ _ f last same ih =>
      rw [same] at ih
      exact (Onward.reached onward_read taken rfl).trans ih
  | case7 cur c after taken _ _ _ cs last same ih =>
      rw [same] at ih
      exact (Onward.reached onward_read taken rfl).trans ih

theorem onward_readLine (cur : Cursor) : cur.Onward (Reading.left cur.readLine) := by
  fun_cases readLine cur with
  | case1 f next ended => exact .reached onward_isEof ended rfl
  | case2 next ended => exact .reached onward_isEof ended rfl
  | case3 next ended f last all =>
      exact (Onward.reached onward_isEof ended rfl).trans (.reached onward_restOfLine all rfl)
  | case4 next ended cs last all =>
      exact (Onward.reached onward_isEof ended rfl).trans (.reached onward_restOfLine all rfl)

/-! ## Going back -/

theorem pulled_unmark (h : cur.Pulled furthest) : cur.unmark.Pulled furthest := by
  unfold unmark
  split <;> exact ⟨h.behind, h.waiting, h.ahead⟩

theorem source_unmark (cur : Cursor) :
    cur.unmark.source = cur.source ∧ cur.unmark.pending = cur.pending ∧
      cur.unmark.position = cur.position := by
  unfold unmark
  split <;> exact ⟨rfl, rfl, rfl⟩

/-- Going back takes nothing from the source: what was read since the mark waits in the cursor. -/
theorem handsBack {r : Reader} {faults : List Fault} (follows : cur.Follows r faults)
    (alsoUnmark : Bool) :
    (cur.reset alsoUnmark).source = cur.source ∧
      (cur.reset alsoUnmark).position.index ≤ cur.position.index ∧
      (cur.reset alsoUnmark).pending =
        (r.text.take cur.position.index).drop (cur.reset alsoUnmark).position.index ++ cur.pending := by
  have here := follows.index_position
  unfold reset
  split
  · refine ⟨rfl, Nat.le_refl _, ?_⟩
    rw [List.drop_of_length_le (List.length_take_le _ _), List.nil_append]
  · rename_i saved others marks
    have mem : saved ∈ cur.marks := by rw [marks]; exact List.mem_cons_self
    rw [follows.marks] at mem
    obtain ⟨m, hm, rfl⟩ := List.mem_map.mp mem
    have index := Position.index_ofIndex (follows.ordered.saved_le_length hm)
    have back : (cur.handBack (.ofIndex r.text m)).pending =
        (r.text.take cur.position.index).drop m ++ cur.pending := by
      rw [here, ← follows.reverse_take_backup hm, ← follows.readSince hm]
      rfl
    have place : (cur.handBack (.ofIndex r.text m)).position.index = m := index
    obtain ⟨source, pending, position⟩ := source_unmark (cur.handBack (.ofIndex r.text m))
    have earlier : m ≤ cur.position.index := here ▸ follows.ordered.saved_le hm
    cases alsoUnmark with
    | false =>
        simp only [Bool.false_eq_true, if_false, place]
        exact ⟨rfl, earlier, back⟩
    | true =>
        simp only [if_true, source, pending, position, place]
        exact ⟨rfl, earlier, back⟩

theorem pulled_reset {r : Reader} {faults : List Fault} (follows : cur.Follows r faults)
    (h : cur.Pulled furthest) (alsoUnmark : Bool) : (cur.reset alsoUnmark).Pulled furthest := by
  obtain ⟨source, earlier, pending⟩ := handsBack follows alsoUnmark
  have behind := h.behind
  have waiting := h.waiting
  have ahead := h.ahead
  have inside := follows.index_position ▸ follows.ordered.within
  have more : (cur.reset alsoUnmark).pending.length =
      cur.position.index - (cur.reset alsoUnmark).position.index + cur.pending.length := by
    rw [pending, List.length_append, List.length_drop, List.length_take, Nat.min_eq_left inside]
  refine ⟨Nat.le_trans earlier behind, ?_, ?_⟩
  · omega
  · rw [source]
    omega

/-! ## Reading again -/

/-- What comes of reading where `c` and then `rest` wait in the cursor: the source is not asked, unless
a carriage return is the last to wait; then the source is looked at, and gives nothing away. -/
inductive ReadsAgain (cur : Cursor) (c : Char) (rest : List Char) :
    EStateM.Result Fault Cursor (Option Char) → Prop where
  | waiting {cur' : Cursor} (pending : cur'.pending = rest) (source : cur'.source = cur.source) :
      ReadsAgain cur c rest (.ok (some c) cur')
  | looked {cur' : Cursor} (alone : c = '\r' ∧ rest = []) (pending : cur'.pending = rest)
      (source : cur'.source = Reading.left cur.source.peek) : ReadsAgain cur c rest (.ok (some c) cur')
  | fault {f : Fault} {cur' : Cursor} (alone : c = '\r' ∧ rest = []) (pending : cur'.pending = c :: rest)
      (source : cur'.source = Reading.left cur.source.peek) : ReadsAgain cur c rest (.error f cur')

theorem peek_of_pending {c : Char} {rest : List Char} (h : cur.pending = c :: rest) :
    cur.peek = .ok (some c) cur := by
  simp only [peek, h]

/-- The source is not asked whether a character ends its line, if that is told by what waits. -/
theorem endsLine_of_waiting {c : Char} {rest : List Char} (h : cur.pending = c :: rest)
    (told : ¬(c = '\r' ∧ rest = [])) : ∃ breaksLine, endsLine c cur = .ok breaksLine cur := by
  by_cases feed : c = '\n'
  · exact ⟨true, if_pos feed⟩
  by_cases other : c ≠ '\r'
  · exact ⟨false, (if_neg feed).trans (if_neg other)⟩
  obtain rfl := not_not.mp other
  cases rest with
  | nil => exact absurd ⟨rfl, rfl⟩ told
  | cons d rest =>
      have second : peekSecond cur = .ok (some d) cur := by simp only [peekSecond, h]
      exact ⟨some d != some '\n', by simp only [endsLine, second, if_neg feed, if_true]⟩

/-- What is behind a carriage return that waits alone is looked at in the source. -/
theorem endsLine_of_alone (h : cur.pending = ['\r']) :
    endsLine '\r' cur =
      match cur.source.peek with
      | .ok found source => .ok (found != some '\n') { cur with source }
      | .error f source => .error f { cur with source } := by
  have feed : '\r' ≠ '\n' := by decide
  have second : peekSecond cur = ask Source.peek cur := by simp only [peekSecond, h]
  simp only [endsLine, second, ask, if_neg feed, if_true]
  cases cur.source.peek <;> rfl

theorem drop_of_pending {c : Char} {rest : List Char} (h : cur.pending = c :: rest) :
    drop cur = .ok () { cur with pending := rest } := by
  simp only [drop, h]

theorem readsAgain {c : Char} {rest : List Char} (h : cur.pending = c :: rest) :
    cur.ReadsAgain c rest cur.read := by
  by_cases alone : c = '\r' ∧ rest = []
  · obtain ⟨rfl, rfl⟩ := alone
    have ended := endsLine_of_alone h
    cases seen : cur.source.peek with
    | ok found source =>
        rw [seen] at ended
        -- the look at the source leaves the carriage return where it waits
        have waits : ({ cur with source } : Cursor).pending = ['\r'] := h
        simp only [read, peek_of_pending h, ended, drop_of_pending waits]
        exact .looked ⟨rfl, rfl⟩ rfl (by rw [seen]; rfl)
    | error f source =>
        rw [seen] at ended
        simp only [read, peek_of_pending h, ended]
        exact .fault ⟨rfl, rfl⟩ h (by rw [seen]; rfl)
  · obtain ⟨breaksLine, ended⟩ := endsLine_of_waiting h alone
    simp only [read, peek_of_pending h, ended, drop_of_pending h]
    exact .waiting rfl rfl

/-! ## Any operations -/

theorem pulled_answer {α : Type} {form : α → Answer} {result : EStateM.Result Fault Cursor α}
    (h : cur.Pulled furthest) (onward : cur.Onward (Reading.left result)) :
    (answer form result).2.Pulled (max furthest (answer form result).2.position.index) := by
  rw [left_answer]
  exact onward.pulled h

theorem pulled_perform {r : Reader} {faults : List Fault} (follows : cur.Follows r faults)
    (h : cur.Pulled furthest) (op : Operation) :
    (cur.perform op).2.Pulled (max furthest (cur.perform op).2.position.index) := by
  have stays {cur' : Cursor} (pulled : cur'.Pulled furthest) :
      cur'.Pulled (max furthest cur'.position.index) := by
    rwa [Nat.max_eq_left pulled.behind]
  cases op with
  | peek => exact pulled_answer h cur.onward_peek
  | isEof => exact pulled_answer h cur.onward_isEof
  | read => exact pulled_answer h cur.onward_read
  | readLine => exact pulled_answer h cur.onward_readLine
  | readToEnd => exact pulled_answer h cur.onward_readToEnd
  | mark => exact stays ⟨h.behind, h.waiting, h.ahead⟩
  | unmark => exact stays (pulled_unmark h)
  | reset alsoUnmark => exact stays (pulled_reset follows h alsoUnmark)
  | capture alsoUnmark =>
      cases alsoUnmark with
      | false => exact stays h
      | true => exact stays (pulled_unmark h)

theorem pulled_close (h : cur.Pulled furthest) : (Reading.left cur.close).Pulled furthest := by
  unfold close
  split
  · exact h
  · rw [ask, Reading.left_embed]
    exact ⟨h.behind, h.waiting, by simpa using h.ahead⟩

/-- A cursor over a source after any operations, answered or not, between which the source may have
been released. It has come to the index `furthest` and no further. -/
inductive Visits (source : Source) : Cursor → Nat → Prop where
  | start : Visits source (ofSource source) 0
  | perform {cur : Cursor} {furthest : Nat} (h : Visits source cur furthest) (op : Operation) :
      Visits source (cur.perform op).2 (max furthest (cur.perform op).2.position.index)
  | close {cur : Cursor} {furthest : Nat} (h : Visits source cur furthest) :
      Visits source (Reading.left cur.close) furthest

namespace Visits

variable {source : Source}

theorem reachable (h : Visits source cur furthest) : cur.Reachable source := by
  induction h with
  | start => exact .start
  | perform _ op ih => exact .perform ih op
  | close _ ih => exact .close ih

theorem follows (h : Visits source cur furthest) :
    ∃ saved later, cur.Follows ⟨source.chars, cur.position.index, saved⟩ later := by
  obtain ⟨n, saved, later, -, follows⟩ := h.reachable.at_following
  rw [follows.index_position]
  exact ⟨saved, later, follows⟩

/-- Every operation takes no more from the source than it has to. -/
theorem pulled (h : Visits source cur furthest) : cur.Pulled furthest := by
  induction h with
  | start => exact ⟨Nat.le_refl _, Nat.zero_le _, by simpa [ofSource] using source.lookahead_le⟩
  | perform before op ih =>
      obtain ⟨saved, later, follows⟩ := before.follows
      exact pulled_perform follows ih op
  | close _ ih => exact pulled_close ih

/-- The characters that have not come out of the source begin behind those that wait. -/
theorem chars_source (h : Visits source cur furthest) :
    cur.source.chars = source.chars.drop (cur.position.index + cur.pending.length) := by
  obtain ⟨saved, later, follows⟩ := h.follows
  have rest : cur.pending ++ cur.source.chars = source.chars.drop cur.position.index := follows.rest
  rw [← List.drop_drop, ← rest, List.drop_left]

/-- After any operations on a cursor, the source has given no more than one character beyond the
furthest index that the cursor has come to, the one that it holds ready included. All characters before
that index that have not been read again wait in the cursor, and the source stands behind them. Going
back puts what was read since the mark before them and asks the source nothing; and what waits is read
from the cursor. Only to tell what a carriage return is that waits alone, the source is looked at. -/
theorem pulled_at_most_one (h : Visits source cur furthest) :
    source.takenUpTo cur.source ≤ furthest + 1 ∧
      cur.position.index ≤ furthest ∧ furthest ≤ cur.position.index + cur.pending.length ∧
      cur.source.chars = source.chars.drop (cur.position.index + cur.pending.length) ∧
      (∀ alsoUnmark, (cur.reset alsoUnmark).source = cur.source ∧
        (cur.reset alsoUnmark).pending = (source.chars.take cur.position.index).drop
          (cur.reset alsoUnmark).position.index ++ cur.pending) ∧
      ∀ c rest, cur.pending = c :: rest →
        cur.peek = .ok (some c) cur ∧ cur.ReadsAgain c rest cur.read := by
  have left := h.chars_source
  obtain ⟨behind, waiting, ahead⟩ := h.pulled
  obtain ⟨saved, later, follows⟩ := h.follows
  refine ⟨?_, behind, waiting, left, fun alsoUnmark => ?_, fun c rest whole =>
    ⟨peek_of_pending whole, readsAgain whole⟩⟩
  · have fewer := congrArg List.length left
    rw [List.length_drop] at fewer
    unfold Source.takenUpTo
    omega
  · obtain ⟨same, -, pending⟩ := handsBack follows alsoUnmark
    exact ⟨same, pending⟩

/-- A fault stands behind a carriage return that is read again from an outer mark. Two characters have
come out of the source, although the cursor has come to the first only; the carriage return waits. -/
theorem pulled_at_most_one_at_a_broken_line_end :
    let source := Source.ofItems
      [.char 'a', .char '\r', .fault ⟨.interrupted, "again"⟩, .char '\n', .char 'b']
    let cur := ((ofSource source).performAll [.mark, .read, .read, .reset false]).2
    Visits source cur 1 ∧ cur.pending = ['a', '\r'] ∧ source.takenUpTo cur.source = 2 ∧
      source.takenUpTo cur.source ≤ 1 + 1 ∧ cur.ReadsAgain 'a' ['\r'] cur.read := by
  intro source cur
  have visits : Visits source cur 1 :=
    .perform (.perform (.perform (.perform .start .mark) .read) .read) (.reset false)
  obtain ⟨within, -, -, -, -, again⟩ := pulled_at_most_one visits
  exact ⟨visits, rfl, rfl, within, (again 'a' ['\r'] rfl).2⟩

end Visits

end Cursor

end TextGrammar
