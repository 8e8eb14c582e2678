import Mathlib
import TextGrammar.Proofs.Repetition.Rounds

set_option autoImplicit false

/-! # What a repetition comes to

A repetition that succeeds has put together the values of a chain of iterations, and ends where the last
one of them has ended; one that fails has met with an iteration that misses before there were enough. -/

namespace TextGrammar

variable {α β : Type}

namespace Meaning

variable {separator : Option (Meaning Unit)} {item : Meaning α} {w : Setting} {n m : Nat}
  {bounds : Repeat} {add : β → α → β} {start : β} {backtrack : Bool}

/-- A repetition comes to an outcome by its required rounds alone, or by the optional ones behind
them. -/
theorem repeated_cases {o : Outcome β}
    (came : repeated bounds separator item add start w n = .ok (o, m)) :
    (∃ message b tally, o = ⟨.error message, b, none⟩ ∧
      required separator item add bounds.min.toNat (.start start) w n =
        .ok (.missed message b tally, m)) ∨
    ∃ tally l tally', o = ⟨.ok tally'.state, tally'.backtrack, none⟩ ∧
      required separator item add bounds.min.toNat (.start start) w n = .ok (.done tally, l) ∧
      upTo bounds.isOpen separator item add bounds.room tally w l = .ok (tally', m) := by
  unfold repeated at came
  rcases first : required separator item add bounds.min.toNat (.start start) w n with
    e | ⟨tally | ⟨message, b, tally⟩, l⟩
  · rw [first] at came
    cases came
  · rw [first] at came
    refine .inr ⟨tally, l, ?_⟩
    simp only [bind, Except.bind] at came
    rcases optional : upTo bounds.isOpen separator item add bounds.room tally w l with
      e | ⟨tally', k⟩
    · rw [optional] at came
      cases came
    · rw [optional] at came
      cases came
      exact ⟨tally', rfl, rfl, rfl⟩
  · rw [first] at came
    cases came
    exact .inl ⟨message, b, tally, rfl, rfl⟩

/-- The required rounds begin with a chain of no iterations. -/
theorem requires_of_start {count : Nat} {round : Step.Round β} {l : Nat}
    (first : required separator item add count (.start start) w n = .ok (round, l)) :
    Requires separator item w add start n count round l := by
  have begun : Requires separator item w add start n ([].length + count) round l :=
    requires_of_required .nil first
  rwa [List.length_nil, Nat.zero_add] at begun

/-- A repetition within bounds succeeds from the number `n` on with the values of a chain of iterations,
where the last of them has ended. Without an upper bound there are no more of them than there are
characters left, and one, beside the required ones, and all of these but the last get further. -/
structure Repeats (separator : Option (Meaning Unit)) (item : Meaning α) (w : Setting)
    (bounds : Repeat) (n : Nat) (values : List α) (b kept : Bool) (m : Nat) : Prop where
  chain : Chain separator item w n values b m
  min_le : bounds.min.toNat ≤ values.length
  le_max : values.length ≤ bounds.max.toNat
  bounded : bounds.max = Repeat.unbounded → values.length ≤ bounds.min.toNat + w.left n + 1
  moves : bounds.max = Repeat.unbounded →
    Moves separator item w n bounds.min.toNat (values.length - 1)
  stops : Stops separator item w bounds n values m kept

/-- The optional rounds of a repetition that begins at the number `n`: behind the iterations so far there
may be `count` more. Without an upper bound, all optional ones so far have got further, so that there are
no more of them than characters have been read. -/
structure Underway (separator : Option (Meaning Unit)) (item : Meaning α) (w : Setting)
    (bounds : Repeat) (n : Nat) (values : List α) (b : Bool) (m count : Nat) : Prop where
  chain : Chain separator item w n values b m
  inside : m ≤ w.text.length
  min_le : bounds.min.toNat ≤ values.length
  room : values.length + count = bounds.max.toNat
  spent : bounds.max = Repeat.unbounded → values.length + w.left m ≤ bounds.min.toNat + w.left n
  moves : bounds.max = Repeat.unbounded → Moves separator item w n bounds.min.toNat values.length

section

variable {values : List α} {value : α} {b b' kept : Bool} {k l count : Nat}

namespace Underway

/-- The required rounds lead there. -/
theorem begin (hseparator : ∀ s ∈ separator, UpheldFrom w 0 s s) (hitem : UpheldFrom w 0 item item)
    (within : n ≤ w.text.length) (chain : Chain separator item w n values b m)
    (all : values.length = bounds.min.toNat) :
    Underway separator item w bounds n values b m bounds.room := by
  obtain ⟨ahead, inside⟩ := chain.ahead hseparator hitem within
  refine ⟨chain, inside, all.ge, all ▸ bounds.min_add_room, fun _ => ?_, fun _ => ?_⟩
  · unfold Setting.left
    omega
  · intro _ _ _ _ _ _ _ optional short
    omega

/-- One more iteration, which has got further if nothing else bounds their number. -/
theorem next (hseparator : ∀ s ∈ separator, UpheldFrom w 0 s s) (hitem : UpheldFrom w 0 item item)
    (h : Underway separator item w bounds n values b m (count + 1))
    (next : Iterates separator item w values.length m value b' k)
    (onward : ¬(bounds.isOpen = true ∧ k = m)) :
    Underway separator item w bounds n (values ++ [value]) (b && b') k count := by
  obtain ⟨ahead, inside⟩ := next.ahead hseparator hitem h.inside
  have room := h.room
  have moved (unbounded : bounds.max = Repeat.unbounded) : m < k :=
    Nat.lt_of_le_of_ne ahead fun same => onward ⟨Repeat.isOpen_iff.mpr unbounded, same.symm⟩
  have length : (values ++ [value]).length = values.length + 1 := by simp
  refine ⟨h.chain.concat next, inside, ?_, ?_, fun unbounded => ?_, fun unbounded => ?_⟩
  · rw [length]
    exact Nat.le_succ_of_le h.min_le
  · omega
  -- what the iteration has read pays for it
  · have := h.spent unbounded
    have := moved unbounded
    unfold Setting.left at *
    omega
  · rw [length]
    exact (h.moves unbounded).succ h.chain next (moved unbounded)

/-- There can be no more iterations. -/
theorem full (h : Underway separator item w bounds n values b m 0) :
    Repeats separator item w bounds n values b true m where
  chain := h.chain
  min_le := h.min_le
  le_max := Nat.le_of_eq h.room
  bounded unbounded := by
    have := h.spent unbounded
    omega
  moves unbounded := (h.moves unbounded).mono (Nat.sub_le _ 1)
  stops := .full h.room

/-- There could be one more iteration, and it misses. -/
theorem missed (h : Underway separator item w bounds n values b m (count + 1)) {message : String}
    {failed : Bool} (miss : Misses separator item w values.length m message failed kept k) :
    Repeats separator item w bounds n values b kept m where
  chain := h.chain
  min_le := h.min_le
  le_max := by
    have := h.room
    omega
  bounded unbounded := by
    have := h.spent unbounded
    omega
  moves unbounded := (h.moves unbounded).mono (Nat.sub_le _ 1)
  stops := by
    -- there is room for it, so the bounds are not the same
    refine .missed (fun same => ?_) miss
    have room := h.room
    have min_le := h.min_le
    rw [← same] at room
    omega

/-- One more iteration has read nothing, where nothing else bounds their number. -/
theorem idle (h : Underway separator item w bounds n values b m (count + 1))
    (unbounded : bounds.max = Repeat.unbounded)
    (still : Iterates separator item w values.length m value b' m) :
    Repeats separator item w bounds n (values ++ [value]) (b && b') true m := by
  have length : (values ++ [value]).length = values.length + 1 := by simp
  have room := h.room
  have spent := h.spent unbounded
  have min_le := h.min_le
  refine ⟨h.chain.concat still, by omega, by omega, fun _ => by omega, fun _ => ?_,
    .idle unbounded rfl (by omega) h.chain still⟩
  rw [length]
  exact h.moves unbounded

end Underway

/-- Optional rounds end in one of these three ways. The induction is on how many there may still be. -/
theorem repeats_of_upTo (hseparator : ∀ s ∈ separator, UpheldFrom w 0 s s)
    (hitem : UpheldFrom w 0 item item) {tally : Step.Tally β}
    (h : Underway separator item w bounds n values b l count)
    (optional : upTo bounds.isOpen separator item add count (tallyOf add start values b) w l =
      .ok (tally, m)) :
    ∃ values b kept, Repeats separator item w bounds n values b kept m ∧
      tally = tallyOf add start values (b && kept) := by
  induction count generalizing values b l with
  | zero =>
      cases optional
      exact ⟨values, b, true, h.full, by rw [Bool.and_true]⟩
  | succ count ih =>
      rcases first : round separator item add (tallyOf add start values b) w l with
        e | ⟨tally' | ⟨message, backtrack, tally'⟩, k⟩
      · cases (upTo_eq_error first).symm.trans optional
      · obtain ⟨value, b', next, rfl⟩ := iterates_of_round first
        by_cases idle : bounds.isOpen = true ∧ k = l
        · cases (upTo_eq_last first idle).symm.trans optional
          obtain ⟨unbounded, rfl⟩ := idle
          exact ⟨_, _, true, h.idle (Repeat.isOpen_iff.mp unbounded) next, by rw [Bool.and_true]⟩
        · rw [upTo_eq_further first idle] at optional
          exact ih (h.next hseparator hitem next idle) optional
      · cases (upTo_eq_missed first).symm.trans optional
        obtain ⟨failed, kept, miss, -, rfl⟩ := misses_of_round first
        exact ⟨values, b, kept, h.missed miss, rfl⟩

end

theorem repeats_of_repeated (hseparator : ∀ s ∈ separator, UpheldFrom w 0 s s)
    (hitem : UpheldFrom w 0 item item) (within : n ≤ w.text.length) {state : β}
    (came : (repeated bounds separator item add start).ComesTo w n (.ok state) backtrack m) :
    ∃ values b kept, Repeats separator item w bounds n values b kept m ∧
      state = values.foldl add start ∧ backtrack = (b && kept) := by
  obtain ⟨span, came⟩ := came
  obtain ⟨_, _, _, outcome, -⟩ | ⟨tally, l, tally', outcome, first, optional⟩ := repeated_cases came
  · cases outcome
  · cases outcome
    cases requires_of_start first with
    | done chain all =>
        have begun := Underway.begin hseparator hitem within chain all
        obtain ⟨values, b, kept, repeats, rfl⟩ := repeats_of_upTo hseparator hitem begun optional
        exact ⟨values, b, kept, repeats, rfl, rfl⟩

theorem misses_of_repeated {message : String}
    (came : (repeated bounds separator item add start).ComesTo w n (.error message) backtrack m) :
    ∃ values b l failed kept, Chain separator item w n values b l ∧ values.length < bounds.min.toNat ∧
      Misses separator item w values.length l message failed kept m ∧ backtrack = (b && failed) := by
  obtain ⟨span, came⟩ := came
  obtain ⟨message', b, tally, outcome, first⟩ | ⟨tally, l, tally', outcome, -⟩ := repeated_cases came
  · cases outcome
    cases requires_of_start first with
    | missed chain short miss => exact ⟨_, _, _, _, _, chain, short, miss, rfl⟩
  · cases outcome

/-- Where a repetition succeeds, none of the iterations that it has to have misses. -/
theorem Repeats.not_misses {values values' : List α} {b b' kept failed kept' : Bool} {l k : Nat}
    {message : String} (h : Repeats separator item w bounds n values b kept m)
    (chain : Chain separator item w n values' b' l) (short : values'.length < bounds.min.toNat) :
    ¬Misses separator item w values'.length l message failed kept' k := by
  obtain ⟨value, _, _, next⟩ := h.chain.iterates chain (Nat.lt_of_lt_of_le short h.min_le)
  exact next.not_misses

end Meaning

namespace Grammar

open Meaning

variable {ρ : Type → Type}

/-- A run of a repetition comes to what the repetition means, and leaves the cursor there. -/
theorem comesTo_of_repeated (g : Grammar ρ) (bounds : Repeat) (separator : Option (Parser ρ Unit))
    (item : Parser ρ α) (add : β → α → β) (start : β) {depth : Nat} {ctx ctx' : Context} {r : Reader}
    {faults : List Fault} {o : Outcome β} (h : ctx.cursor.Follows r faults)
    (ran : Step.repeated bounds (separator.map fun s => s.run (g.call depth))
      (item.run (g.call depth)) add start ctx = .ok o ctx') :
    ∃ m later, later <:+ faults ∧ ctx'.cursor.Follows { r with index := m } later ∧
      (repeated bounds (separator.map fun s => s.meaning (g.callMeaning depth))
        (item.meaning (g.callMeaning depth)) add start).ComesTo ⟨r.text, ctx.skip⟩ r.index
        o.status o.backtrack m := by
  have simulates : (Tracking.following r.text faults).SimulatesOption ctx.skip
      (separator.map fun s => s.run (g.call depth))
      (separator.map fun s => s.meaning (g.callMeaning depth)) := by
    cases separator with
    | none => exact .none
    | some separator => exact .some (Tracking.simulates_run (Tracking.simulates_call g depth) separator)
  have stands : (Tracking.following r.text faults).Stands ctx.skip ctx r.index r.saved :=
    ⟨⟨faults, List.suffix_refl faults, h⟩, rfl⟩
  have agrees := Tracking.simulates_repeated bounds simulates
    (Tracking.simulates_run (Tracking.simulates_call g depth) item) add start stands
  rw [ran] at agrees
  generalize means : repeated bounds _ _ add start _ _ = expected at agrees
  cases agrees with
  | @ok _ _ m ahead here =>
      obtain ⟨later, hlater, follows⟩ := here.cursor
      exact ⟨m, later, hlater, follows, o.span, means⟩

/-- A repetition that comes to an outcome puts together the values of a chain of iterations, of which
there are as many as its bounds ask for, and leaves the cursor where the last of them has ended; there
it stops for one of three reasons. Or it fails, and exactly if an iteration misses before there are
enough: with the message of that, where that left the cursor. It lets the choice around it go back if
everything in it did that has succeeded, and what it failed with. -/
theorem run_repeated (g : Grammar ρ) (bounds : Repeat) (separator : Option (Parser ρ Unit))
    (item : Parser ρ α) (add : β → α → β) (start : β) {depth : Nat} {ctx ctx' : Context} {r : Reader}
    {faults : List Fault} {o : Outcome β} (h : ctx.cursor.Follows r faults)
    (ran : Step.repeated bounds (separator.map fun s => s.run (g.call depth))
      (item.run (g.call depth)) add start ctx = .ok o ctx') :
    let w : Setting := ⟨r.text, ctx.skip⟩
    let s := separator.map fun s => s.meaning (g.callMeaning depth)
    let p := item.meaning (g.callMeaning depth)
    ∃ m later, later <:+ faults ∧ ctx'.cursor.Follows { r with index := m } later ∧
      (∀ state, o.status = .ok state → ∃ values b kept,
        Repeats s p w bounds r.index values b kept m ∧ state = values.foldl add start ∧
        o.backtrack = (b && kept)) ∧
      (∀ message, o.status = .error message → ∃ values b l failed kept,
        Chain s p w r.index values b l ∧ values.length < bounds.min.toNat ∧
        Misses s p w values.length l message failed kept m ∧ o.backtrack = (b && failed)) ∧
      (o.isFailure = true ↔ ∃ values b l message failed kept stop,
        Chain s p w r.index values b l ∧ values.length < bounds.min.toNat ∧
        Misses s p w values.length l message failed kept stop) := by
  intro w s p
  have hitem : UpheldFrom w 0 p p := upheld_meaning (fun r => g.upheld_callMeaning depth 0 r) item
  have hseparator : ∀ q ∈ s, UpheldFrom w 0 q q := by
    intro q hq
    obtain ⟨separator, -, rfl⟩ := Option.map_eq_some_iff.mp hq
    exact upheld_meaning (fun r => g.upheld_callMeaning depth 0 r) separator
  obtain ⟨m, later, hlater, follows, came⟩ :=
    g.comesTo_of_repeated bounds separator item add start h ran
  obtain ⟨status, backtrack, span⟩ := o
  cases status with
  | ok state =>
      have succeeded := repeats_of_repeated hseparator hitem h.ordered.within came
      refine ⟨m, later, hlater, follows, ?_, nofun, nofun, ?_⟩
      · rintro _ ⟨⟩
        exact succeeded
      · rintro ⟨_, _, _, _, _, _, _, chain, short, miss⟩
        obtain ⟨_, _, _, repeats, -, -⟩ := succeeded
        exact absurd miss (repeats.not_misses chain short)
  | error message =>
      have missed := misses_of_repeated came
      refine ⟨m, later, hlater, follows, nofun, ?_, fun _ => ?_, fun _ => rfl⟩
      · rintro _ ⟨⟩
        exact missed
      · obtain ⟨values, b, l, failed, kept, chain, short, miss, -⟩ := missed
        exact ⟨values, b, l, message, failed, kept, m, chain, short, miss⟩

/-- A separated list of digits with a separator too many, and one that asks for more digits than there
are. -/
theorem run_repeated_list :
    let digit : Parser (fun _ => Empty) String := .capture (.charBetween '0' '9')
    let comma : Parser (fun _ => Empty) Unit := .exact ','
    let source := Source.ofItems [.char '1', .char ',', .char '2', .char ',']
    let ctx := Context.ofCursor (.ofSource source) none false
    let s := (some comma).map fun s => s.meaning (withoutRules.callMeaning 0)
    let p := digit.meaning (withoutRules.callMeaning 0)
    let w : Setting := ⟨['1', ',', '2', ','], none⟩
    ctx.cursor.Follows ⟨w.text, 0, []⟩ [] ∧
      (∃ values b kept, Repeats s p w .any 0 values b kept 3 ∧
        values.foldl (fun collected a => collected ++ [a]) [] = ["1", "2"]) ∧
      ∃ values b l message failed kept stop, Chain s p w 0 values b l ∧ values.length < 3 ∧
        Misses s p w values.length l message failed kept stop := by
  intro digit comma source ctx s p w
  have follows : ctx.cursor.Follows ⟨w.text, 0, []⟩ [] := Cursor.Follows.ofSource source
  obtain ⟨o, ctx', ran, succeeded, index⟩ : ∃ o ctx',
      Step.repeated .any ((some comma).map fun s => s.run (withoutRules.call 0))
        (digit.run (withoutRules.call 0)) (fun collected a => collected ++ [a]) [] ctx = .ok o ctx' ∧
      o.status = .ok ["1", "2"] ∧ ctx'.position.index = 3 := ⟨_, _, by cbv, by cbv, by cbv⟩
  obtain ⟨o', ctx'', ran', failed⟩ : ∃ o ctx',
      Step.repeated (.atLeast 3) ((some comma).map fun s => s.run (withoutRules.call 0))
        (digit.run (withoutRules.call 0)) (fun collected a => collected ++ [a]) [] ctx = .ok o ctx' ∧
      o.isFailure = true := ⟨_, _, by cbv, by cbv⟩
  obtain ⟨m, later, -, there, all, -, -⟩ := run_repeated withoutRules .any (some comma) digit
    (fun collected a => collected ++ [a]) [] follows ran
  obtain ⟨-, -, -, -, -, -, misses⟩ := run_repeated withoutRules (.atLeast 3) (some comma) digit
    (fun collected a => collected ++ [a]) [] follows ran'
  obtain ⟨values, b, kept, spec, state, -⟩ := all _ succeeded
  have three : m = 3 := calc
    m = (Position.ofIndex w.text m).index := (Position.index_ofIndex there.ordered.within).symm
    _ = ctx'.position.index := (congrArg Position.index there.position).symm
    _ = 3 := index
  exact ⟨follows, ⟨values, b, kept, three ▸ spec, state.symm⟩, misses.mp failed⟩

end Grammar

end TextGrammar
