import Mathlib.Data.List.TakeWhile
import TextGrammar.Proofs.Cursor.Follows
import TextGrammar.Cursor.Lines

set_option autoImplicit false

/-! # Tracking a cursor through a text

Whoever reads through a cursor does not see where the characters wait or what is kept for going back.
What there is to see is a text, the number of characters read and the saved numbers. `Tracking` lists
what the few operations on a cursor have to do to these, and everything that is put together from
these operations is described once, for every way of tracking. The cursors that follow a reader over a
source without faults are one such way. -/

namespace TextGrammar

/-- A text from a place at which there is a character. -/
theorem drop_eq_cons {text : List Char} {n : Nat} {c : Char} (h : text[n]? = some c) :
    text.drop n = c :: text.drop (n + 1) := by
  obtain ⟨hn, hc⟩ := List.getElem?_eq_some_iff.mp h
  rw [List.drop_eq_getElem_cons hn, hc]

/-- A text from a place at which there is no character. -/
theorem drop_eq_nil {text : List Char} {n : Nat} (h : text[n]? = none) : text.drop n = [] :=
  List.drop_eq_nil_of_le (List.getElem?_eq_none_iff.mp h)

/-- A way to tell where a cursor is in a text. -/
structure Tracking (text : List Char) where
  /-- The cursor has read `n` characters and saved the numbers `saved`, the innermost first. -/
  At : (cur : Cursor) → (n : Nat) → (saved : List Nat) → Prop
  /-- A fault was reported when `n` characters had been read. -/
  Interrupted : Fault → (cur : Cursor) → (n : Nat) → (saved : List Nat) → Prop
  /-- The number of characters that the source delivers in all. -/
  total : Nat
  within {cur n saved} : At cur n saved → n ≤ text.length
  size {cur n saved} : At cur n saved → cur.size + n = total
  position {cur n saved} : At cur n saved → cur.position = .ofIndex text n
  peek {cur n saved} : At cur n saved → match Cursor.peek cur with
    | .ok found cur' => found = text[n]? ∧ At cur' n saved
    | .error f cur' => Interrupted f cur' n saved
  read {cur n saved} : At cur n saved → match Cursor.read cur with
    | .ok (some c) cur' => text[n]? = some c ∧ At cur' (n + 1) saved
    | .ok none cur' => text[n]? = none ∧ At cur' n saved
    | .error f cur' => Interrupted f cur' n saved
  mark {cur n saved} : At cur n saved → At cur.mark n (n :: saved)
  unmark {cur n m saved} : At cur n (m :: saved) → At cur.unmark n saved
  reset {cur n m saved} : At cur n (m :: saved) → At (cur.reset true) m saved
  captured {cur n m saved} : At cur n (m :: saved) →
    cur.captured = some (String.ofList ((text.drop m).take (n - m)))

namespace Tracking

variable {text : List Char} (t : Tracking text)

/-- A reading that began at the number `n` gives `a` and ends at the number `m`, or a fault is
reported on the way. -/
inductive Yields {α : Type} (n : Nat) (saved : List Nat) (a : α) (m : Nat) :
    EStateM.Result Fault Cursor α → Prop where
  | ok {cur : Cursor} (here : t.At cur m saved) : Yields n saved a m (.ok a cur)
  | fault {f : Fault} {cur : Cursor} {k : Nat} (ahead : n ≤ k)
      (h : t.Interrupted f cur k saved) : Yields n saved a m (.error f cur)

variable {t} {cur : Cursor} {n : Nat} {saved : List Nat}

/-- A reading that begins at a later number may as well have begun earlier. -/
theorem Yields.since {α : Type} {a : α} {k m : Nat} {result : EStateM.Result Fault Cursor α}
    (h : t.Yields k saved a m result) (ahead : n ≤ k) : t.Yields n saved a m result := by
  cases h with
  | ok here => exact .ok here
  | fault later h => exact .fault (Nat.le_trans ahead later) h

theorem yields_peek (h : t.At cur n saved) : t.Yields n saved text[n]? n (Cursor.peek cur) := by
  have looked := t.peek h
  cases peeked : Cursor.peek cur with
  | ok found cur' =>
      rw [peeked] at looked
      obtain ⟨rfl, here⟩ := looked
      exact .ok here
  | error f cur' =>
      rw [peeked] at looked
      exact .fault (Nat.le_refl n) looked

/-- Where there is a character, it is read. -/
theorem yields_read {c : Char} (h : t.At cur n saved) (hc : text[n]? = some c) :
    t.Yields n saved (some c) (n + 1) (Cursor.read cur) := by
  have went := t.read h
  cases taken : Cursor.read cur with
  | ok found cur' =>
      rw [taken] at went
      cases found with
      | none => exact absurd (went.1.symm.trans hc) (by simp)
      | some d =>
          obtain ⟨hd, here⟩ := went
          cases hc.symm.trans hd
          exact .ok here
  | error f cur' =>
      rw [taken] at went
      exact .fault (Nat.le_refl n) went

theorem yields_read_end (h : t.At cur n saved) (hc : text[n]? = none) :
    t.Yields n saved none n (Cursor.read cur) := by
  have went := t.read h
  cases taken : Cursor.read cur with
  | ok found cur' =>
      rw [taken] at went
      cases found with
      | none => exact .ok went.2
      | some d => exact absurd (hc.symm.trans went.1) (by simp)
  | error f cur' =>
      rw [taken] at went
      exact .fault (Nat.le_refl n) went

theorem yields_isEof (h : t.At cur n saved) :
    t.Yields n saved text[n]?.isNone n (Cursor.isEof cur) := by
  have looked := yields_peek h
  unfold Cursor.isEof
  generalize Cursor.peek cur = result at looked ⊢
  cases looked with
  | fault ahead h => exact .fault ahead h
  | ok here => exact .ok here

/-! ## Reading many characters -/

/-- A run is read up to the first character that is not accepted. -/
theorem yields_readWhile (accept : Char → Bool) (h : t.At cur n saved) :
    t.Yields n saved ((text.drop n).takeWhile accept)
      (n + ((text.drop n).takeWhile accept).length) (Cursor.readWhile accept cur) := by
  induction hsize : text.length - n using Nat.strongRecOn generalizing cur n with
  | ind size ih =>
      have looked := yields_peek h
      rw [Cursor.readWhile]
      split
      · rename_i f next peeked
        rw [peeked] at looked
        cases looked with
        | fault ahead h => exact .fault ahead h
      · rename_i next peeked
        rw [peeked] at looked
        generalize hfound : text[n]? = found at looked
        cases looked with
        | ok here =>
            rw [drop_eq_nil hfound]
            exact .ok here
      · rename_i c next peeked
        rw [peeked] at looked
        generalize hfound : text[n]? = found at looked
        cases looked with
        | ok here =>
            rw [drop_eq_cons hfound, List.takeWhile_cons]
            cases haccept : accept c with
            | false => exact .ok here
            | true =>
                have taken := yields_read here hfound
                simp only [if_true]
                split
                · rename_i f after hread
                  rw [hread] at taken
                  cases taken with
                  | fault ahead h => exact .fault ahead h
                · rename_i after hread
                  rw [hread] at taken
                  cases taken
                · rename_i d after hread
                  rw [hread] at taken
                  cases taken with
                  | ok further =>
                      have inside := (List.getElem?_eq_some_iff.mp hfound).1
                      have rest := ih _ (by omega) further rfl
                      have one_more (k : Nat) : n + (k + 1) = n + 1 + k := by omega
                      rw [List.length_cons, one_more (List.length _)]
                      replace rest := rest.since (Nat.le_succ n)
                      generalize Cursor.readWhile accept after = result at rest ⊢
                      cases rest with
                      | fault ahead h => exact .fault ahead h
                      | ok last => exact .ok last

/-- All that is left is read. -/
theorem yields_readToEnd (h : t.At cur n saved) :
    t.Yields n saved (if text[n]?.isNone then none else some (text.drop n))
      (n + (text.drop n).length) (Cursor.readToEnd cur) := by
  have atEnd := yields_isEof h
  unfold Cursor.readToEnd
  generalize Cursor.isEof cur = result at atEnd ⊢
  generalize hfound : text[n]? = found at atEnd ⊢
  cases atEnd with
  | fault ahead h => exact .fault ahead h
  | ok here =>
      cases found with
      | none =>
          rw [drop_eq_nil hfound]
          exact .ok here
      | some c =>
          have all := yields_readWhile (fun _ => true) here
          have whole : (text.drop n).takeWhile (fun _ => true) = text.drop n :=
            List.takeWhile_eq_self_iff.mpr fun _ _ => rfl
          rw [whole] at all
          simp only [Option.isNone_some, Bool.false_eq_true, if_false]
          generalize Cursor.readWhile (fun _ => true) _ = result at all ⊢
          cases all with
          | fault ahead h => exact .fault ahead h
          | ok last => exact .ok last

/-! ## Following a reader -/

/-- The cursors that follow a reader over the text, while their source has yet to report no more than
the last ones of some faults. -/
def following (text : List Char) (faults : List Fault) : Tracking text where
  At cur n saved := ∃ later, later <:+ faults ∧ cur.Follows ⟨text, n, saved⟩ later
  Interrupted f cur n saved :=
    ∃ later, f :: later <:+ faults ∧ cur.Follows ⟨text, n, saved⟩ later
  total := text.length
  within := fun ⟨_, _, h⟩ => h.ordered.within
  size := fun {cur n saved} ⟨_, _, h⟩ => by
    have inside : n ≤ text.length := h.ordered.within
    have left : cur.size = (text.drop n).length := congrArg List.length h.rest
    rw [left, List.length_drop]
    omega
  position := fun ⟨_, _, h⟩ => h.position
  peek := fun {cur n saved} ⟨later, hlater, h⟩ => by
    have same := Cursor.samePlace_peek cur
    have reported := cur.reports_peek
    rw [h.faults] at reported
    cases peeked : Cursor.peek cur with
    | ok found cur' =>
        rw [peeked] at same reported
        have all : cur'.faults = later := reported
        refine ⟨?_, later, hlater, all ▸ h.samePlace same⟩
        rw [Cursor.eq_head?_of_peek peeked, h.head?_rest]
        rfl
    | error f cur' =>
        rw [peeked] at same reported
        have first : f :: cur'.faults = later := reported
        exact ⟨cur'.faults, first ▸ hlater, h.samePlace same⟩
  read := fun {cur n saved} ⟨later, hlater, h⟩ => by
    have one := cur.readsOne
    have reported := cur.reports_read
    rw [h.faults] at reported
    have next : cur.rest.head? = text[n]? := h.head?_rest
    revert one reported
    generalize Cursor.read cur = result
    intro one reported
    cases one with
    | @char c cur' step =>
        have all : cur'.faults = later := reported
        refine ⟨?_, later, hlater, all ▸ h.advanced step⟩
        rw [← next, step.rest, List.head?_cons]
    | @atEnd cur' empty same =>
        have all : cur'.faults = later := reported
        refine ⟨?_, later, hlater, all ▸ h.samePlace same⟩
        rw [← next, empty, List.head?_nil]
    | @fault f cur' same =>
        have first : f :: cur'.faults = later := reported
        exact ⟨cur'.faults, first ▸ hlater, h.samePlace same⟩
  mark := fun ⟨later, hlater, h⟩ => ⟨later, hlater, h.mark⟩
  unmark := fun ⟨later, hlater, h⟩ => ⟨later, hlater, h.unmark⟩
  reset := fun ⟨later, hlater, h⟩ => ⟨later, hlater, h.reset true⟩
  captured := fun {cur n m saved} ⟨_, _, h⟩ => by
    rw [h.captured]
    simp only [Reader.captured, List.head?_cons, Option.map_some, List.drop_take]

variable {faults : List Fault}

theorem at_following_nil : (following text []).At cur n saved ↔ cur.Follows ⟨text, n, saved⟩ [] := by
  constructor
  · rintro ⟨later, hlater, h⟩
    rw [List.suffix_nil.mp hlater] at h
    exact h
  · exact fun h => ⟨[], List.suffix_refl [], h⟩

/-- Without faults, nothing is interrupted. -/
theorem not_interrupted_following_nil {f : Fault} :
    ¬(following text []).Interrupted f cur n saved :=
  fun ⟨_, hlater, _⟩ => List.cons_ne_nil _ _ (List.suffix_nil.mp hlater)

/-- Without faults, a reading always comes to its end. -/
theorem eq_ok_of_yields {α : Type} {a : α} {m : Nat} {result : EStateM.Result Fault Cursor α}
    (h : (following text []).Yields n saved a m result) :
    ∃ cur', result = .ok a cur' ∧ cur'.Follows ⟨text, m, saved⟩ [] := by
  cases h with
  | ok here => exact ⟨_, rfl, at_following_nil.mp here⟩
  | fault ahead h => exact absurd h not_interrupted_following_nil

end Tracking

end TextGrammar
