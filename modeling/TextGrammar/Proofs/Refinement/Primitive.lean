import TextGrammar.Meaning.Primitive
import TextGrammar.Proofs.Keyword.CommonLength
import TextGrammar.Proofs.Refinement.Basic

set_option autoImplicit false

/-! # Primitives

A primitive reads and never goes back. It can only be cut off by a fault, so its meaning is never an
error, and what it comes to depends on the characters from its place on. -/

namespace TextGrammar

namespace Meaning

variable {n : Nat}

/-- The first keyword matches up to `common`; there it ends, gives way to the next or fails. -/
theorem candidates_cons {k : KeywordSet.Candidate} {ks : List KeywordSet.Candidate}
    {offset common : Nat} {w : Setting}
    (h : offset + commonLength (k.letters.drop offset) (w.rest (n + offset)) = common) :
    candidates (k :: ks) offset w n =
      match k.letters[common]? with
      | none => .ok (.success (), n + common)
      | some c =>
        if k.fork?.any (common ≤ ·) then candidates ks common w n
        else .ok (mismatch w c (n + common), n + common) := by
  subst h
  rfl

/-- Reading the keywords of a set always comes to an outcome, and never goes back. -/
theorem candidates_ends (ks : List KeywordSet.Candidate) (offset : Nat) (w : Setting) (n : Nat) :
    ∃ o m, n + offset ≤ m ∧ candidates ks offset w n = .ok (o, m) := by
  induction ks generalizing offset with
  | nil => exact ⟨_, _, Nat.le_refl _, rfl⟩
  | cons k ks ih =>
      obtain ⟨common, hcommon⟩ :
          ∃ common, offset + commonLength (k.letters.drop offset) (w.rest (n + offset)) = common :=
        ⟨_, rfl⟩
      have further : n + offset ≤ n + common := by omega
      simp only [candidates_cons hcommon]
      cases k.letters[common]? with
      | none => exact ⟨_, _, further, rfl⟩
      | some c =>
          by_cases onward : k.fork?.any (common ≤ ·) = true
          · obtain ⟨o, m, ahead, means⟩ := ih common
            exact ⟨o, m, Nat.le_trans further ahead, (if_pos onward).trans means⟩
          · exact ⟨_, _, further, if_neg onward⟩

end Meaning

namespace Tracking

variable {text : List Char} {t : Tracking text} {skip : Option CharClass} {α : Type} {cur : Cursor}
  {n : Nat} {saved : List Nat}

/-- A reading yields what its meaning comes to, which is no error. -/
def Delivers (t : Tracking text) (skip : Option CharClass) (r : Reading Cursor (Outcome α))
    (meaning : Meaning α) : Prop :=
  ∀ {cur : Cursor} {n : Nat} {saved : List Nat}, t.At cur n saved →
    ∃ o m, n ≤ m ∧ meaning ⟨text, skip⟩ n = .ok (o, m) ∧ t.Yields n saved o m (r cur)

theorem simulates_reading {r : Reading Cursor (Outcome α)} {meaning : Meaning α}
    (h : t.Delivers skip r meaning) : t.Simulates skip (Context.reading r) meaning := by
  intro ctx n saved stands
  obtain ⟨o, m, ahead, means, yields⟩ := h stands.cursor
  rw [means]
  exact .reading stands yields ahead

/-- What is delivered lies ahead and within the text. -/
theorem ends_of_delivers {w : Setting} {r : Reading Cursor (Outcome α)} {meaning : Meaning α}
    (h : (following w.text []).Delivers w.skip r meaning) (within : n ≤ w.text.length) :
    ∃ o m, n ≤ m ∧ m ≤ w.text.length ∧ meaning w n = .ok (o, m) := by
  obtain ⟨cur, follows⟩ := Cursor.Follows.exists_cursor within
  obtain ⟨o, m, ahead, means, yields⟩ := h (at_following_nil.mpr follows)
  obtain ⟨last, -, there⟩ := eq_ok_of_yields yields
  exact ⟨o, m, ahead, there.ordered.within, means⟩

/-! ## Single characters and runs -/

theorem delivers_matchOne (accept : Char → Option α) (message : Option Char → String) :
    t.Delivers skip (Primitive.matchOne accept message) (Meaning.one accept message) := by
  intro cur n saved here
  have looked := yields_peek here
  unfold Primitive.matchOne Meaning.one Setting.next?
  generalize Cursor.peek cur = result at looked ⊢
  cases haccept : text[n]?.bind accept with
  | none =>
      refine ⟨_, _, Nat.le_refl n, rfl, ?_⟩
      cases looked with
      | fault ahead interrupted => exact .fault ahead interrupted
      | ok there =>
          simp only [haccept]
          exact .ok there
  | some value =>
      refine ⟨_, _, Nat.le_succ n, rfl, ?_⟩
      cases looked with
      | fault ahead interrupted => exact .fault ahead interrupted
      | @ok next there =>
          obtain ⟨c, hc, -⟩ := Option.bind_eq_some_iff.mp haccept
          have taken := yields_read there hc
          simp only [haccept]
          generalize Cursor.read next = result at taken ⊢
          cases taken with
          | fault ahead interrupted => exact .fault ahead interrupted
          | ok further => exact .ok further

theorem delivers_matchRun (accept : Char → Bool) (min : Nat) (message : Nat → String) :
    t.Delivers skip (Primitive.matchRun accept min message) (Meaning.many accept min message) := by
  intro cur n saved here
  have run := yields_readWhile accept here
  refine ⟨_, _, Nat.le_add_right n _, rfl, ?_⟩
  unfold Primitive.matchRun
  generalize Cursor.readWhile accept cur = result at run ⊢
  cases run with
  | fault ahead interrupted => exact .fault ahead interrupted
  | ok there => exact .ok there

theorem delivers_matchNext (p : Option Char → Bool) (message : Option Char → String) :
    t.Delivers skip (Primitive.matchNext p message) (Meaning.next p message) := by
  intro cur n saved here
  have looked := yields_peek here
  refine ⟨_, _, Nat.le_refl n, rfl, ?_⟩
  unfold Primitive.matchNext
  generalize Cursor.peek cur = result at looked ⊢
  cases looked with
  | fault ahead interrupted => exact .fault ahead interrupted
  | ok there => exact .ok there

/-! ## Letters one after another -/

/-- How far the letters of a text match at a place. -/
def matchAt (text letters : List Char) (offset n : Nat) : Primitive.Match :=
  let common := commonLength letters (text.drop n)
  match letters[common]? with
  | none => .complete
  | some c => .broken (offset + common) c text[n + common]?

theorem yields_matchLetters (letters : List Char) (offset : Nat) (here : t.At cur n saved) :
    t.Yields n saved (matchAt text letters offset n)
      (n + commonLength letters (text.drop n)) (Primitive.matchLetters letters offset cur) := by
  induction letters generalizing cur n offset with
  | nil => exact .ok here
  | cons c cs ih =>
      have looked := yields_peek here
      unfold Primitive.matchLetters
      generalize Cursor.peek cur = result at looked ⊢
      by_cases hfound : text[n]? = some c
      · -- the letter is there: it is read, and the other letters stand one further
        have common : commonLength (c :: cs) (text.drop n)
            = commonLength cs (text.drop (n + 1)) + 1 := by
          rw [drop_eq_cons hfound, commonLength, if_pos rfl]
        have same : matchAt text (c :: cs) offset n = matchAt text cs (offset + 1) (n + 1) := by
          simp only [matchAt, common, List.getElem?_cons_succ, Nat.add_assoc, Nat.add_comm 1]
        rw [same, common]
        cases looked with
        | fault ahead interrupted => exact .fault ahead interrupted
        | @ok next there =>
            have taken := yields_read there hfound
            simp only [if_pos hfound]
            generalize Cursor.read next = result at taken ⊢
            cases taken with
            | fault ahead interrupted => exact .fault ahead interrupted
            | ok further =>
                have rest := (ih (offset + 1) further).since (Nat.le_succ n)
                rw [Nat.add_right_comm] at rest
                exact rest
      · have common : commonLength (c :: cs) (text.drop n) = 0 :=
          commonLength_eq_zero (List.head?_drop ▸ hfound)
        have broken : matchAt text (c :: cs) offset n = .broken offset c text[n]? := by
          simp only [matchAt, common, List.getElem?_cons_zero, Nat.add_zero]
        rw [broken, common]
        cases looked with
        | fault ahead interrupted => exact .fault ahead interrupted
        | @ok next there =>
            simp only [if_neg hfound]
            exact .ok there

theorem delivers_matchKeyword (k : Keyword) :
    t.Delivers skip (Primitive.matchKeyword k) (Meaning.keyword k) := by
  intro cur n saved here
  have matched := yields_matchLetters k.text.toList 0 here
  unfold Primitive.matchKeyword Meaning.keyword Setting.rest
  generalize Primitive.matchLetters k.text.toList 0 cur = result at matched ⊢
  simp only [matchAt, Nat.zero_add] at matched
  cases hc : k.text.toList[commonLength k.text.toList (text.drop n)]? with
  | none =>
      rw [hc] at matched
      refine ⟨_, _, Nat.le_add_right n _, by simp only [hc]; rfl, ?_⟩
      cases matched with
      | fault ahead interrupted => exact .fault ahead interrupted
      | ok there => exact .ok there
  | some c =>
      rw [hc] at matched
      refine ⟨_, _, Nat.le_add_right n _, by simp only [hc]; rfl, ?_⟩
      cases matched with
      | fault ahead interrupted => exact .fault ahead interrupted
      | ok there => exact .ok there

/-- The keyword begins at `n`, and the first `offset` of its letters have been read. -/
theorem yields_matchCandidates (ks : List KeywordSet.Candidate) {offset m : Nat} {o : Outcome Unit}
    (here : t.At cur (n + offset) saved)
    (means : Meaning.candidates ks offset ⟨text, skip⟩ n = .ok (o, m)) :
    t.Yields (n + offset) saved o m (Primitive.matchCandidates ks offset cur) := by
  induction ks generalizing cur offset with
  | nil =>
      cases means
      exact .ok here
  | cons k ks ih =>
      have matched := yields_matchLetters (k.letters.drop offset) offset here
      unfold Primitive.matchCandidates
      generalize Primitive.matchLetters (k.letters.drop offset) offset cur = result at matched ⊢
      obtain ⟨common, hcommon⟩ :
          ∃ common, offset + commonLength (k.letters.drop offset) (text.drop (n + offset)) = common :=
        ⟨_, rfl⟩
      have further : n + offset ≤ n + common := by omega
      simp only [matchAt, List.getElem?_drop, Nat.add_assoc, hcommon] at matched
      rw [Meaning.candidates_cons hcommon] at means
      cases hc : k.letters[common]? with
      | none =>
          rw [hc] at matched means
          cases means
          cases matched with
          | fault ahead interrupted => exact .fault ahead interrupted
          | ok there => exact .ok there
      | some c =>
          rw [hc] at matched means
          cases matched with
          | fault ahead interrupted => exact .fault ahead interrupted
          | @ok next there =>
              cases hfork : k.fork? with
              | none =>
                  rw [hfork] at means
                  cases means
                  exact .ok there
              | some fork =>
                  rw [hfork] at means
                  by_cases onward : common ≤ fork
                  · simp only [Option.any_some, decide_eq_true onward, if_true] at means
                    simp only [if_pos onward]
                    exact (ih there means).since further
                  · simp only [Option.any_some, decide_eq_false onward] at means
                    cases means
                    simp only [if_neg onward]
                    exact .ok there

/-! ## All primitives -/

theorem delivers_primitive (p : Primitive) :
    t.Delivers skip p.reading (Meaning.primitive p) := by
  cases p with
  | exact c => exact delivers_matchOne _ _
  | charIn members => exact delivers_matchOne _ _
  | charsWhileIn members min => exact delivers_matchRun _ _ _
  | space min => exact delivers_matchRun _ _ _
  | eof => exact delivers_matchNext _ _
  | bof =>
      intro cur n saved here
      simp only [Primitive.reading, Meaning.primitive, t.position here,
        Position.isBof_ofIndex (t.within here), beq_iff_eq]
      by_cases first : n = 0
      · rw [if_pos first, if_pos first]
        exact ⟨_, _, Nat.le_refl n, rfl, .ok here⟩
      · rw [if_neg first, if_neg first]
        exact delivers_matchNext _ _ here
  | keyword k => exact delivers_matchKeyword k
  | keywordIn s =>
      intro cur n saved here
      obtain ⟨o, m, ahead, means⟩ := Meaning.candidates_ends s.candidates 0 ⟨text, skip⟩ n
      exact ⟨o, m, ahead, means, yields_matchCandidates s.candidates here means⟩

theorem simulates_primitive (p : Primitive) : t.Simulates skip p.step (Meaning.primitive p) :=
  simulates_reading (delivers_primitive p)

theorem simulates_letter (l : Letter α) :
    t.Simulates skip l.step (Meaning.one l.accept fun _ => l.message) := by
  intro ctx n saved stands
  unfold Letter.step
  cases l.remark? with
  | none => exact simulates_reading (delivers_matchOne _ _) stands
  | some remark =>
      exact simulates_reading (delivers_matchOne _ _) ⟨stands.cursor, stands.skip⟩

end Tracking

end TextGrammar
