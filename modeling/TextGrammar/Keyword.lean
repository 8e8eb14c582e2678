import TextGrammar.Error

set_option autoImplicit false

/-! # Keywords and sets of keywords

A keyword is a text that is matched letter by letter. It may commit: once so many letters have
matched, a mismatch is final.

The keywords of a set are kept in ascending order. Each remembers its fork, the number of letters
that it has in common with the next. Whoever has read some letters of a keyword and meets a mismatch
not behind the fork has read as many letters of the next one; if the mismatch lies behind the fork,
no later keyword has those letters. So a set is matched in one pass, without going back. -/

namespace TextGrammar

/-- A text to be matched letter by letter. -/
structure Keyword where
  text : String
  /-- Mismatches from this letter on are final. -/
  cut? : Option Nat
  text_ne : text ≠ ""
  cut_le : ∀ cut ∈ cut?, cut ≤ text.length

namespace Keyword

/-- The keyword that commits to nothing. -/
def ofText (text : String) : Except GrammarError Keyword :=
  if h : text = "" then .error .emptyKeyword
  else .ok ⟨text, none, h, by simp⟩

/-- The keyword that commits once `cut` letters have matched. -/
def withCut (text : String) (cut : Nat) : Except GrammarError Keyword :=
  if h : text = "" then .error .emptyKeyword
  else if hcut : text.length < cut then .error (.cutIndexOutOfRange text cut)
  else .ok ⟨text, some cut, h, by simp; omega⟩

end Keyword

/-- The number of letters that two texts have in common at their beginning. -/
def commonLength : List Char → List Char → Nat
  | a :: as, b :: bs => if a = b then commonLength as bs + 1 else 0
  | _, _ => 0

/-- Some keywords, of which no two are equal and none is empty. -/
structure KeywordSet where
  first : String
  others : List String
  word_ne : ∀ w ∈ first :: others, w ≠ ""
  ascending : (first :: others).Pairwise (· < ·)

namespace KeywordSet

/-- All keywords, in ascending order. -/
def words (s : KeywordSet) : List String :=
  s.first :: s.others

/-- The first of two equal neighbours. -/
def firstRepeated? : List String → Option String
  | a :: b :: rest => if a = b then some a else firstRepeated? (b :: rest)
  | _ => none

/-- Words in order of which no two neighbours are equal ascend. -/
theorem ascending_of_firstRepeated? {ws : List String} (none_eq : firstRepeated? ws = none)
    (sorted : ws.Pairwise (· ≤ ·)) : ws.Pairwise (· < ·) := by
  fun_induction firstRepeated? ws with
  | case1 => simp at none_eq
  | case2 a b rest differ ih =>
    obtain ⟨ha, hrest⟩ := List.pairwise_cons.mp sorted
    have tail := ih none_eq hrest
    have hab : a < b := by
      refine String.not_le.mp fun hba => differ (String.le_antisymm (ha b List.mem_cons_self) hba)
    refine List.pairwise_cons.mpr ⟨fun c hc => ?_, tail⟩
    rcases List.mem_cons.mp hc with rfl | hc
    · exact hab
    · exact String.lt_trans hab ((List.pairwise_cons.mp tail).1 c hc)
  | case3 ws short =>
    rcases ws with _ | ⟨a, _ | ⟨b, rest⟩⟩
    · exact List.Pairwise.nil
    · exact List.pairwise_singleton _ _
    · exact absurd rfl (short a b rest)

/-- The words in order. -/
def sortedWords (ws : List String) : List String :=
  ws.mergeSort fun a b => decide (a ≤ b)

theorem pairwise_sortedWords (ws : List String) : (sortedWords ws).Pairwise (· ≤ ·) := by
  have sorted := @List.pairwise_mergeSort String (fun a b => decide (a ≤ b))
    (fun a b c hab hbc => by
      simp only [decide_eq_true_eq] at *
      exact String.le_trans hab hbc)
    (fun a b => by simpa using String.le_total a b) ws
  exact sorted.imp fun h => of_decide_eq_true h

theorem mem_sortedWords {w : String} {ws : List String} : w ∈ sortedWords ws ↔ w ∈ ws :=
  List.mem_mergeSort

/-- The set of some keywords, given in any order. -/
def ofList (ws : List String) : Except GrammarError KeywordSet :=
  if hempty : "" ∈ ws then .error .emptyKeyword
  -- in order, equal words are neighbours, and the first repeated one is the smallest
  else match hws : sortedWords ws with
    | [] => .error .emptyKeywordSet
    | first :: others =>
      match hrepeat : firstRepeated? (first :: others) with
      | some w => .error (.duplicateKeyword w)
      | none => .ok {
          first, others
          word_ne := fun _ hw empty => hempty (mem_sortedWords.mp (hws ▸ empty ▸ hw))
          ascending := ascending_of_firstRepeated? hrepeat (hws ▸ pairwise_sortedWords ws) }

/-- A keyword and the number of letters that it shares with the next one, if there is one. -/
structure Candidate where
  letters : List Char
  fork? : Option Nat

/-- Ascending keywords with their forks. -/
def forked : String → List String → List Candidate
  | w, [] => [⟨w.toList, none⟩]
  | w, next :: rest => ⟨w.toList, some (commonLength w.toList next.toList)⟩ :: forked next rest

/-- The keywords of the set with their forks. -/
def candidates (s : KeywordSet) : List Candidate :=
  forked s.first s.others

end KeywordSet

namespace Keyword

/-- The keyword that commits as soon as it can no longer be taken for the next one of its set. -/
def before (text : String) (text_ne : text ≠ "") (next : String) : Keyword where
  text := text
  cut? := some (min (commonLength text.toList next.toList + 1) text.length)
  text_ne := text_ne
  cut_le := by
    intro cut h
    cases h
    exact Nat.min_le_right _ _

end Keyword

end TextGrammar
