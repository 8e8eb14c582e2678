import Mathlib.Data.List.Nodup
import TextGrammar.Proofs.Keyword.Composed

set_option autoImplicit false

/-! # Which words make a set of keywords

Some words make a set if there are any, none is empty and no two are equal; otherwise there is one
reason to refuse them. Sorting brings equal words together, so the first two equal neighbours are the
smallest word that is repeated. The order of the words decides nothing: the sorted words are the same,
and so are the parsers. -/

namespace TextGrammar

/-- There are words, none is empty and no two are equal. -/
structure Distinct (words : List String) : Prop where
  ne_nil : words ≠ []
  empty_not_mem : "" ∉ words
  nodup : words.Nodup

/-- Why words make no set of keywords. -/
inductive Refuses (words : List String) : GrammarError → Prop where
  | noWord (none : words = []) : Refuses words .emptyKeywordSet
  | emptyWord (mem : "" ∈ words) : Refuses words .emptyKeyword
  /-- Of all words that are repeated, the smallest is told. -/
  | repeated {w : String} (proper : "" ∉ words) (twice : 1 < words.count w)
      (least : ∀ v, 1 < words.count v → w ≤ v) : Refuses words (.duplicateKeyword w)

variable {words words' : List String} {v w : String} {e e' : GrammarError}

namespace Refuses

/-- There is one reason only. -/
theorem unique (h : Refuses words e) (h' : Refuses words e') : e = e' := by
  cases h with
  | noWord none =>
      subst none
      cases h' with
      | noWord => rfl
      | emptyWord mem => simp at mem
      | repeated _ twice _ => simp at twice
  | emptyWord mem =>
      cases h' with
      | noWord none => simp [none] at mem
      | emptyWord => rfl
      | repeated proper _ _ => exact absurd mem proper
  | repeated proper twice least =>
      cases h' with
      | noWord none => simp [none] at twice
      | emptyWord mem => exact absurd mem proper
      | repeated _ twice' least' =>
          rw [String.le_antisymm (least _ twice') (least' _ twice)]

/-- Words that are refused are not distinct. -/
theorem not_distinct (h : Refuses words e) : ¬Distinct words := by
  rintro ⟨any, proper, nodup⟩
  cases h with
  | noWord none => exact any none
  | emptyWord mem => exact proper mem
  | repeated _ twice _ =>
      have once := List.nodup_iff_count_le_one.mp nodup
      exact absurd twice (Nat.not_lt_of_le (once _))

/-- The order of the words is no reason. -/
theorem perm (h : Refuses words e) (same : words.Perm words') : Refuses words' e := by
  cases h with
  | noWord none =>
      subst none
      exact .noWord same.nil_eq.symm
  | emptyWord mem => exact .emptyWord (same.mem_iff.mp mem)
  | repeated proper twice least =>
      refine .repeated (fun mem => proper (same.mem_iff.mpr mem)) (same.count_eq _ ▸ twice) ?_
      intro v hv
      exact least v (same.count_eq v ▸ hv)

end Refuses

theorem Distinct.perm (h : Distinct words) (same : words.Perm words') : Distinct words' where
  ne_nil := by
    rintro rfl
    exact h.ne_nil same.eq_nil
  empty_not_mem := fun mem => h.empty_not_mem (same.mem_iff.mpr mem)
  nodup := same.nodup_iff.mp h.nodup

namespace KeywordSet

/-! ## Sorted words -/

theorem sortedWords_perm (words : List String) : (sortedWords words).Perm words :=
  List.mergeSort_perm words _

/-- Words in another order are the same words when sorted. -/
theorem sortedWords_eq_of_perm (same : words.Perm words') : sortedWords words = sortedWords words' := by
  have together := (sortedWords_perm words).trans (same.trans (sortedWords_perm words').symm)
  exact together.eq_of_pairwise (fun _ _ _ _ hab hba => String.le_antisymm hab hba)
    (pairwise_sortedWords words) (pairwise_sortedWords words')

/-- In sorted words, the first two equal neighbours are the smallest word that is repeated. -/
theorem least_of_firstRepeated? (sorted : words.Pairwise (· ≤ ·))
    (found : firstRepeated? words = some w) :
    1 < words.count w ∧ ∀ v, 1 < words.count v → w ≤ v := by
  fun_induction firstRepeated? words with
  | case1 a rest =>
      cases found
      refine ⟨by simp, fun v hv => ?_⟩
      have mem : v ∈ w :: w :: rest := List.count_pos_iff.mp (Nat.lt_trans Nat.zero_lt_one hv)
      rcases List.mem_cons.mp mem with rfl | mem
      · exact String.le_refl v
      · exact (List.pairwise_cons.mp sorted).1 v mem
  | case2 a b rest differ ih =>
      obtain ⟨before, sorted'⟩ := List.pairwise_cons.mp sorted
      obtain ⟨twice, least⟩ := ih sorted' found
      refine ⟨Nat.lt_of_lt_of_le twice List.count_le_count_cons, fun v hv => ?_⟩
      -- a first word that came again would be its own neighbour
      have later : v ≠ a := by
        rintro rfl
        rw [List.count_cons_self] at hv
        have mem : v ∈ b :: rest := List.count_pos_iff.mp (Nat.lt_of_succ_lt_succ hv)
        refine differ (String.le_antisymm (before b List.mem_cons_self) ?_)
        rcases List.mem_cons.mp mem with rfl | mem
        · exact String.le_refl v
        · exact (List.pairwise_cons.mp sorted').1 v mem
      rw [List.count_cons_of_ne later.symm] at hv
      exact least v hv
  | case3 => cases found

/-! ## The set -/

/-- A set is given by its keywords in order. -/
theorem eq_of_words {set set' : KeywordSet} (same : set.words = set'.words) : set = set' := by
  cases set
  cases set'
  cases same
  rfl

/-- Distinct words make the set of these words in order, and other words are refused. -/
theorem ofList_cases (words : List String) :
    (∃ set, ofList words = .ok set ∧ set.words = sortedWords words ∧ Distinct words) ∨
      ∃ e, ofList words = .error e ∧ Refuses words e := by
  have same := sortedWords_perm words
  unfold ofList
  split
  · rename_i mem
    exact .inr ⟨_, rfl, .emptyWord mem⟩
  · rename_i proper
    split
    · rename_i sorted
      rw [sorted] at same
      exact .inr ⟨_, rfl, .noWord same.nil_eq.symm⟩
    · rename_i first others sorted
      have ordered := pairwise_sortedWords words
      rw [sorted] at same ordered
      split
      · rename_i w found
        obtain ⟨twice, least⟩ := least_of_firstRepeated? ordered found
        exact .inr ⟨_, rfl, (Refuses.repeated (same.mem_iff.not.mpr proper) twice least).perm same⟩
      · rename_i none
        have ascending := ascending_of_firstRepeated? none ordered
        have different : (first :: others).Nodup := ascending.imp fun hab => String.ne_of_lt hab
        exact .inl ⟨_, rfl, sorted.symm,
          Distinct.perm ⟨List.cons_ne_nil _ _, same.mem_iff.not.mpr proper, different⟩ same⟩

theorem exists_ofList_iff : (∃ set, ofList words = .ok set) ↔ Distinct words := by
  rcases ofList_cases words with ⟨set, made, -, distinct⟩ | ⟨e, refused, reason⟩
  · exact iff_of_true ⟨set, made⟩ distinct
  · simp [refused, reason.not_distinct]

theorem ofList_eq_error_iff : ofList words = .error e ↔ Refuses words e := by
  rcases ofList_cases words with ⟨set, made, -, distinct⟩ | ⟨e', refused, reason⟩
  · simp only [made, reduceCtorEq, false_iff]
    exact fun reason => reason.not_distinct distinct
  · rw [refused, Except.error.injEq]
    exact ⟨fun same => same ▸ reason, fun h => reason.unique h⟩

/-- The order of the words makes no other set, and no other reason. -/
theorem ofList_eq_of_perm (same : words.Perm words') : ofList words = ofList words' := by
  rcases ofList_cases words with ⟨set, made, inOrder, distinct⟩ | ⟨e, refused, reason⟩
  · obtain ⟨set', made'⟩ := exists_ofList_iff.mpr (distinct.perm same)
    rcases ofList_cases words' with ⟨set₂, made₂, inOrder', -⟩ | ⟨e, refused, -⟩
    · rw [made, made₂, eq_of_words (inOrder.trans ((sortedWords_eq_of_perm same).trans inOrder'.symm))]
    · cases made'.symm.trans refused
  · rw [refused, ofList_eq_error_iff.mpr (reason.perm same)]

end KeywordSet

namespace Parser

variable {ρ : Type → Type}

/-! ## The choice of a set -/

/-- No keyword of a chain is refused: a cut just behind what a keyword shares with the next one, or
at its end, is a cut within the keyword. -/
theorem checkedChain_eq_ok (others : List String) (ne : ∀ v ∈ w :: others, v ≠ "") :
    checkedChain w others = .ok (keywordChain w others ne : Parser ρ Unit) := by
  induction others generalizing w with
  | nil =>
      have proper := ne w List.mem_cons_self
      have built : Keyword.ofText w = .ok ⟨w, none, proper, by simp⟩ := dif_neg proper
      rw [checkedChain, built]
      rfl
  | cons next rest ih =>
      have proper := ne w List.mem_cons_self
      have within := Nat.min_le_right (commonLength w.toList next.toList + 1) w.length
      have built : Keyword.withCut w (min (commonLength w.toList next.toList + 1) w.length) =
          .ok (.before w proper next) :=
        (dif_neg proper).trans (dif_neg (Nat.not_lt_of_le within))
      have later := ih fun v hv => ne v (List.mem_cons_of_mem _ hv)
      simp only [checkedChain, built, Except.bind, later]
      rfl

theorem keywordInComposedOf_eq (words : List String) :
    (keywordInComposedOf words : Except GrammarError (Parser ρ Unit)) =
      (KeywordSet.ofList words).map keywordInComposed := by
  unfold keywordInComposedOf
  cases KeywordSet.ofList words with
  | error e => rfl
  | ok set =>
      simp only [Except.bind, checkedChain_eq_ok set.others set.word_ne]
      rfl

/-! ## Both parsers -/

/-- The parser was made of the words, in either way. -/
def MadeOf (words : List String) (p : Parser ρ Unit) : Prop :=
  keywordInOf words = .ok p ∨ keywordInComposedOf words = .ok p

theorem map_ofList_eq_ok {form : KeywordSet → Parser ρ Unit} {p : Parser ρ Unit} :
    (KeywordSet.ofList words).map form = .ok p ↔
      ∃ set, KeywordSet.ofList words = .ok set ∧ form set = p := by
  cases KeywordSet.ofList words <;> simp [Except.map]

theorem exists_map_ofList_iff {form : KeywordSet → Parser ρ Unit} :
    (∃ p, (KeywordSet.ofList words).map form = .ok p) ↔ Distinct words := by
  simp only [map_ofList_eq_ok, ← KeywordSet.exists_ofList_iff]
  exact ⟨fun ⟨_, set, made, _⟩ => ⟨set, made⟩, fun ⟨set, made⟩ => ⟨_, set, made, rfl⟩⟩

theorem map_ofList_eq_error_iff {form : KeywordSet → Parser ρ Unit} :
    (KeywordSet.ofList words).map form = .error e ↔ Refuses words e := by
  rw [← KeywordSet.ofList_eq_error_iff]
  cases KeywordSet.ofList words <;> simp [Except.map]

/-- A parser that is made of some words means what the pass over their set means. -/
theorem MadeOf.meaning {p : Parser ρ Unit} (h : MadeOf words p) (g : Grammar ρ) (w : Setting)
    (n : Nat) :
    ∃ set, KeywordSet.ofList words = .ok set ∧ g.meaning p w n = g.meaning (keywordIn set) w n := by
  rcases h with h | h
  · obtain ⟨set, made, rfl⟩ := map_ofList_eq_ok.mp h
    exact ⟨set, made, rfl⟩
  · rw [keywordInComposedOf_eq] at h
    obtain ⟨set, made, rfl⟩ := map_ofList_eq_ok.mp h
    obtain ⟨o, m, -, single, choice⟩ := KeywordSet.meaning_keywordInComposed g set w n
    exact ⟨set, made, choice.trans single.symm⟩

/-- Words make the two parsers of a set exactly if they are distinct, and otherwise both are refused
for the same reason, which is never a cut. Words in another order make the same parsers; and whichever
of them is run over a text, in whatever state, comes to the same outcome at the same place. -/
theorem keywordIn_construction (words : List String) :
    let single : Except GrammarError (Parser ρ Unit) := keywordInOf words
    let choice : Except GrammarError (Parser ρ Unit) := keywordInComposedOf words
    ((∃ p, single = .ok p) ↔ Distinct words) ∧ ((∃ p, choice = .ok p) ↔ Distinct words) ∧
      (∀ e, single = .error e ↔ Refuses words e) ∧ (∀ e, choice = .error e ↔ Refuses words e) ∧
      (∀ w cut, choice ≠ .error (.cutIndexOutOfRange w cut)) ∧
      ∀ words', words.Perm words' →
        single = keywordInOf words' ∧ choice = keywordInComposedOf words' ∧
        ∀ p p' : Parser ρ Unit, MadeOf words p → MadeOf words' p' →
          ∀ (g : Grammar ρ) (ctx : Context) (r : Reader), ctx.cursor.Follows r [] →
            ∃ o ctx₁ ctx₂ m, g.parse p ctx = .ok o ctx₁ ∧ g.parse p' ctx = .ok o ctx₂ ∧
              ctx₁.cursor.Follows { r with index := m } [] ∧
              ctx₂.cursor.Follows { r with index := m } [] := by
  intro single choice
  have composed : choice = (KeywordSet.ofList words).map keywordInComposed :=
    keywordInComposedOf_eq words
  have refused (e : GrammarError) : choice = .error e ↔ Refuses words e := by
    rw [composed]
    exact map_ofList_eq_error_iff
  refine ⟨exists_map_ofList_iff, by rw [composed]; exact exists_map_ofList_iff,
    fun e => map_ofList_eq_error_iff, refused, ?_, fun words' same => ?_⟩
  · intro w cut broken
    cases (refused _).mp broken
  · have sets := KeywordSet.ofList_eq_of_perm same
    refine ⟨congrArg (Except.map keywordIn) sets, ?_, ?_⟩
    · rw [composed, sets]
      exact (keywordInComposedOf_eq words').symm
    · intro p p' made made' g ctx r follows
      obtain ⟨set, hset, means⟩ := made.meaning g ⟨r.text, ctx.skip⟩ r.index
      obtain ⟨set', hset', means'⟩ := made'.meaning g ⟨r.text, ctx.skip⟩ r.index
      cases hset.symm.trans (sets.trans hset')
      obtain ⟨o, m, -, came, -⟩ :=
        KeywordSet.meaning_keywordInComposed g set ⟨r.text, ctx.skip⟩ r.index
      obtain ⟨ctx₁, parsed₁, follows₁, -⟩ := Grammar.parse_eq_ok follows (means.trans came)
      obtain ⟨ctx₂, parsed₂, follows₂, -⟩ := Grammar.parse_eq_ok follows (means'.trans came)
      exact ⟨o, ctx₁, ctx₂, m, parsed₁, parsed₂, follows₁, follows₂⟩

/-- One pass over some words, and the choice of the same words in another order, with a mark open
before them. -/
theorem keywordIn_construction_in_two_orders :
    ["int", "in", "into"].Perm ["into", "int", "in"] ∧
      let source := Source.ofItems [.char 'i', .char 'n', .char '!']
      let cur := ((Cursor.ofSource source).performAll [.mark]).2
      ∃ p p' : Parser (fun _ => Empty) Unit, keywordInOf ["int", "in", "into"] = .ok p ∧
        keywordInComposedOf ["into", "int", "in"] = .ok p' ∧
        ∃ o ctx₁ ctx₂, Grammar.withoutRules.parse p (.ofCursor cur none true) = .ok o ctx₁ ∧
          Grammar.withoutRules.parse p' (.ofCursor cur none true) = .ok o ctx₂ := by
  have same : ["int", "in", "into"].Perm ["into", "int", "in"] := by decide
  refine ⟨same, ?_⟩
  intro source cur
  have follows : cur.Follows ⟨['i', 'n', '!'], 0, [0]⟩ [] :=
    (Cursor.performAll_follows (Cursor.Follows.ofSource source) _).2
  have distinct : Distinct ["int", "in", "into"] := ⟨by decide, by decide, by decide⟩
  obtain ⟨single, choice, -, -, -, orders⟩ :=
    @keywordIn_construction (fun _ => Empty) ["int", "in", "into"]
  obtain ⟨p, made⟩ := single.mpr distinct
  obtain ⟨p', made'⟩ := choice.mpr distinct
  obtain ⟨-, sameChoice, outcomes⟩ := orders _ same
  rw [sameChoice] at made'
  obtain ⟨o, ctx₁, ctx₂, m, parsed, parsed', -⟩ :=
    outcomes p p' (.inl made) (.inr made') Grammar.withoutRules (.ofCursor cur none true) _ follows
  exact ⟨p, p', made, made', o, ctx₁, ctx₂, parsed, parsed'⟩

end Parser

end TextGrammar
