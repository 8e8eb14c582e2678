import TextGrammar.Proofs.Keyword.Matching

set_option autoImplicit false

/-! # A set of keywords as a choice

A choice between the keywords of a set, each of which commits as soon as it can no longer be taken for
the next one, comes to what the pass over the set comes to. Where the pass goes on to the next keyword,
the choice goes back and reads the same letters again; where the pass ends, the keyword is committed,
and the choice around it lifts the commitment. -/

namespace TextGrammar

namespace KeywordSet

variable {ρ : Type → Type} {w : Setting} {start : Nat}

/-- A keyword of a chain is committed at a mismatch behind its fork, and at no other one. -/
theorem cut_before {v next : String} (v_ne : v ≠ "") {common : Nat} (short : common < v.length) :
    (Keyword.before v v_ne next).cut?.any (· ≤ common) =
      decide (commonLength v.toList next.toList < common) := by
  simp only [Keyword.before, Option.any_some, decide_eq_decide]
  omega

/-- The chain of keywords comes to what the pass over them comes to, except that it tells which
stretch of the text its last choice has covered. The induction is on the keywords, as for the pass. -/
theorem keywordChain_meaning (call : {β : Type} → ρ β → Meaning β) {v : String}
    {others : List String} (ne : ∀ u ∈ v :: others, u ≠ "") {offset : Nat}
    (entered : w.passOver start = start)
    (offset_le : offset ≤ commonLength v.toList (w.rest start)) :
    ∃ o span m, Meaning.candidates (forked v others) offset w start = .ok (o, m) ∧
      (Parser.keywordChain v others ne).bodyMeaning call w start = .ok ({ o with span }, m) ∧
      o.backtrack = true := by
  induction others generalizing v offset with
  | nil =>
      have pass := @Meaning.candidates_cons start ⟨v.toList, none⟩ [] offset _ w
        (add_commonLength_rest offset_le)
      let k : Keyword := ⟨v, none, ne v List.mem_cons_self, by simp⟩
      cases hc : v.toList[commonLength v.toList (w.rest start)]? with
      | none =>
          simp only [hc] at pass
          exact ⟨_, none, _, pass, @Meaning.keyword_eq_success k w start hc, rfl⟩
      | some c =>
          simp only [hc] at pass
          exact ⟨_, none, _, pass, @Meaning.keyword_eq_mismatch k w start c hc, rfl⟩
  | cons next others ih =>
      have pass := @Meaning.candidates_cons start
        ⟨v.toList, some (commonLength v.toList next.toList)⟩ (forked next others) offset _ w
        (add_commonLength_rest offset_le)
      let k : Keyword := .before v (ne v List.mem_cons_self) next
      have chain_ne : ∀ u ∈ next :: others, u ≠ "" := fun u hu => ne u (List.mem_cons_of_mem _ hu)
      let later : Meaning Unit := (Parser.keywordChain next others chain_ne).bodyMeaning call
      cases hc : v.toList[commonLength v.toList (w.rest start)]? with
      | none =>
          simp only [hc] at pass
          have matched := (congrArg (Meaning.keyword k w) entered).trans
            (@Meaning.keyword_eq_success k w start hc)
          have first := Meaning.map_eq_ok id (Meaning.framed_eq_ok matched)
          have chosen := Meaning.choose_eq_first (q := (Meaning.framed later).map id) first rfl
          exact ⟨_, _, _, pass, chosen, rfl⟩
      | some c =>
          have short : commonLength v.toList (w.rest start) < v.length := by
            rw [← String.length_toList]
            exact (List.getElem?_eq_some_iff.mp hc).1
          have matched := (congrArg (Meaning.keyword k w) entered).trans
            (@Meaning.keyword_eq_mismatch k w start c hc)
          have committed : k.cut?.any (· ≤ commonLength v.toList (w.rest start)) = _ :=
            cut_before _ short
          have first := Meaning.map_eq_ok id (Meaning.framed_eq_ok matched)
          simp only [hc, Option.any_some, decide_eq_true_eq] at pass
          by_cases onward :
              commonLength v.toList (w.rest start) ≤ commonLength v.toList next.toList
          · -- not committed: the choice goes back, and the pass goes on
            obtain ⟨⟨status, backtrack, inner⟩, span, m, result, chain, rfl⟩ :=
              ih chain_ne (commonLength_le_of_le onward)
            have second := Meaning.map_eq_ok id
              (Meaning.framed_eq_ok ((congrArg (later w) entered).trans chain))
            rw [if_pos onward] at pass
            rw [decide_eq_false (Nat.not_lt_of_le onward)] at committed
            have soft : ¬(!!(k.cut?.any (· ≤ commonLength v.toList (w.rest start)))) = true := by
              rw [committed]
              decide
            have chosen := Meaning.choose_eq_second first soft second
            cases status with
            | error message => exact ⟨_, _, _, pass.trans result, chosen, rfl⟩
            | ok _ => exact ⟨_, _, _, pass.trans result, chosen, rfl⟩
          · -- committed: the choice ends here, and so does the pass
            rw [if_neg onward] at pass
            rw [decide_eq_true (Nat.lt_of_not_le onward)] at committed
            have final : (!!(k.cut?.any (· ≤ commonLength v.toList (w.rest start)))) = true := by
              rw [committed]
              rfl
            have chosen := Meaning.choose_eq_first (q := (Meaning.framed later).map id) first final
            exact ⟨_, _, _, pass, chosen, rfl⟩

/-- The choice of the keywords of a set means what the pass over them means. -/
theorem meaning_keywordInComposed (g : Grammar ρ) (set : KeywordSet) (w : Setting) (n : Nat) :
    ∃ o m, o.backtrack = true ∧ g.meaning (Parser.keywordIn set) w n = .ok (o, m) ∧
      g.meaning (Parser.keywordInComposed set) w n = .ok (o, m) := by
  have entered := w.passOver_passOver n
  obtain ⟨⟨status, backtrack, inner⟩, span, m, pass, chain, rfl⟩ :=
    keywordChain_meaning (g.callMeaning (g.all.length * (w.left n + 1) + 1)) set.word_ne entered
      (Nat.zero_le _)
  have single := Meaning.framed_eq_ok pass
  have choice := Meaning.framed_eq_ok (Meaning.map_eq_ok id
    (Meaning.framed_eq_ok ((congrArg (Parser.bodyMeaning _ _ w) entered).trans chain)))
  cases status with
  | error message => exact ⟨_, _, rfl, single, choice⟩
  | ok _ => exact ⟨_, _, rfl, single, choice⟩

/-- Both parsers of a set come to the same outcome, which may be taken back, at the same place. -/
theorem parse_keywordInComposed (g : Grammar ρ) (set : KeywordSet) {ctx : Context} {r : Reader}
    (h : ctx.cursor.Follows r []) :
    ∃ o ctx₁ ctx₂ m, g.parse (Parser.keywordIn set) ctx = .ok o ctx₁ ∧
      g.parse (Parser.keywordInComposed set) ctx = .ok o ctx₂ ∧
      o.backtrack = true ∧
      ctx₁.cursor.Follows { r with index := m } [] ∧
      ctx₂.cursor.Follows { r with index := m } [] := by
  obtain ⟨o, m, allowed, single, choice⟩ :=
    meaning_keywordInComposed g set ⟨r.text, ctx.skip⟩ r.index
  obtain ⟨ctx₁, parsed₁, follows₁, -⟩ := Grammar.parse_eq_ok h single
  obtain ⟨ctx₂, parsed₂, follows₂, -⟩ := Grammar.parse_eq_ok h choice
  exact ⟨o, ctx₁, ctx₂, m, parsed₁, parsed₂, allowed, follows₁, follows₂⟩

/-- Where both parsers stop inside the longer of two keywords, with a mark open before them. -/
theorem parse_keywordInComposed_mismatch :
    ∃ set, ofList ["interface", "into"] = .ok set ∧
      let source := Source.ofItems [.char '-', .char 'i', .char 'n', .char 't', .char '!']
      let ctx := Context.ofCursor ((Cursor.ofSource source).performAll [.mark, .read]).2 none false
      ∃ o ctx₁ ctx₂, Grammar.withoutRules.parse (Parser.keywordIn set) ctx = .ok o ctx₁ ∧
        Grammar.withoutRules.parse (Parser.keywordInComposed set) ctx = .ok o ctx₂ := by
  obtain ⟨set, made, -⟩ := @exists_ofList ["interface", "into"] "interface" ["into"] (by decide)
    (by simp [sortedWords, List.mergeSort]) (by decide)
  refine ⟨set, made, ?_⟩
  intro source ctx
  have follows : ctx.cursor.Follows ⟨['-', 'i', 'n', 't', '!'], 1, [0]⟩ [] :=
    (Cursor.performAll_follows (Cursor.Follows.ofSource source) _).2
  obtain ⟨o, ctx₁, ctx₂, -, single, choice, -⟩ :=
    parse_keywordInComposed Grammar.withoutRules set follows
  exact ⟨o, ctx₁, ctx₂, single, choice⟩

end KeywordSet

end TextGrammar
