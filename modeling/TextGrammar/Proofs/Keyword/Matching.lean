import Mathlib.Data.List.Infix
import TextGrammar.Proofs.Keyword.CommonLength
import TextGrammar.Proofs.Refinement.Parse

set_option autoImplicit false

/-! # What a set of keywords matches

Of the keywords of a set that a text begins with, the shortest is matched. If there is none, the text
is read as far as any keyword goes along with it, and the message names the next letter of the last
keyword that goes that far. Both are told in one pass over the keywords in order, in which no letter
is read twice. -/

namespace TextGrammar

namespace KeywordSet

variable {words : List String} {rest : List Char} {v k next : String}

/-- Among `words`, `k` is the shortest that `rest` begins with. -/
structure Matches (words : List String) (rest : List Char) (k : String) : Prop where
  mem : k ∈ words
  isPrefix : k.toList <+: rest
  shortest : ∀ v ∈ words, v.toList <+: rest → k.length ≤ v.length

/-- With none of `words` does `rest` begin, but none has more letters in common with it than `k`, and
among those that have as many, `k` is the last. -/
structure Closest (words : List String) (rest : List Char) (k : String) : Prop where
  mem : k ∈ words
  none_isPrefix : ∀ v ∈ words, ¬v.toList <+: rest
  most : ∀ v ∈ words, commonLength v.toList rest ≤ commonLength k.toList rest
  last : ∀ v ∈ words, commonLength v.toList rest = commonLength k.toList rest → v ≤ k

/-- A text comes before all that it is a proper prefix of. -/
theorem not_lt_of_isPrefix (h : next.toList <+: v.toList) : ¬v < next :=
  fun hlt => List.IsPrefix.le h (String.lt_iff.mp hlt)

/-! ## One keyword more -/

/-- A keyword that the rest begins with is the shortest one if all others come after it. -/
theorem Matches.first (h : v.toList <+: rest) (first : ∀ u ∈ words, v < u) :
    Matches (v :: words) rest v := by
  refine ⟨List.mem_cons_self, h, fun u hu hprefix => ?_⟩
  rcases List.mem_cons.mp hu with rfl | hu
  · exact Nat.le_refl _
  · -- of two prefixes of one text, the shorter is a prefix of the longer and comes before it
    refine Nat.le_of_lt_succ (Nat.lt_of_not_le fun longer => ?_)
    rw [← String.length_toList, ← String.length_toList] at longer
    have inner := List.prefix_of_prefix_length_le hprefix h (Nat.le_of_succ_le longer)
    exact not_lt_of_isPrefix inner (first u hu)

/-- A keyword that the rest does not begin with changes no match. -/
theorem Matches.cons (h : Matches words rest k) (hv : ¬v.toList <+: rest) :
    Matches (v :: words) rest k := by
  refine ⟨List.mem_cons_of_mem v h.mem, h.isPrefix, fun u hu hprefix => ?_⟩
  rcases List.mem_cons.mp hu with rfl | hu
  · exact absurd hprefix hv
  · exact h.shortest u hu hprefix

/-- An earlier keyword with no more letters in common does not come closer. -/
theorem Closest.cons (h : Closest words rest k) (hv : ¬v.toList <+: rest)
    (no_more : commonLength v.toList rest ≤ commonLength k.toList rest) (earlier : v < k) :
    Closest (v :: words) rest k := by
  refine ⟨List.mem_cons_of_mem v h.mem, fun u hu => ?_, fun u hu => ?_, fun u hu same => ?_⟩
  · rcases List.mem_cons.mp hu with rfl | hu
    · exact hv
    · exact h.none_isPrefix u hu
  · rcases List.mem_cons.mp hu with rfl | hu
    · exact no_more
    · exact h.most u hu
  · rcases List.mem_cons.mp hu with rfl | hu
    · exact String.lt_asymm earlier
    · exact h.last u hu same

/-- A keyword comes closest if all others have fewer letters in common with the rest than it has, and
come after it. A later keyword that the rest begins with would be a prefix of this one. -/
theorem Closest.first (hv : ¬v.toList <+: rest) (later : ∀ u ∈ words, v < u)
    (fewer : ∀ u ∈ words, commonLength v.toList u.toList < commonLength v.toList rest) :
    Closest (v :: words) rest v := by
  have common : ∀ u ∈ words, commonLength u.toList rest = commonLength u.toList v.toList := by
    intro u hu
    refine commonLength_eq_of_lt ?_
    rw [commonLength_comm]
    exact fewer u hu
  have less : ∀ u ∈ words, commonLength u.toList rest < commonLength v.toList rest := by
    intro u hu
    rw [common u hu, commonLength_comm]
    exact fewer u hu
  refine ⟨List.mem_cons_self, fun u hu => ?_, fun u hu => ?_, fun u hu same => ?_⟩
  · rcases List.mem_cons.mp hu with rfl | hu
    · exact hv
    · intro hprefix
      have inner : u.toList <+: v.toList := by
        rw [isPrefix_iff, ← common u hu]
        exact isPrefix_iff.mp hprefix
      exact not_lt_of_isPrefix inner (later u hu)
  · rcases List.mem_cons.mp hu with rfl | hu
    · exact Nat.le_refl _
    · exact Nat.le_of_lt (less u hu)
  · rcases List.mem_cons.mp hu with rfl | hu
    · exact String.lt_irrefl _
    · exact absurd same (Nat.ne_of_lt (less u hu))

/-- The later keywords have no more in common with the first one than the next has. -/
theorem commonLength_le_next {others : List String} (h : (v :: next :: others).Pairwise (· < ·)) :
    ∀ u ∈ next :: others, commonLength v.toList u.toList ≤ commonLength v.toList next.toList := by
  obtain ⟨first, tail⟩ := List.pairwise_cons.mp h
  intro u hu
  rcases List.mem_cons.mp hu with rfl | hu
  · exact Nat.le_refl _
  · exact commonLength_le_of_lt (String.lt_iff.mp (first next List.mem_cons_self))
      (String.lt_iff.mp ((List.pairwise_cons.mp tail).1 u hu))

/-! ## One pass over the keywords -/

/-- Letters that have been read are not compared again. -/
theorem add_commonLength_rest {w : Setting} {n offset : Nat} {letters : List Char}
    (h : offset ≤ commonLength letters (w.rest n)) :
    offset + commonLength (letters.drop offset) (w.rest (n + offset)) =
      commonLength letters (w.rest n) := by
  have behind : w.rest (n + offset) = (w.rest n).drop offset := List.drop_drop.symm
  rw [behind]
  exact add_commonLength_drop h

/-- What the pass over ascending keywords comes to: the shortest match, or the mismatch of the keyword
that comes closest. The induction is on the keywords; that as many letters as have been read are in
common with the first of them carries it from one to the next. -/
theorem candidates_meaning {w : Setting} {n offset : Nat} {others : List String}
    (ascending : (v :: others).Pairwise (· < ·))
    (offset_le : offset ≤ commonLength v.toList (w.rest n)) :
    (∃ k, Matches (v :: others) (w.rest n) k ∧
      Meaning.candidates (forked v others) offset w n = .ok (.success (), n + k.length)) ∨
    ∃ k c, Closest (v :: others) (w.rest n) k ∧
      k.toList[commonLength k.toList (w.rest n)]? = some c ∧
      Meaning.candidates (forked v others) offset w n =
        .ok (Meaning.mismatch w c (n + commonLength k.toList (w.rest n)),
          n + commonLength k.toList (w.rest n)) := by
  induction others generalizing v offset with
  | nil =>
      have pass := @Meaning.candidates_cons n ⟨v.toList, none⟩ [] offset _ w
        (add_commonLength_rest offset_le)
      cases hc : v.toList[commonLength v.toList (w.rest n)]? with
      | none =>
          have whole : v.toList <+: w.rest n := isPrefix_iff.mpr hc
          simp only [hc] at pass
          rw [commonLength_of_isPrefix whole, String.length_toList] at pass
          exact .inl ⟨v, .first whole (by simp), pass⟩
      | some c =>
          have broken : ¬v.toList <+: w.rest n := by simp [isPrefix_iff, hc]
          simp only [hc] at pass
          exact .inr ⟨v, c, .first broken (by simp) (by simp), hc, pass⟩
  | cons next others ih =>
      obtain ⟨first, tail⟩ := List.pairwise_cons.mp ascending
      have pass := @Meaning.candidates_cons n
        ⟨v.toList, some (commonLength v.toList next.toList)⟩ (forked next others) offset _ w
        (add_commonLength_rest offset_le)
      cases hc : v.toList[commonLength v.toList (w.rest n)]? with
      | none =>
          have whole : v.toList <+: w.rest n := isPrefix_iff.mpr hc
          simp only [hc] at pass
          rw [commonLength_of_isPrefix whole, String.length_toList] at pass
          exact .inl ⟨v, .first whole first, pass⟩
      | some c =>
          have broken : ¬v.toList <+: w.rest n := by simp [isPrefix_iff, hc]
          simp only [hc, Option.any_some, decide_eq_true_eq] at pass
          by_cases onward :
              commonLength v.toList (w.rest n) ≤ commonLength v.toList next.toList
          · -- the next keyword goes along with the rest as far as this one does
            have read := commonLength_le_of_le onward
            rw [if_pos onward] at pass
            rcases ih tail read with ⟨k, hk, result⟩ | ⟨k, d, hk, hd, result⟩
            · exact .inl ⟨k, hk.cons broken, pass.trans result⟩
            · have no_more := Nat.le_trans read (hk.most next List.mem_cons_self)
              exact .inr ⟨k, d, hk.cons broken no_more (first k hk.mem), hd, pass.trans result⟩
          · rw [if_neg onward] at pass
            refine .inr ⟨v, c, .first broken first fun u hu => ?_, hc, pass⟩
            exact Nat.lt_of_le_of_lt (commonLength_le_next ascending u hu) (Nat.lt_of_not_le onward)

/-! ## The parser of a set -/

/-- Words of which none is empty and that are different when sorted make a set. -/
theorem exists_ofList {first : String} {others : List String} (nonempty : "" ∉ words)
    (sorted : sortedWords words = first :: others)
    (different : firstRepeated? (first :: others) = none) :
    ∃ set, ofList words = .ok set ∧ set.words = first :: others := by
  unfold ofList
  rw [dif_neg nonempty]
  split
  · rename_i none
    rw [none] at sorted
    cases sorted
  · rename_i first' others' sorted'
    cases sorted.symm.trans sorted'
    split
    · rename_i w repeated
      rw [different] at repeated
      cases repeated
    · exact ⟨_, rfl, rfl⟩

/-- The keywords of a set are those that it was made of. -/
theorem mem_words_of_ofList {set : KeywordSet} (h : ofList words = .ok set) :
    v ∈ set.words ↔ v ∈ words := by
  unfold ofList at h
  split at h
  · cases h
  · split at h
    · cases h
    · rename_i first others sorted
      split at h
      · cases h
      · cases h
        have kept : v ∈ sortedWords words ↔ v ∈ words := mem_sortedWords
        rw [sorted] at kept
        exact kept

theorem Matches.congr {words' : List String} (h : Matches words rest k)
    (same : ∀ v, v ∈ words ↔ v ∈ words') : Matches words' rest k :=
  ⟨(same k).mp h.mem, h.isPrefix, fun v hv => h.shortest v ((same v).mpr hv)⟩

theorem Closest.congr {words' : List String} (h : Closest words rest k)
    (same : ∀ v, v ∈ words ↔ v ∈ words') : Closest words' rest k :=
  ⟨(same k).mp h.mem, fun v hv => h.none_isPrefix v ((same v).mpr hv),
    fun v hv => h.most v ((same v).mpr hv), fun v hv => h.last v ((same v).mpr hv)⟩

/-- A message of a mismatch is never the one for a set that has been gone through. -/
theorem mismatch_ne (expected : String) (found : Option Char) :
    Primitive.mismatch expected found ≠ "expected keyword not found." := by
  intro same
  have inner : " expected but ".toList <:+: (Primitive.mismatch expected found).toList := by
    refine ⟨expected.toList, (Text.foundName found).toList ++ " found.".toList, ?_⟩
    simp only [Primitive.mismatch, String.toList_append, List.append_assoc]
  rw [same] at inner
  exact absurd inner (by decide)

/-- A set of keywords succeeds behind the characters to pass over if the rest of the text begins with
one of the keywords, and reads the shortest such. Otherwise it reads as many letters as any keyword
has in common with the rest, and says that the next letter of the last keyword with so many was
expected, and what is there. It may always be taken back, and the pass never comes to the end of the
keywords without a verdict. -/
theorem parse_keywordIn {ρ : Type → Type} (g : Grammar ρ) {set : KeywordSet}
    (made : ofList words = .ok set) {ctx : Context} {r : Reader} (h : ctx.cursor.Follows r []) :
    let w : Setting := ⟨r.text, ctx.skip⟩
    let start := w.passOver r.index
    let rest := w.rest start
    ∃ o ctx' m, g.parse (Parser.keywordIn set) ctx = .ok o ctx' ∧
      ctx'.cursor.Follows { r with index := m } [] ∧
      (o.isSuccessful = true ↔ ∃ k ∈ words, k.toList <+: rest) ∧
      ((∃ k, Matches words rest k ∧ o.status = .ok () ∧ m = start + k.length) ∨
        ∃ k c, Closest words rest k ∧ k.toList[commonLength k.toList rest]? = some c ∧
          o.status = .error (Primitive.mismatch (Text.charName c)
            rest[commonLength k.toList rest]?) ∧
          m = start + commonLength k.toList rest) ∧
      o.backtrack = true ∧ o.span = some (w.span start m) ∧
      o.message? ≠ some "expected keyword not found." := by
  intro w start rest
  have same (v : String) : v ∈ set.words ↔ v ∈ words := mem_words_of_ofList made
  rcases @candidates_meaning set.first w start 0 set.others set.ascending (Nat.zero_le _) with
    ⟨k, hk, pass⟩ | ⟨k, c, hk, hc, pass⟩
  · obtain ⟨ctx', parsed, follows, -⟩ :=
      @Grammar.parse_eq_ok _ g _ (Parser.keywordIn set) ctx r h _ _ (Meaning.framed_eq_ok pass)
    have hk := hk.congr same
    refine ⟨_, ctx', _, parsed, follows, ?_, .inl ⟨k, hk, rfl, rfl⟩, rfl, rfl, ?_⟩
    · exact ⟨fun _ => ⟨k, hk.mem, hk.isPrefix⟩, fun _ => rfl⟩
    · exact Option.some_ne_none _ ∘ Eq.symm
  · obtain ⟨ctx', parsed, follows, -⟩ :=
      @Grammar.parse_eq_ok _ g _ (Parser.keywordIn set) ctx r h _ _ (Meaning.framed_eq_ok pass)
    have hk := hk.congr same
    have found : w.next? (start + commonLength k.toList rest) =
        rest[commonLength k.toList rest]? := List.getElem?_drop.symm
    refine ⟨_, ctx', _, parsed, follows, ?_, .inr ⟨k, c, hk, hc, ?_, rfl⟩, rfl, rfl, ?_⟩
    · refine ⟨fun success => absurd success Bool.false_ne_true, ?_⟩
      rintro ⟨v, hv, hprefix⟩
      exact absurd hprefix (hk.none_isPrefix v hv)
    · rw [← found]
      rfl
    · exact fun unreached => mismatch_ne _ _ (Option.some.inj unreached)

/-- Of two keywords that the rest begins with, the shorter is read. -/
theorem parse_keywordIn_shorter :
    ∃ set, ofList ["let", "int", "in"] = .ok set ∧
      let source := Source.ofItems [.char ' ', .char 'i', .char 'n', .char 't']
      ∃ o ctx', Grammar.withoutRules.parse (Parser.keywordIn set)
          (.ofCursor (.ofSource source) (some (.exact ' ')) false) = .ok o ctx' ∧
        o.isSuccessful = true ∧ ctx'.cursor.position.index = 3 := by
  obtain ⟨set, made, -⟩ := @exists_ofList ["let", "int", "in"] "in" ["int", "let"] (by decide)
    (by simp [sortedWords, List.mergeSort]) (by decide)
  refine ⟨set, made, ?_⟩
  intro source
  have follows : (Context.ofCursor (.ofSource source) (some (.exact ' ')) false).cursor.Follows
      ⟨[' ', 'i', 'n', 't'], 0, []⟩ [] := Cursor.Follows.ofSource source
  obtain ⟨o, ctx', m, parsed, there, success, verdict, -⟩ :=
    parse_keywordIn Grammar.withoutRules made follows
  have one : "in".toList <+: Setting.rest ⟨[' ', 'i', 'n', 't'], some (.exact ' ')⟩
      (Setting.passOver ⟨[' ', 'i', 'n', 't'], some (.exact ' ')⟩ 0) := by
    decide
  refine ⟨o, ctx', parsed, success.mpr ⟨"in", by simp, one⟩, there.index_position.trans ?_⟩
  rcases verdict with ⟨k, hk, -, rfl⟩ | ⟨k, c, hk, -⟩
  · have short := hk.shortest "in" (by simp) one
    have mem := hk.mem
    simp only [List.mem_cons, List.not_mem_nil, or_false] at mem
    rcases mem with rfl | rfl | rfl
    · exact absurd short (by decide)
    · exact absurd short (by decide)
    · rfl
  · exact absurd one (hk.none_isPrefix "in" (by simp))

end KeywordSet

end TextGrammar
