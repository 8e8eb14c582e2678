import Mathlib
import TextGrammar.Proofs.CharClass.Members
import TextGrammar.Proofs.Commitment.Conclusion
import TextGrammar.Proofs.Keyword.CommonLength

set_option autoImplicit false

/-! # Several characters at once

A primitive that reads several characters fuses them: it goes through them in a loop of its own, without
a mark. Where nothing is passed over, it does what a parser does that is put together from parsers of
one character each: a run of characters is a repetition, and a keyword is its letters one after another.
Both go as far, also when they fail, as long as the run is not longer than a repetition can be. -/

namespace TextGrammar

variable {ρ : Type → Type} {α β : Type}

namespace Setting

variable {w : Setting} {n : Nat} {accept : Char → Bool} {c : Char}

theorem passOver_of_bare (bare : w.skip = none) (n : Nat) : w.passOver n = n := by
  rw [passOver, bare]

/-- An accepted character is one more than those behind it. -/
theorem runLength_of_accepted (next : w.next? n = some c) (accepted : accept c = true) :
    w.runLength accept n = w.runLength accept (n + 1) + 1 := by
  rw [runLength, rest_eq_cons next, List.takeWhile_cons, if_pos accepted, List.length_cons, runLength]

/-- A character that is not accepted, or the end, ends a run. -/
theorem runLength_of_refused (refused : ∀ c, w.next? n = some c → accept c = false) :
    w.runLength accept n = 0 := by
  unfold runLength
  cases next : w.next? n with
  | none => rw [rest_eq_nil next, List.takeWhile_nil, List.length_nil]
  | some c =>
      rw [rest_eq_cons next, List.takeWhile_cons, if_neg (by simp [refused c next]), List.length_nil]

/-- At every place a run goes on with an accepted character, or it ends. -/
theorem accepted_or_refused (w : Setting) (accept : Char → Bool) (n : Nat) :
    (∃ c, w.next? n = some c ∧ accept c = true) ∨
      ∀ c, w.next? n = some c → accept c = false := by
  cases next : w.next? n with
  | none => exact .inr fun c same => nomatch same
  | some c =>
      cases accepted : accept c with
      | true => exact .inl ⟨c, rfl, accepted⟩
      | false => exact .inr fun c' same => Option.some.inj same ▸ accepted

theorem add_runLength_le {w : Setting} (accept : Char → Bool) {n : Nat} (within : n ≤ w.text.length) :
    n + w.runLength accept n ≤ w.text.length := by
  have inside : w.runLength accept n ≤ (w.text.drop n).length :=
    (List.takeWhile_sublist accept).length_le
  rw [List.length_drop] at inside
  omega

/-- What is left of a run behind some of its characters. -/
theorem runLength_of_le {k : Nat} (enough : k ≤ w.runLength accept n) :
    w.runLength accept n = k + w.runLength accept (n + k) := by
  induction k generalizing n with
  | zero => rw [Nat.zero_add, Nat.add_zero]
  | succ k ih =>
      rcases w.accepted_or_refused accept n with ⟨c, next, accepted⟩ | refused
      · have run := runLength_of_accepted next accepted
        have rest := ih (n := n + 1) (by omega)
        rw [Nat.add_right_comm, Nat.add_assoc] at rest
        omega
      · rw [runLength_of_refused refused] at enough
        omega

end Setting

namespace Meaning

/-! ## A repetition of single characters -/

/-- The meaning reads one accepted character, and fails where there is none. It commits to nothing. -/
structure ReadsOne (item : Meaning α) (w : Setting) (accept : Char → Bool) : Prop where
  accepted {n : Nat} {c : Char} (next : w.next? n = some c) (accepted : accept c = true) :
    ∃ value, item.ComesTo w n (.ok value) true (n + 1)
  refused {n : Nat} (refused : ∀ c, w.next? n = some c → accept c = false) :
    ∃ message, item.ComesTo w n (.error message) true n

variable {w : Setting} {n k : Nat} {accept : Char → Bool} {item : Meaning α} {c : Char}

theorem readsOne_one (accept : Char → Bool) (message : Option Char → String)
    (bare : w.skip = none) :
    ReadsOne (framed (one (Primitive.test accept) message)) w accept where
  accepted {n c} next accepted := by
    refine ⟨(), (comesTo_framed _).mpr ?_⟩
    rw [Setting.passOver_of_bare bare]
    exact ⟨none, by simp [one, next, Primitive.test, accepted, Outcome.success]⟩
  refused {n} refused := by
    refine ⟨message (w.next? n), (comesTo_framed _).mpr ?_⟩
    rw [Setting.passOver_of_bare bare]
    have nothing : (w.next? n).bind (Primitive.test accept) = none := by
      cases next : w.next? n with
      | none => rfl
      | some c => simp [Primitive.test, refused c next]
    exact ⟨none, by simp only [one, nothing, Outcome.failure]⟩

namespace ReadsOne

variable (reads : ReadsOne item w accept) (add : β → α → β) (tally : Step.Tally β)
include reads

theorem round_of_accepted (next : w.next? n = some c) (accepted : accept c = true) :
    ∃ tally', round none item add tally w n = .ok (.done tally', n + 1) ∧
      tally'.backtrack = tally.backtrack := by
  obtain ⟨value, span, came⟩ := reads.accepted next accepted
  refine ⟨_, round_eq_done_iff.mpr ⟨_, n, _, value, rfl, rfl, came, rfl, rfl⟩, ?_⟩
  simp [Outcome.success]

theorem round_of_refused (refused : ∀ c, w.next? n = some c → accept c = false) :
    ∃ message tally', round none item add tally w n =
        .ok (.missed message tally.backtrack tally', n) ∧ tally'.backtrack = tally.backtrack := by
  obtain ⟨message, span, came⟩ := reads.refused refused
  refine ⟨message, { tally with backtrack := tally.backtrack && true }, ?_, Bool.and_true _⟩
  rw [round_eq]
  show (item w n >>= _) = _
  rw [came]
  simp [bind, Except.bind, Outcome.success]

/-- As many required rounds as there are characters in the run, or fewer, are done. -/
theorem required_of_le (enough : k ≤ w.runLength accept n) :
    ∃ tally', required none item add k tally w n = .ok (.done tally', n + k) ∧
      tally'.backtrack = tally.backtrack := by
  induction k generalizing n tally with
  | zero => exact ⟨tally, rfl, rfl⟩
  | succ k ih =>
      rcases w.accepted_or_refused accept n with ⟨c, next, accepted⟩ | refused
      · obtain ⟨tally', first, same⟩ := reads.round_of_accepted add tally next accepted
        rw [Setting.runLength_of_accepted next accepted] at enough
        obtain ⟨tally'', others, same'⟩ := ih tally' (Nat.le_of_succ_le_succ enough)
        refine ⟨tally'', ?_, same'.trans same⟩
        rw [required, first]
        exact others.trans (by rw [Nat.add_right_comm, Nat.add_assoc])
      · rw [Setting.runLength_of_refused refused] at enough
        omega

/-- If more rounds are required, the run is read, and the first round behind it misses. -/
theorem required_of_lt (short : w.runLength accept n < k) :
    ∃ message tally', required none item add k tally w n =
      .ok (.missed message tally.backtrack tally', n + w.runLength accept n) := by
  induction k generalizing n tally with
  | zero => omega
  | succ k ih =>
      rcases w.accepted_or_refused accept n with ⟨c, next, accepted⟩ | refused
      · obtain ⟨tally', first, same⟩ := reads.round_of_accepted add tally next accepted
        have run := Setting.runLength_of_accepted next accepted
        have short' : w.runLength accept (n + 1) < k := by omega
        obtain ⟨message, tally'', others⟩ := ih tally' short'
        refine ⟨message, tally'', ?_⟩
        rw [required, first, run, ← same, ← Nat.add_assoc, Nat.add_right_comm]
        exact others
      · obtain ⟨message, tally', first, -⟩ := reads.round_of_refused add tally refused
        refine ⟨message, tally', ?_⟩
        rw [required, first, Setting.runLength_of_refused refused]
        rfl

/-- Optional rounds read the run as far as there are rounds. Each of them reads a character, so that none
is the last one for having read nothing. -/
theorem upTo_eq (isOpen : Bool) (k : Nat) :
    ∃ tally', upTo isOpen none item add k tally w n =
        .ok (tally', n + min k (w.runLength accept n)) ∧ tally'.backtrack = tally.backtrack := by
  induction k generalizing n tally with
  | zero => exact ⟨tally, by rw [Nat.zero_min]; rfl, rfl⟩
  | succ k ih =>
      rcases w.accepted_or_refused accept n with ⟨c, next, accepted⟩ | refused
      · obtain ⟨tally', first, same⟩ := reads.round_of_accepted add tally next accepted
        obtain ⟨tally'', others, same'⟩ := ih tally'
        have onward : ¬(isOpen = true ∧ n + 1 = n) := fun idle => Nat.succ_ne_self n idle.2
        have run : n + 1 + min k (w.runLength accept (n + 1)) =
            n + min (k + 1) (w.runLength accept n) := by
          rw [Setting.runLength_of_accepted next accepted]
          omega
        exact ⟨tally'', (upTo_eq_further first onward).trans (run ▸ others), same'.trans same⟩
      · obtain ⟨message, tally', first, same⟩ := reads.round_of_refused add tally refused
        refine ⟨tally', (upTo_eq_missed first).trans ?_, same⟩
        rw [Setting.runLength_of_refused refused, Nat.min_zero, Nat.add_zero]

/-- The whole repetition reads the run as far as there can be rounds, and succeeds if it is long
enough. -/
theorem repeated_comesTo (least : UInt64) (start : β) :
    ∃ status, (repeated (.atLeast least) none item add start).ComesTo w n status true
        (n + min Repeat.unbounded.toNat (w.runLength accept n)) ∧
      status.isOk = decide (least.toNat ≤ w.runLength accept n) := by
  have bound : least.toNat + (Repeat.atLeast least).room = Repeat.unbounded.toNat :=
    (Repeat.atLeast least).min_add_room
  by_cases enough : least.toNat ≤ w.runLength accept n
  · obtain ⟨tally, first, same⟩ := reads.required_of_le add (.start start) enough
    obtain ⟨tally', others, same'⟩ :=
      reads.upTo_eq (n := n + least.toNat) add tally (Repeat.atLeast least).isOpen
        (Repeat.atLeast least).room
    have stop : n + least.toNat + min (Repeat.atLeast least).room
        (w.runLength accept (n + least.toNat)) =
          n + min Repeat.unbounded.toNat (w.runLength accept n) := by
      have run := Setting.runLength_of_le enough
      omega
    have committed : tally'.backtrack = true := same'.trans same
    rw [stop] at others
    refine ⟨.ok tally'.state, ⟨none, ?_⟩, (decide_eq_true enough).symm⟩
    have required : required none item add (Repeat.atLeast least).min.toNat (.start start) w n =
        .ok (.done tally, n + least.toNat) := first
    simp only [repeated, required, others, committed, bind, Except.bind]
  · obtain ⟨message, tally, first⟩ := reads.required_of_lt add (.start start) (Nat.lt_of_not_le enough)
    have short : min Repeat.unbounded.toNat (w.runLength accept n) = w.runLength accept n := by
      omega
    refine ⟨.error message, ⟨none, ?_⟩, (decide_eq_false enough).symm⟩
    have required : required none item add (Repeat.atLeast least).min.toNat (.start start) w n =
        .ok (.missed message true tally, n + w.runLength accept n) := first
    simp only [repeated, required, short, bind, Except.bind]

end ReadsOne

theorem framed_congr_at {body body' : Meaning α} (h : body w (w.passOver n) = body' w (w.passOver n)) :
    framed body w n = framed body' w n := by
  simp only [framed, h]

theorem report_congr_at {p p' : Meaning α} (h : p w n = p' w n) : p.report w n = p'.report w n := by
  unfold report
  rw [h]

theorem flatMap_congr {p p' : Meaning α} {next : α → Meaning β} (h : p w n = p' w n) :
    p.flatMap next w n = p'.flatMap next w n := by
  unfold flatMap
  rw [h]

/-! ## Letters one after another -/

/-- A text letter by letter. -/
def letters (text : List Char) : Meaning Unit := fun w n =>
  let common := commonLength text (w.rest n)
  match text[common]? with
  | none => .ok (.success (), n + common)
  | some c => .ok (mismatch w c (n + common), n + common)

/-- A text letter by letter succeeds, or fails without a commitment, within the text. -/
theorem letters_ends (text : List Char) (within : n ≤ w.text.length) :
    ∃ o m, letters text w n = .ok (o, m) ∧ o.backtrack = true ∧ n ≤ m ∧ m ≤ w.text.length := by
  have inside : n + commonLength text (w.rest n) ≤ w.text.length := by
    have := commonLength_le_left (w.rest n) text
    rw [commonLength_comm, Setting.rest, List.length_drop] at this
    rw [Setting.rest]
    omega
  simp only [letters]
  cases text[commonLength text (w.rest n)]? with
  | none => exact ⟨.success (), _, rfl, rfl, Nat.le_add_right _ _, inside⟩
  | some c => exact ⟨mismatch w c _, _, rfl, rfl, Nat.le_add_right _ _, inside⟩

/-- A keyword is its letters; its cut makes a difference only to the flag of a failure. -/
theorem keyword_eq_letters (k : Keyword) (w : Setting) (n : Nat) :
    keyword k w n = Except.map (fun (o, m) =>
      (o.allowBacktrack !(o.isFailure && k.cut?.any (· ≤ m - n)), m)) (letters k.text.toList w n) := by
  simp only [keyword, letters]
  cases k.text.toList[commonLength k.text.toList (w.rest n)]? with
  | none => rfl
  | some c =>
      simp [Except.map, mismatch, Outcome.failure, Outcome.isFailure, Outcome.isSuccessful, Except.isOk,
        Except.toBool]

theorem one_eq_letters (c : Char) :
    one (Primitive.test (· == c)) (Primitive.mismatch (Text.charName c)) = letters [c] := by
  funext w n
  unfold one letters
  cases next : w.next? n with
  | none =>
      rw [Setting.rest_eq_nil next]
      simp [mismatch, next]
  | some d =>
      rw [Setting.rest_eq_cons next]
      by_cases same : d = c
      · subst same
        simp [Primitive.test]
      · rw [commonLength_cons_of_ne (Ne.symm same)]
        simp [Primitive.test, same, mismatch, next]

/-- If the first letters are all there, it is up to the others. -/
theorem letters_append_of_isPrefix {text : List Char} (more : List Char)
    (h : text <+: w.rest n) : letters (text ++ more) w n = letters more w (n + text.length) := by
  unfold letters
  have behind : (w.rest n).drop text.length = w.rest (n + text.length) := List.drop_drop
  rw [commonLength_append_of_isPrefix h, behind]
  simp only [List.getElem?_append_right (Nat.le_add_right _ _), Nat.add_sub_cancel_left,
    Nat.add_assoc]

/-- If they are not, the others make no difference. -/
theorem letters_append_of_not_isPrefix {text : List Char} (more : List Char)
    (h : ¬text <+: w.rest n) : letters (text ++ more) w n = letters text w n := by
  have short : commonLength text (w.rest n) < text.length := by
    rw [isPrefix_iff, List.getElem?_eq_none_iff, Nat.not_le] at h
    exact h
  unfold letters
  rw [commonLength_append_of_lt short]
  simp only [List.getElem?_append_left short]

/-- One letter more. -/
theorem letters_concat (text : List Char) (c : Char) (bare : w.skip = none) :
    framed ((framed (letters text)).flatMap fun _ => framed (letters [c])) w n =
      framed (letters (text ++ [c])) w n := by
  by_cases whole : text <+: w.rest n
  · have first : letters text w n = .ok (.success (), n + text.length) := by
      have complete := isPrefix_iff.mp whole
      rw [commonLength_of_isPrefix whole] at complete
      simp only [letters, commonLength_of_isPrefix whole, complete]
    simp only [framed, flatMap, Setting.passOver_of_bare bare, first, Except.map, bind, Except.bind,
      Outcome.success, Outcome.withSpan, letters_append_of_isPrefix [c] whole]
    rcases letters [c] w (n + text.length) with e | ⟨o, m⟩ <;> rfl
  · have short := isPrefix_iff.not.mp whole
    obtain ⟨d, broken⟩ := Option.ne_none_iff_exists'.mp short
    have first : letters text w n =
        .ok (mismatch w d (n + commonLength text (w.rest n)),
          n + commonLength text (w.rest n)) := by
      simp only [letters, broken]
    simp only [framed, flatMap, Setting.passOver_of_bare bare, first,
      letters_append_of_not_isPrefix [c] whole]
    rfl

end Meaning

/-! ## What is reported -/

theorem Keyword.exists_ofText {text : String} (proper : text ≠ "") :
    ∃ k, Keyword.ofText text = .ok k ∧ k.text = text ∧ k.cut? = none :=
  ⟨_, dif_neg proper, rfl, rfl⟩

theorem Keyword.exists_withCut {text : String} {cut : Nat} (proper : text ≠ "")
    (within : cut ≤ text.length) :
    ∃ k, Keyword.withCut text cut = .ok k ∧ k.text = text ∧ k.cut? = some cut :=
  ⟨_, (dif_neg proper).trans (dif_neg (Nat.not_lt_of_le within)), rfl, rfl⟩

/-- The characters that count as space. -/
def CharClass.upToSpace : CharClass :=
  .between '\x00' ' '

/-- They are those with the first 33 code points. -/
theorem CharClass.contains_upToSpace (c : Char) :
    CharClass.upToSpace.contains c = true ↔ c.toNat ≤ 32 := by
  rw [upToSpace, contains_between_iff]
  simp

namespace Parser

/-- Parsers of one character each for the letters of a text, one after another. -/
def spelled (c : Char) (cs : List Char) : Parser ρ Unit :=
  cs.foldl (fun p d => andThen p (.exact d)) (.exact c)

open Meaning

variable (call : {β : Type} → ρ β → Meaning β) {w : Setting} {n : Nat}

/-- Where nothing is passed over, letters one after another mean their text. The induction is on the
letters from the last one back, as they are put together. -/
theorem meaning_spelled (bare : w.skip = none) (c : Char) (cs : List Char) :
    (spelled (ρ := ρ) c cs).meaning call w n = framed (letters (c :: cs)) w n := by
  induction cs using List.reverseRecOn generalizing n with
  | nil => exact congrArg (framed · w n) (one_eq_letters c)
  | append_singleton cs d ih =>
      rw [spelled, List.foldl_append]
      show (andThen (spelled c cs) (.exact d)).meaning call w n = _
      have last : (Parser.exact (ρ := ρ) d).meaning call = framed (letters [d]) :=
        congrArg framed (one_eq_letters d)
      rw [meaning_andThen, last, ← List.cons_append, ← letters_concat _ d bare]
      exact framed_congr_at (flatMap_congr ih)

/-- A run of characters, as a primitive reads it. -/
theorem comesTo_many (bare : w.skip = none) (accept : Char → Bool) (min : Nat)
    (message : Nat → String) :
    ∃ status, (framed (many accept min message)).ComesTo w n status true
        (n + w.runLength accept n) ∧ status.isOk = decide (min ≤ w.runLength accept n) := by
  simp only [comesTo_framed, Setting.passOver_of_bare bare]
  by_cases enough : min ≤ w.runLength accept n
  · refine ⟨.ok (), ⟨none, ?_⟩, (decide_eq_true enough).symm⟩
    simp only [many, if_neg (Nat.not_lt_of_le enough), Outcome.success]
  · refine ⟨.error (message (w.runLength accept n)), ⟨none, ?_⟩, (decide_eq_false enough).symm⟩
    simp only [many, if_pos (Nat.lt_of_not_le enough), Outcome.failure]

/-- A run of characters, as a repetition reads it. -/
theorem comesTo_rep (bare : w.skip = none) (members : CharClass) (least : UInt64) :
    ∃ status, ((Parser.rep (ρ := ρ) (.atLeast least) none (.charInClass members)).meaning call).ComesTo
        w n status true (n + min Repeat.unbounded.toNat (w.runLength members.contains n)) ∧
      status.isOk = decide (least.toNat ≤ w.runLength members.contains n) := by
  have same : (Parser.rep (ρ := ρ) (.atLeast least) none (.charInClass members)).meaning call =
      framed (repeated (.atLeast least) none
        (framed (one (Primitive.test members.contains) (Primitive.notInClass members)))
        (fun _ _ => ()) ()) :=
    congrArg framed (map_id _)
  obtain ⟨status, came, enough⟩ := (readsOne_one members.contains (Primitive.notInClass members)
    bare).repeated_comesTo (n := n) (fun _ _ => ()) least ()
  refine ⟨status, ?_, enough⟩
  rw [same, comesTo_framed, Setting.passOver_of_bare bare]
  exact came

end Parser

namespace Grammar

open Meaning

variable {source : Source} {ctx : Context}

/-- What is reported of a parser that comes to an outcome. -/
theorem report_of_comesTo (faultless : source.faults = []) (g : Grammar ρ)
    (reached : ctx.cursor.Reachable source) {p : Parser ρ α} {status : Except String α}
    {backtrack : Bool} {m : Nat}
    (came : (g.meaning p).ComesTo ⟨source.chars, ctx.skip⟩ ctx.position.index status backtrack m) :
    ∃ span, g.report p ctx = .ok (⟨status, backtrack, span⟩, .ofIndex source.chars m) := by
  obtain ⟨span, came⟩ := came
  exact ⟨span, (g.report_of_reachable p faultless reached).trans (report_eq_ok came)⟩

/-- What is reported of a run of characters, read in a loop and as a repetition. -/
theorem report_run (faultless : source.faults = []) (g : Grammar ρ)
    (reached : ctx.cursor.Reachable source) (bare : ctx.skip = none) {p : Parser ρ Unit}
    {accept : Char → Bool} {members : CharClass} {least : UInt64} {message : Nat → String}
    (means : g.meaning p = framed (many accept least.toNat message))
    (same : accept = members.contains) :
    ∃ o o' stop stop', g.report p ctx = .ok (o, stop) ∧
      g.report (.rep (.atLeast least) none (.charInClass members)) ctx = .ok (o', stop') ∧
      o.isSuccessful = o'.isSuccessful ∧
      stop' = .ofIndex source.chars
        (min stop.index (ctx.position.index + Repeat.unbounded.toNat)) ∧
      (source.chars.length < UInt64.size → stop = stop') := by
  obtain ⟨status, once, enough⟩ := Parser.comesTo_many (w := ⟨source.chars, ctx.skip⟩)
    (n := ctx.position.index) bare accept least.toNat message
  obtain ⟨status', repeated, enough'⟩ := Parser.comesTo_rep (w := ⟨source.chars, ctx.skip⟩)
    (n := ctx.position.index) (fun r => g.callMeaning _ r) bare members least
  rw [← means, same] at once
  rw [same] at enough
  obtain ⟨span, read⟩ := report_of_comesTo faultless g reached once
  obtain ⟨span', read'⟩ := report_of_comesTo faultless g reached repeated
  obtain ⟨saved, follows⟩ := reached.follows faultless
  have within : ctx.position.index ≤ source.chars.length := follows.ordered.within
  have inside := Setting.add_runLength_le (w := ⟨source.chars, ctx.skip⟩) members.contains within
  -- both go over the run of accepted characters, the repetition no further than its rounds lead
  refine ⟨_, _, _, _, read, read', enough.trans enough'.symm, ?_, fun small => ?_⟩
  · have stop : (Position.ofIndex source.chars _).index = _ := Position.index_ofIndex inside
    rw [stop, Nat.add_min_add_left, Nat.min_comm]
  · have countable : source.chars.length ≤ Repeat.unbounded.toNat := Nat.le_of_lt_succ small
    rw [Nat.min_eq_right (Nat.le_trans (Nat.le_add_left _ _) (Nat.le_trans inside countable))]

/-- What is reported of a keyword is what its letters come to, but for the flag of a failure. -/
theorem report_keyword (faultless : source.faults = []) (g : Grammar ρ)
    (reached : ctx.cursor.Reachable source) (k : Keyword) :
    ∃ o stop span, (framed (letters k.text.toList)).report ⟨source.chars, ctx.skip⟩
        ctx.position.index = .ok (o, stop) ∧ o.backtrack = true ∧ o.span = some span ∧
      g.report (.keyword k) ctx =
        .ok (o.allowBacktrack !(o.isFailure && k.cut?.any (· ≤ span.length)), stop) := by
  obtain ⟨saved, follows⟩ := reached.follows faultless
  have within : ctx.position.index ≤ source.chars.length := follows.ordered.within
  rw [g.report_of_reachable (.keyword k) faultless reached]
  let w : Setting := ⟨source.chars, ctx.skip⟩
  generalize ctx.position.index = n at within ⊢
  have inside : w.passOver n ≤ w.text.length := (w.passOver_bounds within).2
  obtain ⟨o, m, came, flag, ahead, stays⟩ := letters_ends k.text.toList inside
  have read : keyword k w (w.passOver n) = _ := keyword_eq_letters k w (w.passOver n)
  rw [came] at read
  have length : (w.span (w.passOver n) m).length = m - w.passOver n := by
    rw [Span.length, Setting.span, Position.index_ofIndex stays, Position.index_ofIndex inside]
  refine ⟨_, _, _, report_eq_ok (framed_eq_ok came), flag, rfl, ?_⟩
  rw [length]
  exact report_eq_ok (framed_eq_ok read)

/-- Where nothing is passed over, a run of characters succeeds if a repetition of single ones does, and
ends where that ends, or further on if that has had as many rounds as the largest word says. This takes a
text of more characters than a word can count. A keyword reports what its letters report, one after
another; and its cut makes a difference only to a failure, which lets the choice around it go back unless
as many letters as the cut says have been read. -/
theorem report_fused (faultless : source.faults = []) (g : Grammar ρ)
    (reached : ctx.cursor.Reachable source) (bare : ctx.skip = none) :
    (∀ members (least : UInt64), ∃ o o' stop stop',
      g.report (.charsWhileIn members least.toNat) ctx = .ok (o, stop) ∧
      g.report (.rep (.atLeast least) none (.charInClass members)) ctx = .ok (o', stop') ∧
      o.isSuccessful = o'.isSuccessful ∧
      stop' = .ofIndex source.chars
        (min stop.index (ctx.position.index + Repeat.unbounded.toNat)) ∧
      (source.chars.length < UInt64.size → stop = stop')) ∧
    (∀ least : UInt64, ∃ o o' stop stop',
      g.report (.space least.toNat) ctx = .ok (o, stop) ∧
      g.report (.rep (.atLeast least) none (.charInClass .upToSpace)) ctx = .ok (o', stop') ∧
      o.isSuccessful = o'.isSuccessful ∧
      stop' = .ofIndex source.chars
        (min stop.index (ctx.position.index + Repeat.unbounded.toNat)) ∧
      (source.chars.length < UInt64.size → stop = stop')) ∧
    (∀ c : Char, CharClass.upToSpace.contains c = true ↔ c.toNat ≤ 32) ∧
    (∀ c cs, ∃ k o stop, Keyword.ofText (String.ofList (c :: cs)) = .ok k ∧
      g.report (.keyword k) ctx = .ok (o, stop) ∧ g.report (.spelled c cs) ctx = .ok (o, stop)) ∧
    ∀ text cut, text ≠ "" → cut ≤ text.length → ∃ k k' o stop span,
      Keyword.ofText text = .ok k ∧ Keyword.withCut text cut = .ok k' ∧
      g.report (.keyword k) ctx = .ok (o, stop) ∧ o.backtrack = true ∧ o.span = some span ∧
      g.report (.keyword k') ctx =
        .ok (o.allowBacktrack !(o.isFailure && decide (cut ≤ span.length)), stop) := by
  have spaces : (fun c : Char => decide (c ≤ ' ')) = CharClass.upToSpace.contains := by
    funext c
    rw [Bool.eq_iff_iff, decide_eq_true_iff, CharClass.contains_upToSpace, char_le_iff]
    rfl
  refine ⟨fun members least => report_run faultless g reached bare rfl rfl,
    fun least => report_run faultless g reached bare rfl spaces, CharClass.contains_upToSpace, ?_, ?_⟩
  · intro c cs
    have proper : String.ofList (c :: cs) ≠ "" := by simp
    obtain ⟨k, made, text, lasting⟩ := Keyword.exists_ofText proper
    obtain ⟨o, stop, span, came, flag, -, read⟩ := report_keyword faultless g reached k
    refine ⟨k, o, stop, made, ?_, ?_⟩
    · rw [read, lasting, Option.any_none, Bool.and_false, Bool.not_false, Outcome.allowBacktrack, ← flag]
    · rw [g.report_of_reachable (.spelled c cs) faultless reached, ← came, text, String.toList_ofList]
      exact report_congr_at (Parser.meaning_spelled _ bare c cs)
  · intro text cut proper within
    obtain ⟨k, made, same, lasting⟩ := Keyword.exists_ofText proper
    obtain ⟨k', made', same', cuts⟩ := Keyword.exists_withCut proper within
    obtain ⟨o, stop, span, came, flag, covers, read⟩ := report_keyword faultless g reached k
    obtain ⟨o', stop', span', came', -, covers', read'⟩ := report_keyword faultless g reached k'
    rw [same', ← same] at came'
    cases came.symm.trans came'
    cases covers.symm.trans covers'
    refine ⟨k, k', o, stop, span, made, made', ?_, flag, covers, ?_⟩
    · rw [read, lasting, Option.any_none, Bool.and_false, Bool.not_false, Outcome.allowBacktrack, ← flag]
    · rw [read', cuts, Option.any_some]

/-- A keyword that breaks off at its third letter, with and without a cut before it, and a run of the two
letters in front. -/
theorem report_fused_at_a_mismatch :
    let source := Source.ofItems [.char 'a', .char 'b', .char '!']
    let ctx := Context.ofCursor (.ofSource source) none false
    let g := withoutRules
    let members : CharClass := .between 'a' 'c'
    source.faults = [] ∧ ctx.cursor.Reachable source ∧ ctx.skip = none ∧
      source.chars.length < UInt64.size ∧
      (∃ o, g.report (.charsWhileIn members 2) ctx = .ok (o, ⟨1, 3, 2⟩) ∧ o.isSuccessful = true ∧
        g.report (.rep (.atLeast 2) none (.charInClass members)) ctx =
          .ok (⟨.ok (), true, some ⟨⟨1, 1, 0⟩, ⟨1, 3, 2⟩⟩⟩, ⟨1, 3, 2⟩)) ∧
      ∃ k k' message span, Keyword.ofText (String.ofList ['a', 'b', 'c']) = .ok k ∧
        Keyword.withCut (String.ofList ['a', 'b', 'c']) 2 = .ok k' ∧
        g.report (.spelled 'a' ['b', 'c']) ctx = .ok (⟨.error message, true, span⟩, ⟨1, 3, 2⟩) ∧
        g.report (.keyword k) ctx = .ok (⟨.error message, true, span⟩, ⟨1, 3, 2⟩) ∧
        g.report (.keyword k') ctx = .ok (⟨.error message, false, span⟩, ⟨1, 3, 2⟩) := by
  intro source ctx g members
  have reached : ctx.cursor.Reachable source := .start
  obtain ⟨fused, -, -, keyword, cutting⟩ := report_fused rfl g reached rfl
  have short : source.chars.length < UInt64.size := by decide
  obtain ⟨run, _, stop, stop', ran, repeated, alike, -, ends⟩ := fused members 2
  obtain rfl : stop = stop' := ends short
  have came : g.report (.rep (.atLeast 2) none (.charInClass members)) ctx =
      .ok (⟨.ok (), true, some ⟨⟨1, 1, 0⟩, ⟨1, 3, 2⟩⟩⟩, ⟨1, 3, 2⟩) := by cbv
  cases came.symm.trans repeated
  obtain ⟨message, spelled⟩ : ∃ message, g.report (.spelled 'a' ['b', 'c']) ctx =
      .ok (⟨.error message, true, some ⟨⟨1, 1, 0⟩, ⟨1, 3, 2⟩⟩⟩, ⟨1, 3, 2⟩) := ⟨_, by cbv⟩
  obtain ⟨k, o, stop, made, read, same⟩ := keyword 'a' ['b', 'c']
  obtain ⟨k₁, k', o₁, stop₁, span, made₁, made', read₁, -, covers, read'⟩ :=
    cutting (String.ofList ['a', 'b', 'c']) 2 (by decide) (by decide)
  cases made.symm.trans made₁
  cases read.symm.trans read₁
  cases spelled.symm.trans same
  cases covers
  exact ⟨rfl, reached, rfl, short, ⟨run, ran, alike, came⟩, k, k', message, _, made, made', spelled,
    read, read'⟩

end Grammar

end TextGrammar
