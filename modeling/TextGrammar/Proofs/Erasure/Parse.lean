import Mathlib.Data.List.Permutation
import TextGrammar.Proofs.Erasure.Repeat
import TextGrammar.Proofs.Refinement.Parse

set_option autoImplicit false

/-! # Passing over characters is leaving them out

A parser that looks at one character at a time comes to the same over a text in which the characters
of a class are passed over as it does over the text that is left when they are taken out. Keywords and
runs of characters are no such parsers: within them nothing is passed over. -/

namespace TextGrammar

variable {ρ : Type → Type} {used : ρ Unit → Prop}

/-- A parser that is put together from single characters and the end of the input, and refers to no
rules but the `used` ones. -/
inductive Parser.ByCharacter (used : ρ Unit → Prop) : Parser ρ Unit → Prop where
  | exact (c : Char) : ByCharacter used (.exact c)
  | charInClass (members : CharClass) : ByCharacter used (.charInClass members)
  | eof : ByCharacter used .eof
  | andThen {first second : Parser ρ Unit} (hfirst : ByCharacter used first)
      (hsecond : ByCharacter used second) : ByCharacter used (.andThen first second)
  | or {left right : Parser ρ Unit} (hleft : ByCharacter used left)
      (hright : ByCharacter used right) : ByCharacter used (.or left right)
  | optional {inner : Parser ρ Unit} (hinner : ByCharacter used inner) :
      ByCharacter used (.optional inner)
  | cut {inner : Parser ρ Unit} (hinner : ByCharacter used inner) : ByCharacter used (.cut inner)
  | lookahead {inner : Parser ρ Unit} (hinner : ByCharacter used inner) :
      ByCharacter used (.lookahead inner)
  | not {inner : Parser ρ Unit} (hinner : ByCharacter used inner) : ByCharacter used (.not inner)
  | rep (bounds : Repeat) {item : Parser ρ Unit} (hitem : ByCharacter used item) :
      ByCharacter used (.rep bounds none item)
  | repSeparated (bounds : Repeat) {separator item : Parser ρ Unit}
      (hseparator : ByCharacter used separator) (hitem : ByCharacter used item) :
      ByCharacter used (.rep bounds (some separator) item)
  | skipTo {target : Parser ρ Unit} (htarget : ByCharacter used target) :
      ByCharacter used (.skipTo target)
  | lazy {r : ρ Unit} (hr : used r) : ByCharacter used (.lazy r)

/-- The rules in use are defined by such parsers. -/
def Grammar.ByCharacter (g : Grammar ρ) (used : ρ Unit → Prop) : Prop :=
  ∀ r, used r → (g.define r).ByCharacter used

namespace Meaning

variable {w : Setting} {n : Nat}

theorem erasableBehind_bodyMeaning {call : {β : Type} → ρ β → Meaning β}
    (hcall : ∀ r : ρ Unit, used r → Erasable w (call r)) {p : Parser ρ Unit}
    (h : p.ByCharacter used) : ErasableBehind w (p.bodyMeaning call) := by
  induction h with
  | exact c => exact erasableBehind_one _ _
  | charInClass members => exact erasableBehind_one _ _
  | eof => exact erasableBehind_next _ _
  | andThen _ _ ih ih' => exact (erasable_seq _ (erasable_framed ih) (erasable_framed ih')).behind
  | or _ _ ih ih' =>
      exact (erasable_choose (erasable_map id (erasable_framed ih))
        (erasable_map id (erasable_framed ih'))).behind
  | optional _ ih => exact (erasable_opt id () (erasable_framed ih)).behind
  | cut _ ih => exact (erasable_commit (erasable_framed ih)).behind
  | lookahead _ ih => exact (erasable_lookahead (erasable_framed ih)).behind
  | not _ ih => exact (erasable_not (erasable_framed ih)).behind
  | rep bounds _ ih =>
      exact (erasableBehind_repeated bounds (by simp) (erasable_framed ih)).map id
  | repSeparated bounds _ _ ih ih' =>
      exact (erasableBehind_repeated bounds (by simpa using erasable_framed ih)
        (erasable_framed ih')).map id
  | skipTo _ ih => exact (erasable_skipTo (erasable_framed ih)).behind
  | lazy hr => exact (hcall _ hr).behind

end Meaning

namespace Grammar

open Meaning

variable {g : Grammar ρ} {w : Setting} {n : Nat} {p : Parser ρ Unit}

theorem erasable_callMeaning (hg : g.ByCharacter used) (depth : Nat) {r : ρ Unit} (hr : used r) :
    Erasable w (g.callMeaning depth r) := by
  induction depth generalizing r with
  | zero => exact fun _ _ => .endless
  | succ depth ih =>
      exact erasable_framed (erasableBehind_bodyMeaning (fun _ hr => ih hr) (hg r hr))

/-- To every depth of nesting, such a parser comes to the same over the text without what is passed
over. -/
theorem erasable_meaning (hg : g.ByCharacter used) (hp : p.ByCharacter used) (depth : Nat) :
    Erasable w (p.meaning (g.callMeaning depth)) :=
  erasable_framed (erasableBehind_bodyMeaning (fun _ hr => g.erasable_callMeaning hg depth hr) hp)

/-- And so it does over the grammar, though the shorter text allows for less depth. -/
theorem erases_meaning (hg : g.ByCharacter used) (hp : p.ByCharacter used)
    (within : n ≤ w.text.length) :
    Erases w Outcome.Alike n (g.meaning p w n) (g.meaning p w.erase (w.kept n)) := by
  have both (depth : Nat) := g.erasable_meaning (w := w) hg hp depth within
  have deep : Erases w Outcome.Alike n (g.meaning p w n) _ := both _
  have shallow : Erases w Outcome.Alike n _ (g.meaning p w.erase (w.kept n)) := both _
  by_cases ends : Ends (p.meaning (g.callMeaning (g.all.length * (w.left n + 1) + 1)) w.erase
      (w.kept n))
  · rw [g.meaning_eq_of_ends p _ (w.kept_le n) ends]
    exact deep
  by_cases ends' : Ends (p.meaning (g.callMeaning
      (g.all.length * (w.erase.left (w.kept n) + 1) + 1)) w n)
  · rw [g.meaning_eq_of_ends p _ within ends']
    exact shallow
  -- neither ends with the depth of the other, so neither ends with its own
  obtain ⟨m, endless⟩ := not_ends_iff.mp ends
  obtain ⟨m', endless'⟩ := not_ends_iff.mp ends'
  rw [endless] at deep
  rw [endless'] at shallow
  generalize g.meaning p w n = x at deep ⊢
  generalize g.meaning p w.erase (w.kept n) = y at shallow ⊢
  cases deep
  cases shallow
  exact .endless

variable {source other : Source} {skip : CharClass}

/-- Two runs of a parser that looks at one character at a time: one passes over the characters of a
class, the other is over what is left of the text when they are taken out, and passes over nothing.
Both succeed, or both fail with the same message, both allow for other alternatives or do not, and the
number of characters that the second has read is that of the characters read by the first that are not
in the class. Or neither ends; and both end with the same depths of nesting. -/
theorem parse_erases (hg : g.ByCharacter used) (hp : p.ByCharacter used)
    (whole : source.faults = []) (whole' : other.faults = [])
    (erased : other.chars = source.chars.filter fun c => !skip.contains c) (traced traced' : Bool) :
    (match g.parse p (.ofCursor (.ofSource source) (some skip) traced),
        g.parse p (.ofCursor (.ofSource other) none traced') with
      | .ok o ctx, .ok o' ctx' =>
        o'.status = o.status ∧ o'.backtrack = o.backtrack ∧ ctx'.position.index =
          (source.chars.take ctx.position.index).countP fun c => !skip.contains c
      | .error .endlessRecursion _, .error .endlessRecursion _ => True
      | _, _ => False) ∧
    ∀ depth,
      (∃ o ctx, p.run (g.call depth) (.ofCursor (.ofSource source) (some skip) traced) = .ok o ctx) ↔
        ∃ o ctx, p.run (g.call depth) (.ofCursor (.ofSource other) none traced') = .ok o ctx := by
  constructor
  · have both : Erases ⟨source.chars, some skip⟩ _ 0 _ _ := erases_meaning hg hp (Nat.zero_le _)
    generalize means : g.meaning p ⟨source.chars, some skip⟩ 0 = x at both
    generalize means' : g.meaning p (Setting.erase ⟨source.chars, some skip⟩) _ = y at both
    cases both with
    | @ok o o' m same ahead inside =>
        obtain ⟨span, rfl⟩ := same
        obtain ⟨ctx, parsed, there⟩ := parse_ofSource_eq_ok rfl whole (some skip) traced means
        obtain ⟨ctx', parsed', there'⟩ := parse_ofSource_eq_ok erased whole' none traced' means'
        rw [parsed, parsed']
        refine ⟨rfl, rfl, ?_⟩
        have index : ctx.position.index = m := there.index_position
        have index' : ctx'.position.index = Setting.kept ⟨source.chars, some skip⟩ m :=
          there'.index_position
        rw [index, index']
        rfl
    | endless =>
        obtain ⟨ctx, -, parsed, -⟩ := parse_ofSource_eq_error rfl whole (some skip) traced means
        obtain ⟨ctx', -, parsed', -⟩ := parse_ofSource_eq_error erased whole' none traced' means'
        rw [parsed, parsed']
        trivial
  · intro depth
    have both : Erases ⟨source.chars, some skip⟩ _ 0 _ _ :=
      g.erasable_meaning hg hp depth (Nat.zero_le _)
    have follows : (Context.ofCursor (.ofSource source) (some skip) traced).cursor.Follows
        ⟨source.chars, 0, []⟩ [] := .ofFaultless rfl whole
    have follows' : (Context.ofCursor (.ofSource other) none traced').cursor.Follows
        ⟨_, 0, []⟩ [] := .ofFaultless erased whole'
    exact (g.run_ok_iff p depth follows).trans
      (both.ok_iff.trans (g.run_ok_iff p depth follows').symm)

/-- A repetition of something that may be missing. In front of the last character it goes through a
round that only passes over two spaces; in the text without them there is no such round. -/
theorem parse_erases_spaces :
    let source := Source.ofItems [.char 'a', .char ' ', .char ' ', .char 'b']
    let p : Parser (fun _ => Empty) Unit :=
      .andThen (.rep .any none (.optional (.exact 'a'))) (.exact 'b')
    let used : Empty → Prop := fun _ => True
    withoutRules.ByCharacter used ∧ p.ByCharacter used ∧ source.faults = [] ∧
      ∃ o ctx o' ctx',
        withoutRules.parse p (.ofCursor (.ofSource source) (some (.exact ' ')) false) = .ok o ctx ∧
        withoutRules.parse p (.ofCursor (.ofSource (.ofText "ab")) none true) = .ok o' ctx' ∧
        o'.status = .ok () ∧ ctx.position.index = 4 ∧ ctx'.position.index = 2 := by
  intro source p used
  have hg : withoutRules.ByCharacter used := fun r => r.elim
  have hp : p.ByCharacter used := .andThen (.rep _ (.optional (.exact _))) (.exact _)
  have ran : withoutRules.parse p (.ofCursor (.ofSource source) (some (.exact ' ')) false) =
      .ok ⟨.ok (), true, some ⟨⟨1, 1, 0⟩, ⟨1, 5, 4⟩⟩⟩
        ⟨⟨.items ⟨[], .unknown⟩, [], ⟨1, 5, 4⟩, [], [], false⟩, some (.exact ' '), none, 0⟩ := by
    cbv
  have erased : (Source.ofText "ab").chars =
      source.chars.filter fun c => !(CharClass.exact ' ').contains c := by
    rw [Source.chars_ofText]
    decide
  have both := (parse_erases hg hp rfl rfl erased false true).1
  rw [ran] at both
  rcases ran' : withoutRules.parse p (.ofCursor (.ofSource (.ofText "ab")) none true) with
    ⟨o', ctx'⟩ | ⟨e, ctx'⟩
  · rw [ran'] at both
    obtain ⟨status, -, index⟩ := both
    exact ⟨hg, hp, rfl, _, _, o', ctx', ran, rfl, status, rfl, index⟩
  · rw [ran'] at both
    cases both

end Grammar

end TextGrammar
