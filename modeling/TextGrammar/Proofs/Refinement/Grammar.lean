import TextGrammar.Meaning.Grammar
import TextGrammar.Proofs.Refinement.Choice
import TextGrammar.Proofs.Refinement.Primitive
import TextGrammar.Proofs.Refinement.Repeat
import TextGrammar.Proofs.Refinement.Sequence

set_option autoImplicit false

/-! # Parsers

The induction is on the parser, and for the rules of a grammar on the depth to which they may be
nested. -/

namespace TextGrammar.Tracking

variable {text : List Char} {t : Tracking text} {skip : Option CharClass} {ρ : Type → Type}
  {α : Type} {call : {β : Type} → ρ β → Step β} {callMeaning : {β : Type} → ρ β → Meaning β}

theorem simulates_body (hcall : ∀ {β : Type} (r : ρ β), t.Simulates skip (call r) (callMeaning r))
    (p : Parser ρ α) : t.Simulates skip (p.body call) (p.bodyMeaning callMeaning) := by
  induction p with
  | primitive p => exact simulates_primitive p
  | letter l => exact simulates_letter l
  | produce name value => exact fun stands => .ok (Nat.le_refl _) stands
  | seq name combine first second ih ih' =>
      exact simulates_seq combine (simulates_framed _ ih) (simulates_framed _ ih')
  | choice name ofLeft ofRight left right ih ih' =>
      exact simulates_choose (simulates_map ofLeft (simulates_framed _ ih))
        (simulates_map ofRight (simulates_framed _ ih'))
  | opt present absent inner ih => exact simulates_opt present absent (simulates_framed _ ih)
  | cut inner ih => exact simulates_mapOutcome Outcome.commit (simulates_framed _ ih)
  | skipTo target ih => exact simulates_skipTo (simulates_framed _ ih)
  | lookahead inner ih => exact simulates_lookahead (simulates_framed _ ih)
  | not inner ih => exact simulates_not (simulates_framed _ ih)
  | iterate name bounds fold item ih =>
      exact simulates_map fold.finish
        (simulates_repeated bounds .none (simulates_framed _ ih) fold.add fold.start)
  | iterateSeparated name bounds fold separator item ih ih' =>
      exact simulates_map fold.finish
        (simulates_repeated bounds (.some (simulates_framed _ ih)) (simulates_framed _ ih')
          fold.add fold.start)
  | captureWith ofText inner ih =>
      exact simulates_map ofText (simulates_capture (simulates_framed _ ih))
  | mapped name f inner ih => exact simulates_map f (simulates_framed _ ih)
  | tryMap f inner ih => exact simulates_tryMap f (simulates_framed _ ih)
  | tryMapRaising f inner ih => exact simulates_tryMapRaising f (simulates_framed _ ih)
  | flatMap first next ih ih' =>
      exact simulates_flatMap (simulates_framed _ ih) fun a => simulates_framed _ (ih' a)
  | rule name r => exact hcall r

theorem simulates_run (hcall : ∀ {β : Type} (r : ρ β), t.Simulates skip (call r) (callMeaning r))
    (p : Parser ρ α) : t.Simulates skip (p.run call) (p.meaning callMeaning) :=
  simulates_framed p.name (simulates_body hcall p)

/-- A rule does what it means, however deeply rules may be nested in it. -/
theorem simulates_call (g : Grammar ρ) (depth : Nat) (r : ρ α) :
    t.Simulates skip (g.call depth r) (g.callMeaning depth r) := by
  induction depth generalizing α with
  | zero => exact fun stands => .error (Nat.le_refl _) (List.suffix_refl _) stands
  | succ depth ih => exact simulates_run (fun r => ih r) (g.define r)

/-- A parser comes to what it means, wherever the cursor stands. -/
theorem simulates_parse (g : Grammar ρ) (p : Parser ρ α) (whole : t.total = text.length) :
    t.Simulates skip (g.parse p) (g.meaning p) := by
  intro ctx n saved stands
  have left : ctx.size = Setting.left ⟨text, skip⟩ n := by
    have := t.size stands.cursor
    show ctx.cursor.size = text.length - n
    omega
  unfold Grammar.parse Grammar.meaning Grammar.depthBound
  rw [left]
  exact simulates_run (fun r => simulates_call g _ r) p stands

end TextGrammar.Tracking
