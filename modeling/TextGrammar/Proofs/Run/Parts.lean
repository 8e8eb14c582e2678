import Mathlib.Data.Set.Insert
import TextGrammar.Parser.Run

set_option autoImplicit false

/-! # The parts of a parser

The parts of a parser are the parsers that it runs by itself, other than through a rule. -/

namespace TextGrammar

/-- A parser, whatever it is after. -/
abbrev AnyParser (ρ : Type → Type) :=
  (α : Type) × Parser ρ α

namespace Parser

variable {ρ : Type → Type}

/-- The parsers that a parser runs by itself. What comes after the value of another parser is one for
each value. -/
def parts {α : Type} : Parser ρ α → Set (AnyParser ρ)
  | .primitive _ => ∅
  | .letter _ => ∅
  | .produce _ _ => ∅
  | .seq _ _ first second => {⟨_, first⟩, ⟨_, second⟩}
  | .choice _ _ _ left right => {⟨_, left⟩, ⟨_, right⟩}
  | .opt _ _ inner => {⟨_, inner⟩}
  | .cut inner => {⟨_, inner⟩}
  | .skipTo target => {⟨_, target⟩}
  | .lookahead inner => {⟨_, inner⟩}
  | .not inner => {⟨_, inner⟩}
  | .iterate _ _ _ item => {⟨_, item⟩}
  | .iterateSeparated _ _ _ separator item => {⟨_, separator⟩, ⟨_, item⟩}
  | .captureWith _ inner => {⟨_, inner⟩}
  | .mapped _ _ inner => {⟨_, inner⟩}
  | .tryMap _ inner => {⟨_, inner⟩}
  | .tryMapRaising _ inner => {⟨_, inner⟩}
  | .flatMap first next => insert ⟨_, first⟩ (Set.range fun a => ⟨_, next a⟩)
  | .rule _ _ => ∅

/-- What holds of a parser whenever it holds of its parts holds of every parser. -/
theorem induction_parts {motive : ∀ {α : Type}, Parser ρ α → Prop}
    (of_parts : ∀ {α : Type} (p : Parser ρ α), (∀ q ∈ p.parts, motive q.2) → motive p)
    {α : Type} (p : Parser ρ α) : motive p := by
  induction p with
  | primitive p => exact of_parts _ (by simp [parts])
  | letter l => exact of_parts _ (by simp [parts])
  | produce name value => exact of_parts _ (by simp [parts])
  | seq name combine first second ih ih' => exact of_parts _ (by simp [parts, ih, ih'])
  | choice name ofLeft ofRight left right ih ih' => exact of_parts _ (by simp [parts, ih, ih'])
  | opt present absent inner ih => exact of_parts _ (by simpa [parts] using ih)
  | cut inner ih => exact of_parts _ (by simpa [parts] using ih)
  | skipTo target ih => exact of_parts _ (by simpa [parts] using ih)
  | lookahead inner ih => exact of_parts _ (by simpa [parts] using ih)
  | not inner ih => exact of_parts _ (by simpa [parts] using ih)
  | iterate name bounds fold item ih => exact of_parts _ (by simpa [parts] using ih)
  | iterateSeparated name bounds fold separator item ih ih' =>
      exact of_parts _ (by simp [parts, ih, ih'])
  | captureWith ofText inner ih => exact of_parts _ (by simpa [parts] using ih)
  | mapped name f inner ih => exact of_parts _ (by simpa [parts] using ih)
  | tryMap f inner ih => exact of_parts _ (by simpa [parts] using ih)
  | tryMapRaising f inner ih => exact of_parts _ (by simpa [parts] using ih)
  | flatMap first next ih ih' => exact of_parts _ (by simp [parts, ih, ih'])
  | rule name r => exact of_parts _ (by simp [parts])

end Parser

end TextGrammar
