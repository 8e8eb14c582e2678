import TextGrammar.Source.Basic

set_option autoImplicit false

/-! # The faults that a source has yet to report

Beside the characters that a source has not delivered there are the faults between them. Asking the
source reports the first of these faults, which is then gone, or none, and then all are still to
come. A source without faults therefore always answers. -/

namespace TextGrammar

/-- A reading either ends well and leaves all faults, or it reports the first of them. -/
def Reading.Reports {σ α : Type} (faults : σ → List Fault) (before : List Fault) :
    EStateM.Result Fault σ α → Prop
  | .ok _ s => faults s = before
  | .error f s => f :: faults s = before

theorem Reading.Reports.embed {σ τ α : Type} {faults : σ → List Fault} {faults' : τ → List Fault}
    {before : List Fault} {put : σ → τ} {r : EStateM.Result Fault σ α}
    (h : Reports faults before r) (hput : ∀ s, faults' (put s) = faults s) :
    Reports faults' before (Reading.embed put r) := by
  cases r with
  | ok a s => exact (hput s).trans h
  | error f s =>
      show f :: faults' (put s) = before
      rw [hput]
      exact h

/-- The fault of an item that is one. -/
def Item.fault? : Item → Option Fault
  | .char _ => none
  | .fault f => some f

namespace ItemSource

/-- The faults that have not been reported. -/
def faults (s : ItemSource) : List Fault :=
  s.undelivered.filterMap Item.fault?

theorem reports_peek (s : ItemSource) : Reading.Reports faults s.faults s.peek := by
  obtain ⟨items, ahead⟩ := s
  cases ahead with
  | char c => rfl
  | atEnd => rfl
  | unknown =>
      cases items with
      | nil => rfl
      | cons item rest => cases item <;> rfl

theorem reports_read (s : ItemSource) : Reading.Reports faults s.faults s.read := by
  obtain ⟨items, ahead⟩ := s
  cases ahead with
  | char c => rfl
  | atEnd => rfl
  | unknown =>
      cases items with
      | nil => rfl
      | cons item rest => cases item <;> rfl

end ItemSource

namespace Source

/-- The items that have not been delivered. Those of a text are its characters. -/
def undelivered : Source → List Item
  | .text s => s.chars.map .char
  | .items s => s.undelivered
  | .resource inner _ _ => inner.undelivered

@[simp] theorem undelivered_ofItems (is : List Item) : (ofItems is).undelivered = is := rfl

/-- The faults that have not been reported. A text has none. -/
def faults : Source → List Fault
  | .text _ => []
  | .items s => s.faults
  | .resource inner _ _ => inner.faults

theorem reports_peek (s : Source) : Reading.Reports faults s.faults s.peek := by
  induction s with
  | text s => rfl
  | items s => exact s.reports_peek.embed fun _ => rfl
  | resource inner failure? closings ih => exact ih.embed fun _ => rfl

theorem reports_read (s : Source) : Reading.Reports faults s.faults s.read := by
  induction s with
  | text s => rfl
  | items s => exact s.reports_read.embed fun _ => rfl
  | resource inner failure? closings ih => exact ih.embed fun _ => rfl

/-- The source of a text has no faults. -/
@[simp] theorem faults_ofText (t : String) : (ofText t).faults = [] := rfl

@[simp] theorem faults_ofItems (is : List Item) :
    (ofItems is).faults = is.filterMap Item.fault? := rfl

end Source

end TextGrammar
