set_option autoImplicit false

/-! # Faults of a source

A source of characters may fail to deliver. A fault says in which way it failed and what there is to
say about it. -/

namespace TextGrammar

/-- The ways in which a source fails. -/
inductive FaultKind where
  | invalidData
  | unexpectedEnd
  | interrupted
  | other
deriving DecidableEq, Repr

/-- One failure of a source. -/
structure Fault where
  kind : FaultKind
  message : String
deriving DecidableEq, Repr

/-- A computation that changes a state and may end in a fault. The state is left as it was at the
fault; nothing is undone. -/
abbrev Reading (σ α : Type) := EStateM Fault σ α

/-- A result whose state is put into a larger state. -/
def Reading.embed {σ τ α : Type} (put : σ → τ) :
    EStateM.Result Fault σ α → EStateM.Result Fault τ α
  | .ok a s => .ok a (put s)
  | .error f s => .error f (put s)

/-- The state that a reading leaves, whether it succeeds or not. -/
def Reading.left {σ α : Type} : EStateM.Result Fault σ α → σ
  | .ok _ s => s
  | .error _ s => s

@[simp] theorem Reading.left_ok {σ α : Type} (a : α) (s : σ) :
    Reading.left (.ok a s : EStateM.Result Fault σ α) = s := rfl

@[simp] theorem Reading.left_error {σ α : Type} (f : Fault) (s : σ) :
    Reading.left (.error f s : EStateM.Result Fault σ α) = s := rfl

@[simp] theorem Reading.left_embed {σ τ α : Type} (put : σ → τ) (r : EStateM.Result Fault σ α) :
    Reading.left (Reading.embed put r) = put (Reading.left r) := by
  cases r <;> rfl

@[simp] theorem Reading.embed_ok {σ τ α : Type} (put : σ → τ) (a : α) (s : σ) :
    Reading.embed put (.ok a s) = .ok a (put s) := rfl

@[simp] theorem Reading.embed_error {σ τ α : Type} (put : σ → τ) (f : Fault) (s : σ) :
    Reading.embed put (.error f s : EStateM.Result Fault σ α) = .error f (put s) := rfl

end TextGrammar
