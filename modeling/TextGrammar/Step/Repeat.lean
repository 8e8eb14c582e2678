import TextGrammar.Step.Choice

set_option autoImplicit false

/-! # Repetition

A repetition runs an item as often as its bounds ask for, with a separator before every item but the
first. As long as the lower bound is not reached, a failure fails the whole. After that an item is
optional: if it or its separator fails, it is taken back, and the repetition ends there with
success. -/

namespace TextGrammar

/-- The bounds of a repetition. -/
structure Repeat where
  min : UInt64
  /-- The largest word stands for no upper bound. -/
  max : UInt64
  /-- One item at least is allowed, and all that the lower bound asks for. -/
  valid : 0 < max ∧ min ≤ max

namespace Repeat

/-- The word that stands for no upper bound. No repetition has more rounds than this. -/
def unbounded : UInt64 :=
  .ofNat (UInt64.size - 1)

theorem le_unbounded (n : UInt64) : n ≤ unbounded :=
  UInt64.le_iff_toNat_le.mpr (Nat.le_of_lt_succ n.toNat_lt)

/-- `min` times or more. -/
def atLeast (min : UInt64) : Repeat :=
  ⟨min, unbounded, by decide, le_unbounded min⟩

/-- Any number of times. -/
def any : Repeat :=
  atLeast 0

/-- Between `min` and `max` times. -/
def range (min max : UInt64) : Except GrammarError Repeat :=
  if h : max = 0 ∨ max < min then .error (.invalidRepeat min.toNat max.toNat)
  else .ok ⟨min, max, UInt64.pos_iff_ne_zero.mpr fun zero => h (.inl zero),
    UInt64.not_lt.mp fun less => h (.inr less)⟩

/-- Up to `max` times. -/
def atMost (max : UInt64) : Except GrammarError Repeat :=
  range 0 max

/-- Exactly `n` times. -/
def exactly (n : UInt64) : Except GrammarError Repeat :=
  range n n

/-- There is no upper bound. -/
def isOpen (bounds : Repeat) : Bool :=
  bounds.max == unbounded

theorem isOpen_iff {bounds : Repeat} : bounds.isOpen = true ↔ bounds.max = unbounded :=
  beq_iff_eq

/-- The upper bound, if there is one. -/
def max? (bounds : Repeat) : Option UInt64 :=
  if bounds.isOpen then none else some bounds.max

/-- How many rounds there may be behind those that have to be. -/
def room (bounds : Repeat) : Nat :=
  bounds.max.toNat - bounds.min.toNat

theorem min_add_room (bounds : Repeat) : bounds.min.toNat + bounds.room = bounds.max.toNat :=
  Nat.add_sub_cancel' (UInt64.le_iff_toNat_le.mp bounds.valid.2)

/-- Who asks for as many rounds as there can be leaves no room for another one. -/
example : (atLeast unbounded).room = 0 := by
  decide

/-- The form in which the description of a repetition shows it. The separator is shown by its
name. -/
def fields (bounds : Repeat) (separator : Option String) : String :=
  let max := match bounds.max? with
    | none => "None"
    | some max => "Some(" ++ toString max ++ ")"
  let separator := match separator with
    | none => "None"
    | some name => "Some(BoxedParser(" ++ name ++ "))"
  "Repeat \x7b min: " ++ toString bounds.min ++ ", max: " ++ max
    ++ ", separator: " ++ separator ++ " \x7d"

end Repeat

namespace Step

variable {α β : Type}

/-- What a repetition has come to so far. -/
structure Tally (β : Type) where
  /-- The values of the items, put together. -/
  state : β
  /-- No separator and no item has been before. -/
  fresh : Bool
  /-- No separator and no item was committed. -/
  backtrack : Bool

/-- The state before the first item. -/
def Tally.start (state : β) : Tally β :=
  ⟨state, true, true⟩

/-- What a single round of a repetition comes to. -/
inductive Round (β : Type) where
  /-- There was one more item. -/
  | done (tally : Tally β)
  /-- The separator or the item failed. What was committed before still is. -/
  | missed (message : String) (backtrack : Bool) (tally : Tally β)

/-- The separator, unless this is the first item. -/
def separate (separator : Option (Step Unit)) (tally : Tally β) : Running (Round β) := fun ctx =>
  match separator, tally.fresh with
  | some separator, false =>
    match separator ctx with
    | .error e ctx => .error e ctx
    | .ok o ctx =>
      let backtrack := tally.backtrack && o.backtrack
      match o.status with
      | .error message => .ok (.missed message backtrack tally) ctx
      -- a committed separator counts even if no item follows it
      | .ok _ => .ok (.done { tally with backtrack }) ctx
  | _, _ => .ok (.done tally) ctx

/-- One round: the separator and the item. -/
def round (separator : Option (Step Unit)) (item : Step α) (add : β → α → β) (tally : Tally β) :
    Running (Round β) := fun ctx =>
  match separate separator tally ctx with
  | .error e ctx => .error e ctx
  | .ok (.missed message backtrack tally) ctx => .ok (.missed message backtrack tally) ctx
  | .ok (.done tally) ctx =>
    match item ctx with
    | .error e ctx => .error e ctx
    | .ok o ctx =>
      let backtrack := tally.backtrack && o.backtrack
      match o.status with
      | .error message => .ok (.missed message backtrack tally) ctx
      | .ok value => .ok (.done ⟨add tally.state value, false, backtrack⟩) ctx

/-- A round that is taken back if it misses. -/
def optionalRound (separator : Option (Step Unit)) (item : Step α) (add : β → α → β)
    (tally : Tally β) : Running (Round β) := fun ctx =>
  match round separator item add tally (ctx.onCursor Cursor.mark) with
  | .error e ctx => .error e ctx
  | .ok (.done tally) ctx => .ok (.done tally) (ctx.onCursor Cursor.unmark)
  | .ok (.missed message backtrack tally) ctx =>
    .ok (.missed message backtrack tally) (ctx.onCursor (Cursor.reset true))

/-- `n` rounds, all of which have to succeed. -/
def required (separator : Option (Step Unit)) (item : Step α) (add : β → α → β) :
    Nat → Tally β → Running (Round β)
  | 0, tally => fun ctx => .ok (.done tally) ctx
  | n + 1, tally => fun ctx =>
    match round separator item add tally ctx with
    | .error e ctx => .error e ctx
    | .ok (.missed message backtrack tally) ctx => .ok (.missed message backtrack tally) ctx
    | .ok (.done tally) ctx => required separator item add n tally ctx

/-- As many rounds as succeed, but no more than `n`. If nothing else bounds them, a round that has read
nothing is the last one, since all after it would read nothing either. -/
def upTo (isOpen : Bool) (separator : Option (Step Unit)) (item : Step α) (add : β → α → β) :
    Nat → Tally β → Running (Tally β)
  | 0, tally => fun ctx => .ok tally ctx
  | n + 1, tally => fun ctx =>
    match optionalRound separator item add tally ctx with
    | .error e ctx => .error e ctx
    | .ok (.missed _ _ tally) ctx => .ok tally ctx
    | .ok (.done tally) next =>
      if isOpen ∧ next.position = ctx.position then .ok tally next
      else upTo isOpen separator item add n tally next

/-- The whole repetition: the rounds that the lower bound asks for, then as many as succeed within
the upper bound. -/
def repeated (bounds : Repeat) (separator : Option (Step Unit)) (item : Step α) (add : β → α → β)
    (start : β) : Step β := fun ctx =>
  match required separator item add bounds.min.toNat (.start start) ctx with
  | .error e ctx => .error e ctx
  | .ok (.missed message backtrack _) ctx => .ok ⟨.error message, backtrack, none⟩ ctx
  | .ok (.done tally) ctx =>
    match upTo bounds.isOpen separator item add bounds.room tally ctx with
    | .error e ctx => .error e ctx
    | .ok tally ctx => .ok ⟨.ok tally.state, tally.backtrack, none⟩ ctx

end Step

end TextGrammar
