import TextGrammar.Meaning.Basic
import TextGrammar.Proofs.Cursor.Tracking

set_option autoImplicit false

/-! # Steps and their meanings

A step runs on a cursor with marks, its meaning on a text and a number. A step simulates a meaning if,
from any state of a run in which the cursor stands at a number, it comes to what the meaning comes to
from that number: the same outcome or error at the same number. How the rest of the text is divided
between what was handed back and the source, which marks are open, and what the trace holds, plays no
part. An outcome leaves the marks as they were; after an error there may be more of them. -/

namespace TextGrammar

/-- What has not been read, where there is a next character. -/
theorem Setting.rest_eq_cons {w : Setting} {n : Nat} {c : Char} (next : w.next? n = some c) :
    w.rest n = c :: w.rest (n + 1) :=
  drop_eq_cons next

/-- Where there is none, nothing is left. -/
theorem Setting.rest_eq_nil {w : Setting} {n : Nat} (next : w.next? n = none) : w.rest n = [] :=
  drop_eq_nil next

namespace Tracking

variable {text : List Char} (t : Tracking text) (skip : Option CharClass)

/-- The cursor of a run has read `n` characters and saved the numbers `saved`. -/
structure Stands (ctx : Context) (n : Nat) (saved : List Nat) : Prop where
  cursor : t.At ctx.cursor n saved
  skip : ctx.skip = skip

/-- What a part of a run that began at `n` comes to, beside what its meaning comes to. A fault cuts
the run off before the end that its meaning has. -/
inductive Agrees {α : Type} (n : Nat) (saved : List Nat) :
    EStateM.Result ParseError Context α → Except ErrorAt (α × Nat) → Prop where
  | ok {a : α} {ctx : Context} {m : Nat} (ahead : n ≤ m) (here : t.Stands skip ctx m saved) :
      Agrees n saved (.ok a ctx) (.ok (a, m))
  | error {e : ParseError} {ctx : Context} {m : Nat} {kept : List Nat} (ahead : n ≤ m)
      (more : saved <:+ kept) (here : t.Stands skip ctx m kept) :
      Agrees n saved (.error e ctx) (.error (e, m))
  | fault {f : Fault} {ctx : Context} {m : Nat} {kept : List Nat}
      {expected : Except ErrorAt (α × Nat)} (ahead : n ≤ m) (more : saved <:+ kept)
      (h : t.Interrupted f ctx.cursor m kept) : Agrees n saved (.error (.source f) ctx) expected

/-- A part of a run comes to what its meaning comes to, wherever it begins. -/
def Simulates {α : Type} (part : Running α) (meaning : PartMeaning α) : Prop :=
  ∀ {ctx : Context} {n : Nat} {saved : List Nat}, t.Stands skip ctx n saved →
    t.Agrees skip n saved (part ctx) (meaning ⟨text, skip⟩ n)

variable {t skip} {α β γ : Type} {ctx : Context} {n m : Nat} {saved : List Nat}

namespace Stands

theorem mark (h : t.Stands skip ctx n saved) :
    t.Stands skip (ctx.onCursor Cursor.mark) n (n :: saved) :=
  ⟨t.mark h.cursor, h.skip⟩

theorem unmark (h : t.Stands skip ctx n (m :: saved)) :
    t.Stands skip (ctx.onCursor Cursor.unmark) n saved :=
  ⟨t.unmark h.cursor, h.skip⟩

theorem reset (h : t.Stands skip ctx n (m :: saved)) :
    t.Stands skip (ctx.onCursor (Cursor.reset true)) m saved :=
  ⟨t.reset h.cursor, h.skip⟩

theorem position (h : t.Stands skip ctx n saved) : ctx.position = .ofIndex text n :=
  t.position h.cursor

end Stands

/-- Over a source without faults, a run stands where the reader is that its cursor follows. -/
theorem stands_of_follows {r : Reader} (h : ctx.cursor.Follows r []) :
    (following r.text []).Stands ctx.skip ctx r.index r.saved :=
  ⟨at_following_nil.mpr h, rfl⟩

namespace Agrees

variable {result : EStateM.Result ParseError Context α} {expected : Except ErrorAt (α × Nat)}

/-- A part that begins later may as well have begun earlier. -/
theorem since (h : t.Agrees skip m saved result expected) (ahead : n ≤ m) :
    t.Agrees skip n saved result expected := by
  cases h with
  | ok later here => exact .ok (Nat.le_trans ahead later) here
  | error later more here => exact .error (Nat.le_trans ahead later) more here
  | fault later more h => exact .fault (Nat.le_trans ahead later) more h

/-- A reading through the cursor is a part of a run. -/
theorem reading {r : Reading Cursor α} {a : α} (h : t.Stands skip ctx n saved)
    (yields : t.Yields n saved a m (r ctx.cursor)) (ahead : n ≤ m) :
    t.Agrees skip n saved (Context.reading r ctx) (.ok (a, m)) := by
  unfold Context.reading
  generalize r ctx.cursor = result at yields ⊢
  cases yields with
  | ok here => exact .ok ahead ⟨here, h.skip⟩
  | fault later interrupted => exact .fault later (List.suffix_refl saved) interrupted

end Agrees

/-! ## Entering and leaving -/

/-- Entering a parser passes over what is to be passed over. -/
theorem agrees_enter (name : String) (h : t.Stands skip ctx n saved) :
    t.Agrees skip n saved (ctx.enter name)
      (.ok (.ofIndex text (Setting.passOver ⟨text, skip⟩ n), Setting.passOver ⟨text, skip⟩ n)) := by
  have passed : t.Agrees skip n saved (Context.passOver ctx)
      (.ok ((), Setting.passOver ⟨text, skip⟩ n)) := by
    unfold Context.passOver
    rw [h.skip]
    cases skip with
    | none => exact .ok (Nat.le_refl n) h
    | some members =>
        have run := Agrees.reading h (yields_readWhile members.contains h.cursor)
          (Nat.le_add_right n _)
        simp only
        generalize Context.reading (Cursor.readWhile members.contains) ctx = result at run ⊢
        cases run with
        | ok ahead here => exact .ok ahead here
        | fault ahead more interrupted => exact .fault ahead more interrupted
  unfold Context.enter
  generalize Context.passOver ctx = result at passed ⊢
  cases passed with
  | fault ahead more interrupted => exact .fault ahead more interrupted
  | @ok _ behind _ ahead here =>
      rw [← here.position]
      exact .ok ahead ⟨here.cursor, here.skip⟩

/-- A parser that has been entered stands behind what is passed over. -/
theorem stands_of_enter {name : String} {start : Position} {inside : Context}
    (h : t.Stands skip ctx n saved) (entered : ctx.enter name = .ok start inside) :
    start = .ofIndex text (Setting.passOver ⟨text, skip⟩ n) ∧
      t.Stands skip inside (Setting.passOver ⟨text, skip⟩ n) saved := by
  have entering := agrees_enter name h
  rw [entered] at entering
  cases entering with
  | ok ahead here => exact ⟨rfl, here⟩

theorem simulates_framed {body : Step α} {meaning : Meaning α} (name : String)
    (h : t.Simulates skip body meaning) :
    t.Simulates skip (Step.framed name body) (Meaning.framed meaning) := by
  intro ctx n saved stands
  have entered := agrees_enter name stands
  simp only [Step.framed, Meaning.framed]
  generalize Setting.passOver ⟨text, skip⟩ n = start at entered ⊢
  generalize ctx.enter name = result at entered ⊢
  cases entered with
  | fault ahead more interrupted => exact .fault ahead more interrupted
  | @ok _ inside _ ahead here =>
      have ran := (h here).since ahead
      simp only
      generalize body inside = result at ran ⊢
      generalize meaning ⟨text, skip⟩ start = expected at ran ⊢
      cases ran with
      | fault later more interrupted => exact .fault later more interrupted
      | error later more there => exact .error later more ⟨there.cursor, there.skip⟩
      | @ok o after _ later there =>
          -- both positions of the span are those of the numbers
          show t.Agrees skip n saved
            (.ok (o.withSpan ⟨.ofIndex text start, after.position⟩) (after.leave name o)) _
          rw [there.position]
          exact .ok later ⟨there.cursor, there.skip⟩

end Tracking

end TextGrammar
