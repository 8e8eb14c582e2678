import TextGrammar.Proofs.Cursor.Again
import TextGrammar.Proofs.Parallel.Basic
import TextGrammar.Proofs.Run.Report

set_option autoImplicit false

/-! # Frames side by side

A frame around a step passes over characters, traces the step, and says what its outcome covers. Where
the step begins by passing over characters itself, a frame around it has nothing left to do that another
run could tell, except to say what is covered; and that is settled by the outermost frame. -/

namespace TextGrammar

variable {α α' β β' γ : Type} {skip : Option CharClass} {ctx ctx' : Context}

theorem Running.report_leave (name : String) (o : Outcome α) (start : Position) (ctx : Context) :
    Running.report (.ok (o.withSpan ⟨start, ctx.position⟩) (ctx.leave name o)) =
      .ok (o.withSpan ⟨start, ctx.position⟩, ctx.position) := rfl

/-- Two runs that are ended by one error and stand in the same place report the same. -/
theorem Running.report_error {f : α → β} {e : ParseError} (twin : ctx.Twin skip ctx') :
    Running.report (.error e ctx') = (Running.report (.error e ctx)).map f :=
  congrArg (fun stop => Except.error (e, stop)) twin.position

namespace Step

variable {related : α → α' → Prop} {p q : Step α} {p' : Step α'} {name name' : String}

/-- The step behind the characters to pass over. -/
def entered (p : Step α) : Step α := fun ctx =>
  match ctx.passOver with
  | .error e ctx => .error e ctx
  | .ok _ ctx => p ctx

@[simp] theorem entered_entered (p : Step α) : p.entered.entered = p.entered := by
  funext ctx
  unfold entered
  cases passed : ctx.passOver with
  | error e after => rfl
  | ok _ after => simp only [Context.passOver_again passed]

theorem entered_mapOutcome (f : Outcome α → Outcome β) (p : Step α) :
    (p.mapOutcome f).entered = p.entered.mapOutcome f := by
  funext ctx
  cases passed : ctx.passOver <;> simp only [entered, mapOutcome, passed]

theorem entered_flatMap (p : Step α) (next : α → Step β) :
    (p.flatMap next).entered = p.entered.flatMap next := by
  funext ctx
  cases passed : ctx.passOver <;> simp only [entered, flatMap, passed]

theorem parallel_entered (h : Parallel skip related p p') :
    Parallel skip related p.entered p'.entered := by
  intro ctx ctx' twin
  have passed := Context.coincide_passOver twin
  unfold entered
  generalize ctx.passOver = result at passed ⊢
  generalize ctx'.passOver = result' at passed ⊢
  cases passed with
  | error twin => exact .error twin
  | ok _ twin => exact h twin

/-- Apart from what is traced and what is covered, a frame only passes over. -/
theorem parallel_framed_entered (h : Parallel skip related p p') :
    Parallel skip related (framed name p) p'.entered := by
  intro ctx ctx' twin
  have passed := Context.coincide_passOver twin
  unfold framed entered Context.enter
  generalize ctx.passOver = result at passed ⊢
  generalize ctx'.passOver = result' at passed ⊢
  cases passed with
  | error twin => exact .error twin
  | @ok _ _ after after' _ twin =>
      let inside : Context :=
        { after.record (.enter after.depth name after.position) with depth := after.depth + 1 }
      have ran := h (⟨twin.cursor, twin.left, twin.right⟩ : inside.Twin skip after')
      simp only
      generalize p inside = result at ran ⊢
      generalize p' after' = result' at ran ⊢
      cases ran with
      | error twin => exact .error ⟨twin.cursor, twin.left, twin.right⟩
      | ok same twin =>
          -- the span is new, but what an outcome covers is left open here
          refine .ok ?_ ⟨twin.cursor, twin.left, twin.right⟩
          cases same with
          | success h => exact .success h
          | failure => exact .failure

theorem parallel_framed_related (h : Parallel skip related p p') (self : Parallel skip Eq p' p') :
    Parallel skip related (framed name p) (framed name' p') :=
  Parallel.trans_eq (parallel_framed_entered h) (Parallel.symm_eq (parallel_framed_entered self))

theorem parallel_framed (h : Parallel skip Eq p p) :
    Parallel skip Eq (framed name p) (framed name' p) :=
  parallel_framed_related h h

/-! ## Steps that begin by passing over -/

/-- The step passes over characters before it does anything else. -/
def EntersFirst (skip : Option CharClass) (p : Step α) : Prop :=
  Parallel skip Eq p.entered p

theorem entersFirst_framed (h : Parallel skip Eq p p) : EntersFirst skip (framed name p) := by
  have inner : Parallel skip Eq (framed name p) p.entered := parallel_framed_entered h
  have outer := parallel_entered inner
  rw [entered_entered] at outer
  exact Parallel.trans_eq outer (Parallel.symm_eq inner)

theorem EntersFirst.map (f : α → β) (h : EntersFirst skip p) : EntersFirst skip (p.map f) := by
  unfold EntersFirst Step.map
  rw [entered_mapOutcome]
  exact parallel_map h fun _ _ same => congrArg f same

theorem EntersFirst.flatMap {next : α → Step β} (h : EntersFirst skip p)
    (hnext : ∀ a, Parallel skip Eq (next a) (next a)) : EntersFirst skip (p.flatMap next) := by
  unfold EntersFirst
  rw [entered_flatMap]
  exact parallel_flatMap h fun a _ same => same ▸ hnext a

/-- A frame around a step that passes over by itself may be left out. -/
theorem EntersFirst.parallel_framed (h : EntersFirst skip p) (self : Parallel skip Eq p p) :
    Parallel skip Eq (framed name p) p :=
  Parallel.trans_eq (parallel_framed_entered self) h

/-- Such a step beside itself with another value, in a frame of its own. -/
theorem EntersFirst.parallel_mapped (f : α → β) (h : EntersFirst skip p)
    (self : Parallel skip Eq p p) : Parallel skip (fun a b => b = f a) p (framed name (p.map f)) := by
  have mapped : Parallel skip Eq (p.map f) (p.map f) :=
    parallel_map self fun _ _ same => congrArg f same
  have inner : Parallel skip Eq (framed name (p.map f)) (p.map f) :=
    EntersFirst.parallel_framed (EntersFirst.map f h) mapped
  exact Parallel.trans_eq (parallel_map_self f self) (Parallel.symm_eq inner)

/-! ## What is reported -/

/-- Two frames that go side by side report the same. What they cover is settled by where they are
entered and where they are left. -/
theorem report_framed {f : α → α'}
    (h : Parallel skip (fun a a' => a' = f a) (framed name p) (framed name' p'))
    (twin : ctx.Twin skip ctx') :
    Running.report (framed name' p' ctx') = (Running.report (framed name p ctx)).map f := by
  have passed := Context.coincide_passOver twin
  have ran := h twin
  unfold framed Context.enter at ran ⊢
  generalize ctx.passOver = entry at passed ran ⊢
  generalize ctx'.passOver = entry' at passed ran ⊢
  cases passed with
  | error twin => exact Running.report_error twin
  | @ok _ _ after after' _ twin =>
      simp only at ran ⊢
      generalize p _ = result at ran ⊢
      generalize p' _ = result' at ran ⊢
      cases result with
      | error e last =>
          cases result' with
          | error e' last' =>
              cases ran with
              | error left => exact Running.report_error left
          | ok o' last' => cases ran
      | ok o last =>
          cases result' with
          | error e' last' => cases ran
          | ok o' last' =>
              cases ran with
              | ok same left =>
                  have stop : last'.position = last.position := left.position
                  rw [stop, twin.position] at same
                  rw [Running.report_leave, Running.report_leave, stop, twin.position,
                    same.eq_map rfl]
                  rfl

end Step

end TextGrammar
