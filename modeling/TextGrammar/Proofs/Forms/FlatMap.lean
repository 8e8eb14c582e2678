import TextGrammar.Proofs.Forms.Sequence
import TextGrammar.Proofs.Refinement.Parse

set_option autoImplicit false

/-! # Parsers that depend on values

A parser that goes on with a parser made from its value is much like the binding of a monad, and a value
that is produced without reading is much like the unit. Two of the laws of a monad hold without any
condition. The third does not: what is produced at the end has a frame, which passes over characters
that the parser before it has left. It holds where there is nothing to pass over. -/

namespace TextGrammar

open Step

variable {ρ : Type → Type} {α β γ : Type} {skip : Option CharClass}

namespace Step

theorem flatMap_succeed (a : α) (next : α → Step β) : (succeed a).flatMap next = next a := by
  funext ctx
  unfold flatMap succeed
  simp only [Outcome.success]
  cases next a ctx <;> rfl

theorem parallel_flatMap_succeed {p : Step α} (h : Parallel skip Eq p p) :
    Parallel skip Eq (p.flatMap succeed) p := by
  intro ctx ctx' twin
  have ran := h twin
  unfold flatMap
  generalize p ctx = result at ran ⊢
  generalize p ctx' = result' at ran ⊢
  cases ran with
  | error twin => exact .error twin
  | ok same twin =>
      cases same with
      | failure => exact .ok .failure twin
      | @success a a' backtrack _ _ value =>
          simp only [succeed, Outcome.success, Outcome.allowBacktrack, Bool.and_true]
          exact .ok (.success value) twin

/-- Where there is nothing to pass over, a step is entered at once. -/
theorem parallel_entered_none {p : Step α} (h : Parallel none Eq p p) :
    Parallel none Eq p.entered p := by
  intro ctx ctx' twin
  have entered : p.entered ctx = p ctx := by
    unfold Step.entered Context.passOver
    rw [twin.left]
  rw [entered]
  exact h twin

end Step

namespace Parser

variable {call : {β : Type} → ρ β → Step β}

theorem parallel_run_produced (a : α) :
    Parallel skip Eq ((Parser.produced a).run call) (succeed a).entered :=
  parallel_framed_entered (parallel_succeed rfl)

section

variable (hcall : ∀ {β : Type} (r : ρ β), Parallel skip Eq (call r) (call r))
include hcall

/-- What is produced is there as soon as its frame has passed over characters, and the parser that
follows would have passed over the same ones. -/
theorem parallel_produced_flatMap (a : α) (next : α → Parser ρ β) :
    Parallel skip Eq ((Parser.flatMap (.produced a) next).run call) ((next a).run call) := by
  have inner : Parallel skip Eq (((Parser.produced a).run call).flatMap fun a => (next a).run call)
      ((succeed a).entered.flatMap fun a => (next a).run call) :=
    parallel_flatMap (parallel_run_produced a) fun _ _ same => same ▸ (next _).parallel_run hcall
  -- what is passed over before the value is passed over before all that follows
  rw [← entered_flatMap, flatMap_succeed] at inner
  exact Parallel.trans_eq (parallel_run_flatMap hcall (.produced a) next)
    (Parallel.trans_eq inner ((next a).entersFirst_run hcall))

theorem parallel_flatMap_assoc (p : Parser ρ α) (f : α → Parser ρ β) (g : β → Parser ρ γ) :
    Parallel skip Eq ((Parser.flatMap (.flatMap p f) g).run call)
      ((Parser.flatMap p fun a => .flatMap (f a) g).run call) := by
  have left : Parallel skip Eq ((Parser.flatMap (.flatMap p f) g).run call)
      (((p.run call).flatMap fun a => (f a).run call).flatMap fun b => (g b).run call) :=
    Parallel.trans_eq (parallel_run_flatMap hcall (.flatMap p f) g) <|
      parallel_flatMap (parallel_run_flatMap hcall p f)
        fun _ _ same => same ▸ (g _).parallel_run hcall
  have right : Parallel skip Eq ((Parser.flatMap p fun a => .flatMap (f a) g).run call)
      ((p.run call).flatMap fun a => ((f a).run call).flatMap fun b => (g b).run call) :=
    Parallel.trans_eq (parallel_run_flatMap hcall p fun a => .flatMap (f a) g) <|
      parallel_flatMap (p.parallel_run hcall)
        fun _ _ same => same ▸ parallel_run_flatMap hcall (f _) g
  rw [flatMap_assoc] at left
  exact Parallel.trans_eq left (Parallel.symm_eq right)

end

theorem parallel_flatMap_produced
    (hcall : ∀ {β : Type} (r : ρ β), Parallel none Eq (call r) (call r)) (p : Parser ρ α) :
    Parallel none Eq ((Parser.flatMap p .produced).run call) (p.run call) := by
  have produced (a : α) : Parallel none Eq ((Parser.produced (ρ := ρ) a).run call) (succeed a) :=
    Parallel.trans_eq (parallel_run_produced a) (parallel_entered_none (parallel_succeed rfl))
  have inner : Parallel none Eq ((p.run call).flatMap fun a => (Parser.produced a).run call)
      ((p.run call).flatMap succeed) :=
    parallel_flatMap (p.parallel_run hcall) fun _ _ same => same ▸ produced _
  exact Parallel.trans_eq (parallel_run_flatMap hcall p .produced)
    (Parallel.trans_eq inner (parallel_flatMap_succeed (p.parallel_run hcall)))

end Parser

namespace Grammar

/-- Going on with what a value is produced for is going on with the value; going on twice may be grouped
either way; and where there is nothing to pass over, producing the value at the end changes nothing. The
reports are equal in all they say, wherever the runs begin and whatever the parsers do. -/
theorem report_flatMap_laws (g : Grammar ρ) (ctx : Context) (v : α) (p : Parser ρ α)
    (f : α → Parser ρ β) (next : β → Parser ρ γ) :
    g.report (.flatMap (.produced v) f) ctx = g.report (f v) ctx ∧
    g.report (.flatMap (.flatMap p f) next) ctx =
      g.report (.flatMap p fun a => .flatMap (f a) next) ctx ∧
    (ctx.skip = none → g.report (.flatMap p .produced) ctx = g.report p ctx) := by
  refine ⟨?_, ?_, fun nothing => ?_⟩
  · exact g.report_eq_of_parallel (Parser.parallel_produced_flatMap (g.parallel_call _) v f)
  · exact g.report_eq_of_parallel (Parser.parallel_flatMap_assoc (g.parallel_call _) p f next)
  · refine g.report_eq_of_parallel ?_
    rw [nothing]
    exact Parser.parallel_flatMap_produced (g.parallel_call _) p

/-- A value produced behind a letter, where a space is left. -/
theorem report_flatMap_produced_letter :
    let p : Parser (fun _ => Empty) Nat := .means 1 (.exact 'a')
    let ctx := Context.ofCursor (.ofSource (.ofItems [.char 'a', .char ' '])) none false
    ctx.skip = none ∧
      withoutRules.report (.flatMap p .produced) ctx = withoutRules.report p ctx ∧
      withoutRules.report p ctx =
        .ok (⟨.ok 1, true, some ⟨⟨1, 1, 0⟩, ⟨1, 2, 1⟩⟩⟩, ⟨1, 2, 1⟩) := by
  intro p ctx
  have laws := withoutRules.report_flatMap_laws ctx 1 p .produced .produced
  exact ⟨rfl, laws.2.2 rfl, by cbv⟩

/-- With spaces to pass over, the value is produced behind the space. -/
example :
    let p : Parser (fun _ => Empty) Nat := .means 1 (.exact 'a')
    let ctx := Context.ofCursor (.ofSource (.ofItems [.char 'a', .char ' '])) (some (.exact ' ')) false
    withoutRules.report (.flatMap p .produced) ctx =
      .ok (⟨.ok 1, true, some ⟨⟨1, 1, 0⟩, ⟨1, 3, 2⟩⟩⟩, ⟨1, 3, 2⟩) := by
  cbv

end Grammar

end TextGrammar
