import TextGrammar.Parser.Run
import TextGrammar.Proofs.Parallel.Choice
import TextGrammar.Proofs.Parallel.Framed
import TextGrammar.Proofs.Parallel.Repeat

set_option autoImplicit false

/-! # Parsers side by side

Whatever a parser is made of, two runs of it that begin together go side by side. This is what makes it
possible to compare the runs of two parsers that have a part in common: the traces of the parts may
differ, and nothing comes of that. -/

namespace TextGrammar

open Step

variable {ρ : Type → Type} {α β γ : Type} {skip : Option CharClass}

namespace Parser

variable {call : {β : Type} → ρ β → Step β}
  (hcall : ∀ {β : Type} (r : ρ β), Parallel skip Eq (call r) (call r))
include hcall

/-- What a parser does goes beside itself if what the rules do does. -/
theorem parallel_body (p : Parser ρ α) : Parallel skip Eq (p.body call) (p.body call) := by
  induction p with
  | primitive p => exact parallel_reading p.reading
  | letter l => exact parallel_letter l
  | produce name value => exact parallel_succeed rfl
  | seq name combine first second ih ih' =>
      exact parallel_seq (parallel_framed ih) (parallel_framed ih')
        fun _ _ _ _ same same' => same ▸ same' ▸ rfl
  | choice name ofLeft ofRight left right ih ih' =>
      exact parallel_choose
        (parallel_map (parallel_framed ih) fun _ _ same => congrArg ofLeft same)
        (parallel_map (parallel_framed ih') fun _ _ same => congrArg ofRight same)
  | opt present absent inner ih =>
      exact parallel_opt (parallel_framed ih) (fun _ _ same => congrArg present same) rfl
  | cut inner ih => exact parallel_mapOutcome (parallel_framed ih) fun _ _ => Outcome.Related.commit
  | skipTo target ih => exact parallel_skipTo (parallel_framed ih)
  | lookahead inner ih => exact parallel_lookahead (parallel_framed ih)
  | not inner ih => exact parallel_not (parallel_framed ih)
  | iterate name bounds fold item ih =>
      refine parallel_map ?_ fun _ _ same => congrArg fold.finish same
      exact parallel_repeated_eq (fun _ absent => (Option.not_mem_none _ absent).elim)
        (parallel_framed ih) fold.add bounds fold.start
  | iterateSeparated name bounds fold separator item ih ih' =>
      refine parallel_map ?_ fun _ _ same => congrArg fold.finish same
      exact parallel_repeated_eq (fun _ present => Option.mem_some.mp present ▸ parallel_framed ih)
        (parallel_framed ih') fold.add bounds fold.start
  | captureWith ofText inner ih =>
      exact parallel_map (parallel_capture (parallel_framed ih))
        fun _ _ same => congrArg ofText same
  | mapped name f inner ih => exact parallel_map (parallel_framed ih) fun _ _ same => congrArg f same
  | tryMap f inner ih => exact parallel_tryMap f (parallel_framed ih)
  | tryMapRaising f inner ih => exact parallel_tryMapRaising f (parallel_framed ih)
  | flatMap first next ih ih' =>
      exact parallel_flatMap (parallel_framed ih) fun a _ same => same ▸ parallel_framed (ih' a)
  | rule name r => exact hcall r

theorem parallel_run (p : Parser ρ α) : Parallel skip Eq (p.run call) (p.run call) :=
  parallel_framed (parallel_body hcall p)

theorem parallel_run_id (p : Parser ρ α) :
    Parallel skip (fun a b => b = id a) (p.run call) (p.run call) :=
  Parallel.mono (p.parallel_run hcall) fun _ _ => Eq.symm

/-- A parser begins by passing over. -/
theorem entersFirst_run (p : Parser ρ α) : EntersFirst skip (p.run call) :=
  entersFirst_framed (parallel_body hcall p)

/-! ## Forms that are as good as without their frame -/

/-- The frame of a sequence has nothing to pass over but what the first parser passes over anyway. -/
theorem parallel_run_seq (name : String) (combine : α → β → γ) (first : Parser ρ α)
    (second : Parser ρ β) :
    Parallel skip Eq ((Parser.seq name combine first second).run call)
      ((first.run call).seq combine (second.run call)) := by
  refine EntersFirst.parallel_framed ?_ (parallel_body hcall (.seq name combine first second))
  refine EntersFirst.flatMap (first.entersFirst_run hcall) fun a => ?_
  exact parallel_map (second.parallel_run hcall) fun _ _ same => congrArg (combine a) same

theorem parallel_run_flatMap (first : Parser ρ α) (next : α → Parser ρ β) :
    Parallel skip Eq ((Parser.flatMap first next).run call)
      ((first.run call).flatMap fun a => (next a).run call) := by
  refine EntersFirst.parallel_framed ?_ (parallel_body hcall (.flatMap first next))
  exact EntersFirst.flatMap (first.entersFirst_run hcall) fun a => (next a).parallel_run hcall

/-- A parser beside itself with another value. -/
theorem parallel_run_mapped (name : String) (f : α → β) (inner : Parser ρ α) :
    Parallel skip (fun a b => b = f a) (inner.run call) ((Parser.mapped name f inner).run call) :=
  EntersFirst.parallel_mapped f (inner.entersFirst_run hcall) (inner.parallel_run hcall)

end Parser

namespace Grammar

/-- The rules go beside themselves, however deeply they may be nested. The induction is on the depth. -/
theorem parallel_call (g : Grammar ρ) (depth : Nat) (r : ρ α) :
    Parallel skip Eq (g.call depth r) (g.call depth r) := by
  induction depth generalizing α with
  | zero => exact fun _ _ twin => .error twin
  | succ depth ih => exact (g.define r).parallel_run ih

/-- Parsers whose runs go side by side report the same. -/
theorem report_of_parallel (g : Grammar ρ) {p : Parser ρ α} {q : Parser ρ β} {f : α → β}
    {ctx : Context} (h : Parallel ctx.skip (fun a b => b = f a)
      (p.run (g.call (g.depthBound ctx))) (q.run (g.call (g.depthBound ctx)))) :
    g.report q ctx = (g.report p ctx).map f :=
  report_framed h (.refl ctx)

theorem report_eq_of_parallel (g : Grammar ρ) {p q : Parser ρ α} {ctx : Context}
    (h : Parallel ctx.skip Eq (p.run (g.call (g.depthBound ctx)))
      (q.run (g.call (g.depthBound ctx)))) :
    g.report p ctx = g.report q ctx := by
  rw [← Report.map_id (g.report p ctx)]
  exact (g.report_of_parallel (Parallel.mono h fun _ _ => Eq.symm)).symm

end Grammar

end TextGrammar
