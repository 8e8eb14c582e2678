import TextGrammar.Parser.Forms
import TextGrammar.Proofs.Parallel.Parser

set_option autoImplicit false

/-! # The forms of a repetition

All repetitions are one loop, which puts the values of the items together in one way or another. What
the loop does never depends on the values that it has put together. So each form reports what the
repetition that lists the values reports, and its own value is made of the list. -/

namespace TextGrammar

variable {ρ : Type → Type} {α β γ σ : Type}

namespace Fold

/-- The values of a list put together. -/
def ofList (fold : Fold α γ) (values : List α) : γ :=
  fold.finish (values.foldl fold.add fold.start)

theorem ofList_countWith (finish : Nat → γ) (values : List α) :
    (Fold.countWith finish).ofList values = finish values.length := by
  simp [ofList, countWith, List.foldl_add_const]

theorem ofList_fold1With (add : α → α → α) (finish : Option α → γ) (values : List α) :
    (Fold.fold1With add finish).ofList values = finish (match values with
      | [] => none
      | first :: others => some (others.foldl add first)) := by
  cases values with
  | nil => rfl
  | cons first others =>
      -- from the first value on, the state is the value of what has been put together
      have started (before : α) : others.foldl (Fold.fold1With add finish).add (some before) =
          some (others.foldl add before) := by
        induction others generalizing before with
        | nil => rfl
        | cons value others ih => exact ih (add before value)
      exact congrArg finish (started first)

end Fold

open Step

namespace Parser

variable {call : {β : Type} → ρ β → Step β} {skip : Option CharClass}

theorem body_repeatedWith (name : String) (bounds : Repeat) (separator : Option (Parser ρ Unit))
    (fold : Fold α γ) (item : Parser ρ α) :
    (repeatedWith name bounds separator fold item).body call =
      (repeated bounds (separator.map fun s => s.run call) (item.run call) fold.add
        fold.start).map fold.finish := by
  cases separator <;> rfl

theorem run_repeatedWith (name : String) (bounds : Repeat) (separator : Option (Parser ρ Unit))
    (fold : Fold α γ) (item : Parser ρ α) :
    (repeatedWith name bounds separator fold item).run call =
      framed name ((repeated bounds (separator.map fun s => s.run call) (item.run call) fold.add
        fold.start).map fold.finish) := by
  cases separator <;> rfl

/-- A repetition that puts values together goes beside one that lists values from which they are made.
The state of the first is at any time what the values listed so far come to; the list is built from its
end, so it stands in reverse. -/
theorem parallel_run_repeatedWith
    (hcall : ∀ {β : Type} (r : ρ β), Parallel skip Eq (call r) (call r)) {name name' : String}
    (bounds : Repeat) (separator : Option (Parser ρ Unit)) (fold : Fold β γ) {f : α → β}
    {item : Parser ρ α} {item' : Parser ρ β}
    (hitem : Parallel skip (fun a b => b = f a) (item.run call) (item'.run call)) :
    Parallel skip (fun values c => c = fold.ofList (values.map f))
      ((repeatedWith name bounds separator (.collectWith id) item).run call)
      ((repeatedWith name' bounds separator fold item').run call) := by
  have hseparator : ∀ s ∈ separator.map fun s => s.run call, Parallel skip Eq s s := by
    intro s present
    obtain ⟨between, -, rfl⟩ := Option.map_eq_some_iff.mp present
    exact between.parallel_run hcall
  -- whether a round is the last is decided by what is read, so the two loops stay together
  let states (collected : List α) (state : fold.State) : Prop :=
    state = (collected.reverse.map f).foldl fold.add fold.start
  have hadd : ∀ collected state a b, states collected state → b = f a →
      states (a :: collected) (fold.add state b) := by
    rintro collected state a b rfl rfl
    simp [states]
  have start : states [] fold.start := rfl
  have rounds := parallel_repeated hseparator hitem hadd bounds start
  have self : Parallel skip Eq ((repeatedWith name' bounds separator fold item').body call) _ :=
    parallel_body hcall (repeatedWith name' bounds separator fold item')
  rw [body_repeatedWith] at self
  rw [run_repeatedWith, run_repeatedWith]
  refine parallel_framed_related (parallel_map rounds ?_) self
  rintro collected state rfl
  rfl

end Parser

namespace Grammar

variable (g : Grammar ρ) (ctx : Context)

theorem report_repeatedWith {name : String} (bounds : Repeat) (separator : Option (Parser ρ Unit))
    (fold : Fold α γ) (item : Parser ρ α) :
    g.report (.repeatedWith name bounds separator fold item) ctx =
      (g.report (.repList bounds separator item) ctx).map fold.ofList := by
  have reported : g.report (.repeatedWith name bounds separator fold item) ctx =
      (g.report (.repList bounds separator item) ctx).map fun xs => fold.ofList (xs.map id) :=
    g.report_of_parallel <| Parser.parallel_run_repeatedWith (g.parallel_call _) bounds separator
      fold (item.parallel_run_id (g.parallel_call _))
  simp only [List.map_id] at reported
  exact reported

/-- The items of the first repetition have values, those of the second have not. -/
theorem report_repeatedWith_unval {name : String} (bounds : Repeat)
    (separator : Option (Parser ρ Unit)) (fold : Fold Unit γ) (item : Parser ρ α) :
    g.report (.repeatedWith name bounds separator fold item.unval) ctx =
      (g.report (.repList bounds separator item) ctx).map
        fun values => fold.ofList (values.map fun _ => ()) :=
  g.report_of_parallel <| Parser.parallel_run_repeatedWith (g.parallel_call _) bounds separator fold
    (Parser.parallel_run_mapped (g.parallel_call _) "Unval" (fun _ => ()) item)

/-- Whatever is repeated, with whatever bounds and separator, all forms report what the repetition that
lists the values reports, but for the value, and theirs is made of the list. -/
theorem report_repetition_forms (bounds : Repeat) (separator : Option (Parser ρ Unit))
    (v : Parser ρ α) (seed : σ) (add : σ → α → σ) (select : σ → γ) (join : α → α → α) :
    let listed := g.report (.repList bounds separator v) ctx
    g.report (.rep bounds separator v.unval) ctx = listed.map (fun _ => ()) ∧
    g.report (.count bounds separator v.unval) ctx = listed.map List.length ∧
    g.report (.reduceWith seed add id bounds separator v) ctx =
      listed.map (fun xs => xs.foldl add seed) ∧
    g.report (.reduceWith seed add select bounds separator v) ctx =
      listed.map (fun xs => select (xs.foldl add seed)) ∧
    g.report (.fold1 join bounds separator v) ctx = listed.map (fun
      | [] => none
      | x :: xs => some (xs.foldl join x)) := by
  intro listed
  refine ⟨?_, ?_, ?_, ?_, ?_⟩
  · exact g.report_repeatedWith_unval ctx bounds separator .forget v
  · refine (g.report_repeatedWith_unval ctx bounds separator (.countWith id) v).trans ?_
    simp only [Fold.ofList_countWith, List.length_map, id]
    rfl
  · exact g.report_repeatedWith ctx bounds separator (.reduceWith seed add id) v
  · exact g.report_repeatedWith ctx bounds separator (.reduceWith seed add select) v
  · refine (g.report_repeatedWith ctx bounds separator (.fold1With join id) v).trans ?_
    refine congrArg (Report.map · listed) (funext fun xs => ?_)
    rw [Fold.ofList_fold1With]
    rfl

end Grammar

end TextGrammar
