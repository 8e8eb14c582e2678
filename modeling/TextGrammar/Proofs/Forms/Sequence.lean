import TextGrammar.Parser.Forms
import TextGrammar.Proofs.Parallel.Parser

set_option autoImplicit false

/-! # The forms of a sequence

There are four forms of a sequence, which differ in what becomes of the two values: both are kept, or
one of them, or none. Apart from the value they report the same, and it does not matter how three
parsers are grouped. Each grouping and each form has frames of its own, which pass over characters where
others do not; but a frame stands in front of a parser that passes over the same characters anyway. -/

namespace TextGrammar

variable {ρ : Type → Type} {α β γ δ ε ζ η : Type}

/-- The trace does not show what an outcome covers. -/
theorem Context.leave_withSpan (name : String) (o : Outcome α) (span : Span) (ctx : Context) :
    ctx.leave name (o.withSpan span) = ctx.leave name o := rfl

namespace Step

/-! ## Steps in sequence -/

theorem map_flatMap (f : β → γ) (p : Step α) (next : α → Step β) :
    (p.flatMap next).map f = p.flatMap fun a => (next a).map f := by
  funext ctx
  unfold map mapOutcome flatMap
  cases p ctx with
  | error e after => rfl
  | ok first after =>
      obtain ⟨status, backtrack, span⟩ := first
      cases status with
      | error message => rfl
      | ok a =>
          simp only
          cases next a after <;> rfl

/-- The flag of the whole is the conjunction of all three. -/
theorem flatMap_assoc (p : Step α) (next : α → Step β) (last : β → Step γ) :
    (p.flatMap next).flatMap last = p.flatMap fun a => (next a).flatMap last := by
  funext ctx
  unfold flatMap
  cases p ctx with
  | error e after => rfl
  | ok first after =>
      obtain ⟨status, backtrack, span⟩ := first
      cases status with
      | error message => rfl
      | ok a =>
          simp only
          -- a failure from here on has the flags of those before it, in either grouping
          cases next a after with
          | error e later => rfl
          | ok second later =>
              obtain ⟨status', backtrack', span'⟩ := second
              cases status' with
              | error message => rfl
              | ok b =>
                  simp only [Outcome.allowBacktrack]
                  cases last b later with
                  | error e final => rfl
                  | ok third final => simp only [Bool.and_assoc]

theorem flatMap_map (f : α → β) (p : Step α) (next : β → Step γ) :
    (p.map f).flatMap next = p.flatMap fun a => next (f a) := by
  funext ctx
  rcases ran : p ctx with ⟨⟨status, backtrack, span⟩, after⟩ | ⟨e, after⟩
  · cases status <;> simp only [map, mapOutcome, flatMap, ran] <;> rfl
  · simp only [map, mapOutcome, flatMap, ran]

theorem map_map (f : α → β) (g : β → γ) (p : Step α) :
    (p.map f).map g = p.map fun a => g (f a) := by
  funext ctx
  rcases ran : p ctx with ⟨⟨status, backtrack, span⟩, after⟩ | ⟨e, after⟩
  · cases status <;> simp only [map, mapOutcome, ran] <;> rfl
  · simp only [map, mapOutcome, ran]

/-- Three steps in sequence, however they are grouped. -/
theorem map_seq_seq {inner : α → β → δ} {outer : δ → γ → ε} {inner' : β → γ → ζ}
    {outer' : α → ζ → η} {f : ε → η} (p : Step α) (q : Step β) (r : Step γ)
    (same : ∀ a b c, f (outer (inner a b) c) = outer' a (inner' b c)) :
    ((p.seq inner q).seq outer r).map f = p.seq outer' (q.seq inner' r) := by
  simp only [seq, map_flatMap, flatMap_assoc, flatMap_map, map_map, same]

/-! ## What a sequence does, form by form

A pair runs the second parser with the value of the first. The forms without a value, or with that of
the first, would rather hand on an outcome that is there already. In a frame this is the same. -/

/-- Two steps in sequence. A failure of the first is the outcome as it is, and else the outcome of the
second, with the flag of both. -/
def handOn (p q : Step Unit) : Step Unit := fun ctx =>
  match p ctx with
  | .error e ctx => .error e ctx
  | .ok left ctx =>
    match left.status with
    | .error _ => .ok left ctx
    | .ok _ =>
      match q ctx with
      | .error e ctx => .error e ctx
      | .ok right ctx => .ok (right.allowBacktrack (left.backtrack && right.backtrack)) ctx

/-- Two steps in sequence. The outcome is that of the first, with the flag of both, unless only the
second fails. -/
def keepFirst (p : Step α) (q : Step Unit) : Step α := fun ctx =>
  match p ctx with
  | .error e ctx => .error e ctx
  | .ok left ctx =>
    match left.status with
    | .error _ => .ok left ctx
    | .ok _ =>
      match q ctx with
      | .error e ctx => .error e ctx
      | .ok right ctx =>
        let backtrack := left.backtrack && right.backtrack
        match right.status with
        | .error message => .ok ⟨.error message, backtrack, none⟩ ctx
        | .ok _ => .ok (left.allowBacktrack backtrack) ctx

/-- What the outcome of a step covers does not matter in a frame. -/
theorem framed_eq_of_withSpan {p q : Step α} (name : String)
    (h : ∀ span, p.mapOutcome (·.withSpan span) = q.mapOutcome (·.withSpan span)) :
    framed name p = framed name q := by
  funext ctx
  unfold framed
  rcases ctx.enter name with ⟨start, inside⟩ | ⟨e, after⟩
  · have same := fun span => congrFun (h span) inside
    simp only [mapOutcome] at same ⊢
    generalize p inside = result at same ⊢
    generalize q inside = result' at same ⊢
    cases result with
    | error e last =>
        cases result' with
        | error e' last' => cases same default; rfl
        | ok o' last' => cases same default
    | ok o last =>
        cases result' with
        | error e' last' => cases same default
        | ok o' last' =>
            obtain ⟨covered, rfl⟩ := EStateM.Result.ok.inj (same ⟨start, last.position⟩)
            have left : last.leave name o = last.leave name o' := by
              rw [← Context.leave_withSpan, covered, Context.leave_withSpan]
            simp only [covered, left]
  · rfl

theorem framed_handOn (name : String) (p q : Step Unit) :
    framed name (p.handOn q) = framed name (p.seq (fun _ _ => ()) q) := by
  refine framed_eq_of_withSpan name fun span => funext fun ctx => ?_
  unfold mapOutcome handOn seq flatMap map mapOutcome
  rcases p ctx with ⟨⟨status, backtrack, span⟩, after⟩ | ⟨e, after⟩
  · cases status with
    | error message => rfl
    | ok a =>
        simp only
        rcases q after with ⟨⟨status', backtrack', span'⟩, last⟩ | ⟨e, last⟩
        · cases status' <;> rfl
        · rfl
  · rfl

theorem framed_keepFirst (name : String) (p : Step α) (q : Step Unit) :
    framed name (p.keepFirst q) = framed name (p.seq (fun a _ => a) q) := by
  refine framed_eq_of_withSpan name fun span => funext fun ctx => ?_
  unfold mapOutcome keepFirst seq flatMap map mapOutcome
  rcases p ctx with ⟨⟨status, backtrack, span⟩, after⟩ | ⟨e, after⟩
  · cases status with
    | error message => rfl
    | ok a =>
        simp only
        rcases q after with ⟨⟨status', backtrack', span'⟩, last⟩ | ⟨e, last⟩
        · cases status' <;> rfl
        · rfl
  · rfl

end Step

open Step

namespace Parser

variable {call : {β : Type} → ρ β → Step β} {skip : Option CharClass}

theorem run_andThen (p q : Parser ρ Unit) :
    (andThen p q).run call = framed "Then" ((p.run call).handOn (q.run call)) :=
  (framed_handOn ..).symm

theorem run_thenIgnore (p : Parser ρ α) (q : Parser ρ Unit) :
    (thenIgnore p q).run call = framed "ThenIgnore" ((p.run call).keepFirst (q.run call)) :=
  (framed_keepFirst ..).symm

/-! ## Side by side -/

section

variable (hcall : ∀ {β : Type} (r : ρ β), Parallel skip Eq (call r) (call r))
include hcall

/-- Sequences of parsers that go side by side. -/
theorem parallel_seq_seq {name name' : String} {combine : α → β → γ} {combine' : δ → ε → ζ}
    {f : α → δ} {f' : β → ε} {whole : γ → ζ} {a : Parser ρ α} {a' : Parser ρ δ} {b : Parser ρ β}
    {b' : Parser ρ ε}
    (ha : Parallel skip (fun x x' => x' = f x) (a.run call) (a'.run call))
    (hb : Parallel skip (fun y y' => y' = f' y) (b.run call) (b'.run call))
    (values : ∀ x y, combine' (f x) (f' y) = whole (combine x y)) :
    Parallel skip (fun z z' => z' = whole z) ((Parser.seq name combine a b).run call)
      ((Parser.seq name' combine' a' b').run call) := by
  refine parallel_framed_related ?_ (parallel_body hcall (.seq name' combine' a' b'))
  refine parallel_seq ha hb fun x x' y y' left right => ?_
  rw [left, right, values]

/-- Three parsers in sequence. Each grouping has an inner frame that the other does not have. -/
theorem parallel_regroup {n n' m m' : String} {inner : α → β → δ} {outer : δ → γ → ε}
    {inner' : β → γ → ζ} {outer' : α → ζ → η} {shape : ε → η} (a : Parser ρ α) (b : Parser ρ β)
    (c : Parser ρ γ)
    (values : ∀ x y z, shape (outer (inner x y) z) = outer' x (inner' y z)) :
    Parallel skip (fun w w' => w' = shape w)
      ((Parser.seq n outer (.seq m inner a b) c).run call)
      ((Parser.seq n' outer' a (.seq m' inner' b c)).run call) := by
  have left : Parallel skip Eq ((Parser.seq n outer (.seq m inner a b) c).run call)
      (((a.run call).seq inner (b.run call)).seq outer (c.run call)) :=
    Parallel.trans_eq (parallel_run_seq hcall n outer (.seq m inner a b) c) <|
      parallel_seq (parallel_run_seq hcall m inner a b) (c.parallel_run hcall)
        fun _ _ _ _ same same' => same ▸ same' ▸ rfl
  have right : Parallel skip Eq ((Parser.seq n' outer' a (.seq m' inner' b c)).run call)
      ((a.run call).seq outer' ((b.run call).seq inner' (c.run call))) :=
    Parallel.trans_eq (parallel_run_seq hcall n' outer' a (.seq m' inner' b c)) <|
      parallel_seq (a.parallel_run hcall) (parallel_run_seq hcall m' inner' b c)
        fun _ _ _ _ same same' => same ▸ same' ▸ rfl
  -- with no inner frame on either side, the two are the same step but for the shape of the value
  rw [← map_seq_seq _ _ _ values] at right
  have self := Parallel.eq_trans (Parallel.symm_eq left) left
  exact Parallel.eq_trans left (Parallel.trans_eq (parallel_map_self shape self)
    (Parallel.symm_eq right))

/-- A sequence of parsers without values beside one whose value is dropped. -/
theorem parallel_andThen_unval {name : String} {combine : α → β → γ} {a : Parser ρ α}
    {b : Parser ρ β} {p q : Parser ρ Unit}
    (ha : Parallel skip (fun _ u => u = ()) (a.run call) (p.run call))
    (hb : Parallel skip (fun _ u => u = ()) (b.run call) (q.run call)) :
    Parallel skip (fun u u' => u' = id u) ((andThen p q).run call)
      ((Parser.seq name combine a b).unval.run call) := by
  have whole : Parallel skip (fun _ u => u = ()) ((Parser.seq name combine a b).run call)
      ((andThen p q).run call) :=
    parallel_seq_seq hcall ha hb fun _ _ => rfl
  have dropped : Parallel skip (fun _ u => u = ()) ((Parser.seq name combine a b).run call)
      ((Parser.seq name combine a b).unval.run call) :=
    parallel_run_mapped hcall "Unval" (fun _ => ()) (Parser.seq name combine a b)
  exact Parallel.trans (Parallel.symm whole) dropped fun _ _ _ _ _ => rfl

end

end Parser

namespace Grammar

/-! ## What is reported -/

variable (g : Grammar ρ) (ctx : Context)

theorem report_andThen_unval (a : Parser ρ α) (b : Parser ρ β) :
    g.report (.andThen a.unval b.unval) ctx = (g.report (.pair a b) ctx).map fun _ => () :=
  g.report_of_parallel <| Parser.parallel_seq_seq (g.parallel_call _)
    (Parser.parallel_run_mapped (g.parallel_call _) "Unval" (fun _ => ()) a)
    (Parser.parallel_run_mapped (g.parallel_call _) "Unval" (fun _ => ()) b) fun _ _ => rfl

theorem report_ignoreThen_unval (a : Parser ρ α) (b : Parser ρ β) :
    g.report (.ignoreThen a.unval b) ctx = (g.report (.pair a b) ctx).map Prod.snd :=
  g.report_of_parallel <| Parser.parallel_seq_seq (g.parallel_call _)
    (Parser.parallel_run_mapped (g.parallel_call _) "Unval" (fun _ => ()) a)
    (b.parallel_run_id (g.parallel_call _)) fun _ _ => rfl

theorem report_thenIgnore_unval (a : Parser ρ α) (b : Parser ρ β) :
    g.report (.thenIgnore a b.unval) ctx = (g.report (.pair a b) ctx).map Prod.fst :=
  g.report_of_parallel <| Parser.parallel_seq_seq (g.parallel_call _)
    (a.parallel_run_id (g.parallel_call _))
    (Parser.parallel_run_mapped (g.parallel_call _) "Unval" (fun _ => ()) b) fun _ _ => rfl

/-- Three parsers in sequence, in either grouping. -/
theorem report_regroup {n n' m m' : String} {inner : α → β → δ} {outer : δ → γ → ε}
    {inner' : β → γ → ζ} {outer' : α → ζ → η} {shape : ε → η} (a : Parser ρ α) (b : Parser ρ β)
    (c : Parser ρ γ) (values : ∀ x y z, shape (outer (inner x y) z) = outer' x (inner' y z)) :
    g.report (.seq n' outer' a (.seq m' inner' b c)) ctx =
      (g.report (.seq n outer (.seq m inner a b) c) ctx).map shape :=
  g.report_of_parallel (Parser.parallel_regroup (g.parallel_call _) a b c values)

/-- Three parsers whose values come to the same in either grouping. -/
theorem report_regroup_eq {n n' m m' : String} {inner : α → β → δ} {outer : δ → γ → ε}
    {inner' : β → γ → ζ} {outer' : α → ζ → ε} (a : Parser ρ α) (b : Parser ρ β) (c : Parser ρ γ)
    (values : ∀ x y z, outer (inner x y) z = outer' x (inner' y z)) :
    g.report (.seq n' outer' a (.seq m' inner' b c)) ctx =
      g.report (.seq n outer (.seq m inner a b) c) ctx := by
  rw [← Report.map_id (g.report (.seq n outer (.seq m inner a b) c) ctx)]
  exact g.report_regroup ctx a b c values

theorem report_ignoreThen_regroup (p : Parser ρ Unit) (b : Parser ρ β) (c : Parser ρ γ) :
    g.report (.ignoreThen p (.ignoreThen b.unval c)) ctx =
      g.report (.ignoreThen (.unval (.ignoreThen p b)) c) ctx := by
  have hcall : ∀ {β : Type} (r : ρ β), Parallel ctx.skip Eq (g.call (g.depthBound ctx) r) _ :=
    g.parallel_call (g.depthBound ctx)
  have dropped : Parallel ctx.skip (fun u u' => u' = id u)
      ((Parser.andThen p b.unval).run (g.call (g.depthBound ctx)))
      ((Parser.ignoreThen p b).unval.run (g.call (g.depthBound ctx))) :=
    Parser.parallel_andThen_unval hcall (p.parallel_run_id hcall)
      (Parser.parallel_run_mapped hcall "Unval" (fun _ => ()) b)
  have outer : g.report (.ignoreThen (.unval (.ignoreThen p b)) c) ctx =
      (g.report (.ignoreThen (.andThen p b.unval) c) ctx).map id :=
    g.report_of_parallel <| Parser.parallel_seq_seq hcall dropped (c.parallel_run_id hcall)
      fun _ _ => rfl
  rw [outer, Report.map_id]
  exact g.report_regroup_eq ctx p b.unval c fun _ _ _ => rfl

theorem report_thenIgnore_regroup (a : Parser ρ α) (b : Parser ρ β) (q : Parser ρ Unit) :
    g.report (.thenIgnore a (.unval (.thenIgnore b q))) ctx =
      g.report (.thenIgnore (.thenIgnore a b.unval) q) ctx := by
  have hcall : ∀ {β : Type} (r : ρ β), Parallel ctx.skip Eq (g.call (g.depthBound ctx) r) _ :=
    g.parallel_call (g.depthBound ctx)
  have dropped : Parallel ctx.skip (fun u u' => u' = id u)
      ((Parser.andThen b.unval q).run (g.call (g.depthBound ctx)))
      ((Parser.thenIgnore b q).unval.run (g.call (g.depthBound ctx))) :=
    Parser.parallel_andThen_unval hcall
      (Parser.parallel_run_mapped hcall "Unval" (fun _ => ()) b) (q.parallel_run_id hcall)
  have inner : g.report (.thenIgnore a (.unval (.thenIgnore b q))) ctx =
      (g.report (.thenIgnore a (.andThen b.unval q)) ctx).map id :=
    g.report_of_parallel <| Parser.parallel_seq_seq hcall (a.parallel_run_id hcall) dropped
      fun _ _ => rfl
  rw [inner, Report.map_id]
  exact g.report_regroup_eq ctx a b.unval q fun _ _ _ => rfl

/-- Whatever three parsers do and wherever their runs begin, the forms of a sequence report what the
pair reports, but for the value; and no form reports anything else if it is grouped differently, except
that the pairs are. -/
theorem report_sequence_forms (a : Parser ρ α) (b : Parser ρ β) (c : Parser ρ γ)
    (p q r : Parser ρ Unit) :
    (g.report (.andThen a.unval b.unval) ctx = (g.report (.pair a b) ctx).map (fun _ => ()) ∧
      g.report (.ignoreThen a.unval b) ctx = (g.report (.pair a b) ctx).map Prod.snd ∧
      g.report (.thenIgnore a b.unval) ctx = (g.report (.pair a b) ctx).map Prod.fst) ∧
    g.report (.pair a (.pair b c)) ctx =
      (g.report (.pair (.pair a b) c) ctx).map (fun ((x, y), z) => (x, (y, z))) ∧
    g.report (.andThen p (.andThen q r)) ctx = g.report (.andThen (.andThen p q) r) ctx ∧
    (g.report (.ignoreThen p (.ignoreThen q c)) ctx = g.report (.ignoreThen (.andThen p q) c) ctx ∧
      g.report (.ignoreThen p (.ignoreThen b.unval c)) ctx =
        g.report (.ignoreThen (.unval (.ignoreThen p b)) c) ctx) ∧
    (g.report (.thenIgnore a (.andThen p q)) ctx = g.report (.thenIgnore (.thenIgnore a p) q) ctx ∧
      g.report (.thenIgnore a (.unval (.thenIgnore b q))) ctx =
        g.report (.thenIgnore (.thenIgnore a b.unval) q) ctx) ∧
    g.report (.ignoreThen p (.thenIgnore b q)) ctx =
      g.report (.thenIgnore (.ignoreThen p b) q) ctx := by
  refine ⟨⟨?_, ?_, ?_⟩, ?_, ?_, ⟨?_, ?_⟩, ⟨?_, ?_⟩, ?_⟩
  · exact g.report_andThen_unval ctx a b
  · exact g.report_ignoreThen_unval ctx a b
  · exact g.report_thenIgnore_unval ctx a b
  · exact g.report_regroup ctx a b c fun _ _ _ => rfl
  · exact g.report_regroup_eq ctx p q r fun _ _ _ => rfl
  · exact g.report_regroup_eq ctx p q c fun _ _ _ => rfl
  · exact g.report_ignoreThen_regroup ctx p b c
  · exact g.report_regroup_eq ctx a p q fun _ _ _ => rfl
  · exact g.report_thenIgnore_regroup ctx a b q
  · exact g.report_regroup_eq ctx p b q fun _ _ _ => rfl

end Grammar

end TextGrammar
