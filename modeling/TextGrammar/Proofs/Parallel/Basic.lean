import TextGrammar.Step.Primitive

set_option autoImplicit false

/-! # Runs side by side

Two runs go side by side if their cursors do the same all along: they read the same characters, make the
same marks, come to success, failure or the same error together and at the same place. What they trace
plays no part, nor does what their outcomes cover within them. Their values may differ, but they are
related as asked for. All that parsers are put together with keeps runs side by side. -/

namespace TextGrammar

variable {α α' β β' γ γ' : Type}

/-- The states of two runs that pass over the characters of `skip` and differ at most in the trace. -/
structure Context.Twin (skip : Option CharClass) (ctx ctx' : Context) : Prop where
  cursor : ctx'.cursor = ctx.cursor
  left : ctx.skip = skip
  right : ctx'.skip = skip

/-- Two outcomes, apart from what they cover: both succeed, with related values, or both fail with the
same message, and both or neither let the choice around them go back. -/
inductive Outcome.Related (related : α → β → Prop) : Outcome α → Outcome β → Prop where
  | success {a : α} {b : β} {backtrack : Bool} {span span' : Option Span} (h : related a b) :
      Related related ⟨.ok a, backtrack, span⟩ ⟨.ok b, backtrack, span'⟩
  | failure {message : String} {backtrack : Bool} {span span' : Option Span} :
      Related related ⟨.error message, backtrack, span⟩ ⟨.error message, backtrack, span'⟩

/-- What two parts of runs come to side by side. -/
inductive Running.Coincide (skip : Option CharClass) (related : α → β → Prop) :
    EStateM.Result ParseError Context α → EStateM.Result ParseError Context β → Prop where
  | ok {a : α} {b : β} {ctx ctx' : Context} (h : related a b) (twin : ctx.Twin skip ctx') :
      Coincide skip related (.ok a ctx) (.ok b ctx')
  | error {e : ParseError} {ctx ctx' : Context} (twin : ctx.Twin skip ctx') :
      Coincide skip related (.error e ctx) (.error e ctx')

/-- Two steps whose runs go side by side, wherever they begin together. -/
def Step.Parallel (skip : Option CharClass) (related : α → β → Prop) (p : Step α) (q : Step β) :
    Prop :=
  ∀ ⦃ctx ctx' : Context⦄, ctx.Twin skip ctx' →
    Running.Coincide skip (Outcome.Related related) (p ctx) (q ctx')

variable {skip : Option CharClass} {ctx ctx' : Context}

namespace Context.Twin

theorem refl (ctx : Context) : ctx.Twin ctx.skip ctx :=
  ⟨rfl, rfl, rfl⟩

theorem symm (h : ctx.Twin skip ctx') : ctx'.Twin skip ctx :=
  ⟨h.cursor.symm, h.right, h.left⟩

theorem trans {ctx'' : Context} (h : ctx.Twin skip ctx') (h' : ctx'.Twin skip ctx'') :
    ctx.Twin skip ctx'' :=
  ⟨h'.cursor.trans h.cursor, h.left, h'.right⟩

theorem onCursor (change : Cursor → Cursor) (h : ctx.Twin skip ctx') :
    (ctx.onCursor change).Twin skip (ctx'.onCursor change) :=
  ⟨congrArg change h.cursor, h.left, h.right⟩

theorem position (h : ctx.Twin skip ctx') : ctx'.position = ctx.position :=
  congrArg Cursor.position h.cursor

theorem size (h : ctx.Twin skip ctx') : ctx'.size = ctx.size :=
  congrArg Cursor.size h.cursor

end Context.Twin

namespace Outcome.Related

variable {related : α → β → Prop} {o : Outcome α} {o' : Outcome β}

theorem refl (o : Outcome α) : o.Related Eq o := by
  obtain ⟨status, backtrack, span⟩ := o
  cases status with
  | ok a => exact .success rfl
  | error message => exact .failure

theorem isSuccessful (h : o.Related related o') : o'.isSuccessful = o.isSuccessful := by
  cases h <;> rfl

theorem backtrack (h : o.Related related o') : o'.backtrack = o.backtrack := by
  cases h <;> rfl

theorem allowBacktrack (allow : Bool) (h : o.Related related o') :
    (o.allowBacktrack allow).Related related (o'.allowBacktrack allow) := by
  cases h with
  | success h => exact .success h
  | failure => exact .failure

theorem commit (h : o.Related related o') : o.commit.Related related o'.commit := by
  cases h with
  | success h => exact .success h
  | failure => exact .failure

theorem map {related' : α' → β' → Prop} {f : α → α'} {g : β → β'}
    (hmap : ∀ a b, related a b → related' (f a) (g b)) (h : o.Related related o') :
    (o.map f).Related related' (o'.map g) := by
  cases h with
  | success h => exact .success (hmap _ _ h)
  | failure => exact .failure

theorem eq_map {f : α → β} (h : o.Related (fun a b => b = f a) o') (covered : o'.span = o.span) :
    o' = o.map f := by
  cases h with
  | success value =>
      cases value
      cases covered
      rfl
  | failure =>
      cases covered
      rfl

end Outcome.Related

/-! ## Reading -/

namespace Context

theorem coincide_reading (r : Reading Cursor α) (twin : ctx.Twin skip ctx') :
    Running.Coincide skip Eq (reading r ctx) (reading r ctx') := by
  unfold reading
  rw [twin.cursor]
  cases r ctx.cursor with
  | ok a cursor => exact .ok rfl ⟨rfl, twin.left, twin.right⟩
  | error f cursor => exact .error ⟨rfl, twin.left, twin.right⟩

theorem coincide_passOver (twin : ctx.Twin skip ctx') :
    Running.Coincide skip Eq ctx.passOver ctx'.passOver := by
  unfold passOver
  rw [twin.left, twin.right]
  cases skip with
  | none => exact .ok rfl twin
  | some members =>
      have ran := coincide_reading (Cursor.readWhile members.contains) twin
      simp only
      generalize reading (Cursor.readWhile members.contains) ctx = result at ran ⊢
      generalize reading (Cursor.readWhile members.contains) ctx' = result' at ran ⊢
      cases ran with
      | ok same twin => exact .ok rfl twin
      | error twin => exact .error twin

end Context

namespace Step

variable {related : α → α' → Prop} {related' : β → β' → Prop} {p : Step α} {p' : Step α'}
  {q : Step β} {q' : Step β'}

theorem Parallel.symm (h : Parallel skip related p p') :
    Parallel skip (fun b a => related a b) p' p := by
  intro ctx ctx' twin
  have ran := h twin.symm
  generalize p ctx' = result at ran ⊢
  generalize p' ctx = result' at ran ⊢
  cases ran with
  | error twin => exact .error twin.symm
  | ok same twin =>
      cases same with
      | success h => exact .ok (.success h) twin.symm
      | failure => exact .ok .failure twin.symm

/-- What goes beside a run that goes beside a third one goes beside the third one as well. -/
theorem Parallel.trans {p'' : Step γ} {related₂ : α' → γ → Prop} {related₃ : α → γ → Prop}
    (h : Parallel skip related p p') (h' : Parallel skip related₂ p' p'')
    (through : ∀ a b c, related a b → related₂ b c → related₃ a c) :
    Parallel skip related₃ p p'' := by
  intro ctx ctx' twin
  -- the run in between begins in the same state as the first
  have ran := h (⟨rfl, twin.left, twin.left⟩ : ctx.Twin skip ctx)
  have ran' := h' twin
  generalize p ctx = result at ran ⊢
  generalize p' ctx = between at ran ran'
  generalize p'' ctx' = result' at ran' ⊢
  cases ran with
  | error twin =>
      cases ran' with
      | error twin' => exact .error (twin.trans twin')
  | ok same twin =>
      cases ran' with
      | ok same' twin' =>
          refine .ok ?_ (twin.trans twin')
          cases same with
          | failure => cases same'; exact .failure
          | success h =>
              cases same' with
              | success h' => exact .success (through _ _ _ h h')

theorem Parallel.mono {wider : α → α' → Prop} (h : Parallel skip related p p')
    (hwider : ∀ a a', related a a' → wider a a') : Parallel skip wider p p' := by
  intro ctx ctx' twin
  have ran := h twin
  generalize p ctx = result at ran ⊢
  generalize p' ctx' = result' at ran ⊢
  cases ran with
  | error twin => exact .error twin
  | ok same twin =>
      cases same with
      | success h => exact .ok (.success (hwider _ _ h)) twin
      | failure => exact .ok .failure twin

theorem Parallel.symm_eq {p p' : Step α} (h : Parallel skip Eq p p') : Parallel skip Eq p' p :=
  Parallel.mono (Parallel.symm h) fun _ _ => Eq.symm

theorem Parallel.trans_eq {q q' : Step α'} (h : Parallel skip related p q)
    (h' : Parallel skip Eq q q') : Parallel skip related p q' :=
  Parallel.trans h h' fun _ _ _ same eq => eq ▸ same

theorem Parallel.eq_trans {p' : Step α} {q : Step α'} (h : Parallel skip Eq p p')
    (h' : Parallel skip related p' q) : Parallel skip related p q :=
  Parallel.trans h h' fun _ _ _ eq same => eq ▸ same

/-- A reading goes beside itself. -/
theorem parallel_reading (r : Reading Cursor (Outcome α)) :
    Parallel skip Eq (Context.reading r) (Context.reading r) := by
  intro ctx ctx' twin
  have ran := Context.coincide_reading r twin
  generalize Context.reading r ctx = result at ran ⊢
  generalize Context.reading r ctx' = result' at ran ⊢
  cases ran with
  | error twin => exact .error twin
  | @ok o o' _ _ same twin =>
      cases same
      exact .ok (.refl o) twin

theorem parallel_letter (l : Letter α) : Parallel skip Eq l.step l.step := by
  intro ctx ctx' twin
  unfold Letter.step
  cases l.remark? with
  | none => exact parallel_reading _ twin
  | some remark => exact parallel_reading _ ⟨twin.cursor, twin.left, twin.right⟩

/-- The step that reads nothing and succeeds with a value. -/
def succeed (a : α) : Step α := fun ctx => .ok (.success a) ctx

theorem parallel_succeed {a : α} {a' : α'} (h : related a a') :
    Parallel skip related (succeed a) (succeed a') :=
  fun _ _ twin => .ok (.success h) twin

/-! ## One after another -/

theorem parallel_mapOutcome {f : Outcome α → Outcome β} {f' : Outcome α' → Outcome β'}
    (h : Parallel skip related p p')
    (hf : ∀ o o', Outcome.Related related o o' → Outcome.Related related' (f o) (f' o')) :
    Parallel skip related' (p.mapOutcome f) (p'.mapOutcome f') := by
  intro ctx ctx' twin
  have ran := h twin
  unfold mapOutcome
  generalize p ctx = result at ran ⊢
  generalize p' ctx' = result' at ran ⊢
  cases ran with
  | error twin => exact .error twin
  | ok same twin => exact .ok (hf _ _ same) twin

theorem parallel_map {f : α → β} {f' : α' → β'} (h : Parallel skip related p p')
    (hf : ∀ a a', related a a' → related' (f a) (f' a')) :
    Parallel skip related' (p.map f) (p'.map f') :=
  parallel_mapOutcome h fun _ _ same => same.map hf

/-- A step beside itself with another value. -/
theorem parallel_map_self (f : α → β) (h : Parallel skip Eq p p) :
    Parallel skip (fun a b => b = f a) p (p.map f) := by
  intro ctx ctx' twin
  have ran := h twin
  unfold map mapOutcome
  generalize p ctx = result at ran ⊢
  generalize p ctx' = result' at ran ⊢
  cases ran with
  | error twin => exact .error twin
  | ok same twin =>
      cases same with
      | failure => exact .ok .failure twin
      | success h => exact .ok (.success (congrArg f h.symm)) twin

theorem parallel_flatMap {next : α → Step β} {next' : α' → Step β'}
    (h : Parallel skip related p p')
    (hnext : ∀ a a', related a a' → Parallel skip related' (next a) (next' a')) :
    Parallel skip related' (p.flatMap next) (p'.flatMap next') := by
  intro ctx ctx' twin
  have ran := h twin
  unfold flatMap
  generalize p ctx = result at ran ⊢
  generalize p' ctx' = result' at ran ⊢
  cases ran with
  | error twin => exact .error twin
  | @ok _ _ after after' same twin =>
      cases same with
      | failure => exact .ok .failure twin
      | @success a a' _ _ _ h =>
          have second := hnext a a' h twin
          simp only
          generalize next a after = result at second ⊢
          generalize next' a' after' = result' at second ⊢
          cases second with
          | error twin => exact .error twin
          -- both flags are conjunctions of the same flags
          | ok same twin => exact .ok (same.backtrack ▸ same.allowBacktrack _) twin

theorem parallel_seq {related'' : γ → γ' → Prop} {combine : α → β → γ} {combine' : α' → β' → γ'}
    (hp : Parallel skip related p p') (hq : Parallel skip related' q q')
    (hcombine : ∀ a a' b b', related a a' → related' b b' →
      related'' (combine a b) (combine' a' b')) :
    Parallel skip related'' (p.seq combine q) (p'.seq combine' q') :=
  parallel_flatMap hp fun _ _ ha => parallel_map hq fun _ _ hb => hcombine _ _ _ _ ha hb

theorem parallel_tryMap {p p' : Step α} (f : α → Except String β) (h : Parallel skip Eq p p') :
    Parallel skip Eq (p.tryMap f) (p'.tryMap f) := by
  refine parallel_mapOutcome h fun o o' same => ?_
  cases same with
  | failure => exact .failure
  | @success a a' _ _ _ h =>
      subst h
      simp only
      cases f a with
      | error message => exact .failure
      | ok mapped => exact .success rfl

theorem parallel_tryMapRaising {p p' : Step α} (f : α → Except String β)
    (h : Parallel skip Eq p p') : Parallel skip Eq (p.tryMapRaising f) (p'.tryMapRaising f) := by
  intro ctx ctx' twin
  have ran := h twin
  unfold tryMapRaising
  generalize p ctx = result at ran ⊢
  generalize p' ctx' = result' at ran ⊢
  cases ran with
  | error twin => exact .error twin
  | ok same twin =>
      cases same with
      | failure => exact .ok .failure twin
      | @success a a' _ _ _ h =>
          subst h
          cases refused : f a with
          | error message =>
              simp only [refused]
              exact .error twin
          | ok mapped =>
              simp only [refused]
              exact .ok (.success rfl) twin

/-- Both cursors have kept the same characters since the mark. -/
theorem parallel_capture {p p' : Step Unit} (h : Parallel skip Eq p p') :
    Parallel skip Eq p.capture p'.capture := by
  intro ctx ctx' twin
  have ran := h (twin.onCursor Cursor.mark)
  unfold capture
  generalize p (ctx.onCursor Cursor.mark) = result at ran ⊢
  generalize p' (ctx'.onCursor Cursor.mark) = result' at ran ⊢
  cases ran with
  | error twin => exact .error twin
  | @ok o o' after after' same twin =>
      simp only
      rw [twin.cursor]
      exact .ok (same.map fun _ _ _ => rfl) (twin.onCursor Cursor.unmark)

end Step

end TextGrammar
