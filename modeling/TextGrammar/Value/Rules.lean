import TextGrammar.Parser.Run
import TextGrammar.Value.Clause

set_option autoImplicit false

/-! # Rules by name

The rules of a grammar that is read from a file, with their names. A grammar knows all its rules, so
there are two for each name: one that is after no value and one that is after one, of which the
definition makes one sensible. -/

namespace TextGrammar

/-- Rules with their names. -/
structure Rules where
  names : List String
  /-- The definitions, in the order of the names. -/
  clauses : List (Clause names)

namespace Rules

/-- No rules. -/
def empty : Rules :=
  ⟨[], []⟩

/-- The definition of a rule. A rule that has none refers to itself, so it cannot be run. -/
def define (rules : Rules) {α : Type} : Rule rules.names α → Parser (Rule rules.names) α
  | .effect i =>
    match rules.clauses[i.val]? with
    | some (.effect p) => p
    | _ => .lazy (.effect i)
  | .value i =>
    match rules.clauses[i.val]? with
    | some (.value p) => p
    | _ => .lazyVal (.value i)

/-- The two rules that a name stands for. -/
def named (rules : Rules) (i : Fin rules.names.length) : List (AnyRule (Rule rules.names)) :=
  [⟨Unit, .effect i⟩, ⟨Value, .value i⟩]

/-- The grammar of some rules. -/
def grammar (rules : Rules) : Grammar (Rule rules.names) where
  define := rules.define
  all := (List.finRange rules.names.length).flatMap rules.named
  mem_all := by
    intro α r
    refine List.mem_flatMap.mpr ?_
    cases r with
    | effect i => exact ⟨i, List.mem_finRange i, by simp [named]⟩
    | value i => exact ⟨i, List.mem_finRange i, by simp [named]⟩

end Rules

/-! ## Rules that are built when they are needed -/

/-- A reference to a rule, whose definition is looked up when it first runs. -/
structure Deferred where
  name : String
  built : Bool

namespace Deferred

/-- The description of a reference to a rule. -/
def fields (d : Deferred) : String :=
  d.name ++ " \x7b built: " ++ toString d.built ++ ", .. \x7d"

/-- The reference after a run. -/
def force (d : Deferred) : Deferred :=
  { d with built := true }

end Deferred

end TextGrammar
