import TextGrammar.Parser.Basic

set_option autoImplicit false

/-! # The forms of parsers

The parsers that a grammar is written with. Where a form puts values together, its plain name uses
pairs, options, lists or numbers, and the name with `With` takes any function in their place. -/

namespace TextGrammar

/-! ## Folds -/

namespace Fold

variable {α γ : Type}

/-- Forgets all values. -/
def forget : Fold α Unit :=
  ⟨(), fun _ _ => (), id⟩

/-- The values in order. -/
def collectWith (finish : List α → γ) : Fold α γ :=
  ⟨[], fun collected a => a :: collected, fun collected => finish collected.reverse⟩

/-- The number of values. -/
def countWith (finish : Nat → γ) : Fold α γ :=
  ⟨0, fun n _ => n + 1, finish⟩

/-- The values put together from a first state on. -/
def reduceWith {State : Type} (seed : State) (add : State → α → State) (finish : State → γ) :
    Fold α γ :=
  ⟨seed, add, finish⟩

/-- The values put together, of which the first is the first state; there may be none. -/
def fold1With (add : α → α → α) (finish : Option α → γ) : Fold α γ :=
  ⟨none, fun state a => some (match state with
    | none => a
    | some before => add before a), finish⟩

end Fold

namespace Parser

variable {ρ : Type → Type} {α β γ : Type}

/-! ## Characters and boundaries -/

/-- One given character. -/
def exact (c : Char) : Parser ρ Unit :=
  .primitive (.exact c)

/-- One character of a class. -/
def charInClass (members : CharClass) : Parser ρ Unit :=
  .primitive (.charIn members)

/-- One character outside a class. -/
def charNotInClass (members : CharClass) : Parser ρ Unit :=
  charInClass members.complement

/-- The class of the characters of a text. -/
def classOf (chars : String) : CharClass :=
  .anyOf chars.toList

/-- One of the characters of a text. -/
def charIn (chars : String) : Parser ρ Unit :=
  charInClass (classOf chars)

/-- One character that is not in a text. -/
def charNotIn (chars : String) : Parser ρ Unit :=
  charNotInClass (classOf chars)

/-- One character between two bounds. -/
def charBetween (a b : Char) : Parser ρ Unit :=
  charInClass (.between a b)

/-- One character that is not between two bounds. -/
def charNotBetween (a b : Char) : Parser ρ Unit :=
  charNotInClass (.between a b)

/-- One character, but not the given one. -/
def except (c : Char) : Parser ρ Unit :=
  charNotInClass (.exact c)

/-- As many characters of a class as there are, `min` at least. -/
def charsWhileIn (members : CharClass) (min : Nat) : Parser ρ Unit :=
  .primitive (.charsWhileIn members min)

/-- As many characters outside a class as there are, `min` at least. -/
def charsWhileNotIn (members : CharClass) (min : Nat) : Parser ρ Unit :=
  charsWhileIn members.complement min

/-- As many spaces and controls as there are, `min` at least. -/
def space (min : Nat) : Parser ρ Unit :=
  .primitive (.space min)

/-- The end of the input. -/
def eof : Parser ρ Unit :=
  .primitive .eof

/-- The beginning of the input. -/
def bof : Parser ρ Unit :=
  .primitive .bof

/-! ## Keywords -/

/-- A keyword. -/
def keyword (k : Keyword) : Parser ρ Unit :=
  .primitive (.keyword k)

/-- Any keyword of a set, in one pass. -/
def keywordIn (s : KeywordSet) : Parser ρ Unit :=
  .primitive (.keywordIn s)

/-- The keywords of a set as a choice from the first to the last. Each commits as soon as it can no
longer be taken for the next, which leaves out all that follow. -/
def keywordChain : (w : String) → (rest : List String) → (∀ v ∈ w :: rest, v ≠ "") → Parser ρ Unit
  | w, [], ne => keyword ⟨w, none, ne w List.mem_cons_self, by simp⟩
  | w, next :: rest, ne =>
    .choice "Or" id id (keyword (.before w (ne w List.mem_cons_self) next))
      (keywordChain next rest fun v hv => ne v (List.mem_cons_of_mem _ hv))

/-- Any keyword of a set, as a choice of committing keywords. -/
def keywordInComposed (s : KeywordSet) : Parser ρ Unit :=
  .mapped "KeywordChoice" id (keywordChain s.first s.others s.word_ne)

/-- The same choice of keywords that are built one by one, each with its checks. The first that is
refused is what is wrong with the choice. -/
def checkedChain : (w : String) → (rest : List String) → Except GrammarError (Parser ρ Unit)
  | w, [] => (Keyword.ofText w).map keyword
  | w, next :: rest =>
    let cut := min (commonLength w.toList next.toList + 1) w.length
    (Keyword.withCut w cut).bind fun first =>
      (checkedChain next rest).map fun others => .choice "Or" id id (keyword first) others

/-- Any of some words, in one pass. -/
def keywordInOf (words : List String) : Except GrammarError (Parser ρ Unit) :=
  (KeywordSet.ofList words).map keywordIn

/-- Any of some words, as a choice of committing keywords. -/
def keywordInComposedOf (words : List String) : Except GrammarError (Parser ρ Unit) :=
  (KeywordSet.ofList words).bind fun s =>
    (checkedChain s.first s.others).map (.mapped "KeywordChoice" id)

/-! ## Values from nothing -/

/-- A value, without reading anything. -/
def produced (value : α) : Parser ρ α :=
  .produce "Produce" value

/-- A value that is made when it is needed. -/
def producedWith (make : Unit → α) : Parser ρ α :=
  .produce "ProduceWith" (make ())

/-! ## Sequence -/

/-- One after the other. -/
def andThen (first second : Parser ρ Unit) : Parser ρ Unit :=
  .seq "Then" (fun _ _ => ()) first second

def pairWith (combine : α → β → γ) (first : Parser ρ α) (second : Parser ρ β) : Parser ρ γ :=
  .seq "Pair" combine first second

/-- One after the other, with both values. -/
def pair (first : Parser ρ α) (second : Parser ρ β) : Parser ρ (α × β) :=
  pairWith Prod.mk first second

/-- One after the other, with the value of the second. -/
def ignoreThen (first : Parser ρ Unit) (second : Parser ρ α) : Parser ρ α :=
  .seq "IgnoreThen" (fun _ a => a) first second

/-- One after the other, with the value of the first. -/
def thenIgnore (first : Parser ρ α) (second : Parser ρ Unit) : Parser ρ α :=
  .seq "ThenIgnore" (fun a _ => a) first second

/-! ## Choice -/

/-- The first, or the second if the first fails without being committed. -/
def or (left right : Parser ρ α) : Parser ρ α :=
  .choice "Or" id id left right

def orValueWith (present : α → γ) (absent : γ) (left : Parser ρ Unit) (right : Parser ρ α) :
    Parser ρ γ :=
  .choice "OrValue" (fun _ => absent) present left right

/-- The first, which has no value, or the second with its value. -/
def orValue (left : Parser ρ Unit) (right : Parser ρ α) : Parser ρ (Option α) :=
  orValueWith some none left right

def orEffectWith (present : α → γ) (absent : γ) (left : Parser ρ α) (right : Parser ρ Unit) :
    Parser ρ γ :=
  .choice "ValueOr" present (fun _ => absent) left right

/-- The first with its value, or the second, which has none. -/
def orEffect (left : Parser ρ α) (right : Parser ρ Unit) : Parser ρ (Option α) :=
  orEffectWith some none left right

/-- A parser with its value, or nothing. -/
def option (inner : Parser ρ α) : Parser ρ (Option α) :=
  .opt some none inner

/-- A parser or nothing. -/
def optional (inner : Parser ρ Unit) : Parser ρ Unit :=
  .opt id () inner

/-! ## Repetition -/

/-- A parser several times, with a separator or without one. -/
def repeatedWith (name : String) (bounds : Repeat) (separator : Option (Parser ρ Unit))
    (fold : Fold α γ) (item : Parser ρ α) : Parser ρ γ :=
  match separator with
  | none => .iterate name bounds fold item
  | some separator => .iterateSeparated name bounds fold separator item

/-- A parser several times. -/
def rep (bounds : Repeat) (separator : Option (Parser ρ Unit)) (item : Parser ρ Unit) :
    Parser ρ Unit :=
  repeatedWith "Repeat" bounds separator .forget item

def repListWith (finish : List α → γ) (bounds : Repeat) (separator : Option (Parser ρ Unit))
    (item : Parser ρ α) : Parser ρ γ :=
  repeatedWith "Repeat" bounds separator (.collectWith finish) item

/-- A parser several times, with the list of the values. -/
def repList (bounds : Repeat) (separator : Option (Parser ρ Unit)) (item : Parser ρ α) :
    Parser ρ (List α) :=
  repListWith id bounds separator item

def countWith (finish : Nat → γ) (bounds : Repeat) (separator : Option (Parser ρ Unit))
    (item : Parser ρ Unit) : Parser ρ γ :=
  repeatedWith "RepeatCount" bounds separator (.countWith finish) item

/-- How many times a parser succeeds. -/
def count (bounds : Repeat) (separator : Option (Parser ρ Unit)) (item : Parser ρ Unit) :
    Parser ρ Nat :=
  countWith id bounds separator item

/-- A parser several times, with the values put together from a first state on. -/
def reduceWith {State : Type} (seed : State) (add : State → α → State) (finish : State → γ)
    (bounds : Repeat) (separator : Option (Parser ρ Unit)) (item : Parser ρ α) : Parser ρ γ :=
  repeatedWith "RepeatReduce" bounds separator (.reduceWith seed add finish) item

def fold1With (add : α → α → α) (finish : Option α → γ) (bounds : Repeat)
    (separator : Option (Parser ρ Unit)) (item : Parser ρ α) : Parser ρ γ :=
  repeatedWith "RepeatFold1" bounds separator (.fold1With add finish) item

/-- A parser several times, with the values put together from the first of them on. -/
def fold1 (add : α → α → α) (bounds : Repeat) (separator : Option (Parser ρ Unit))
    (item : Parser ρ α) : Parser ρ (Option α) :=
  fold1With add id bounds separator item

/-! ## Values -/

/-- The text that a parser reads. -/
def capture (inner : Parser ρ Unit) : Parser ρ String :=
  .captureWith id inner

/-- A parser with a fixed value. -/
def means (value : α) (inner : Parser ρ Unit) : Parser ρ α :=
  .mapped "Means" (fun _ => value) inner

/-- A parser with a value that is made when it is needed. -/
def meansWith (make : Unit → α) (inner : Parser ρ Unit) : Parser ρ α :=
  .mapped "MeansWith" make inner

/-- A parser with another value. -/
def map (f : α → γ) (inner : Parser ρ α) : Parser ρ γ :=
  .mapped "Map" f inner

/-- A parser without its value. -/
def unval (inner : Parser ρ α) : Parser ρ Unit :=
  .mapped "Unval" (fun _ => ()) inner

/-! ## Rules -/

/-- A rule that is after no value. -/
def lazy (r : ρ Unit) : Parser ρ Unit :=
  .rule "Lazy" r

/-- A rule with a value. -/
def lazyVal (r : ρ α) : Parser ρ α :=
  .rule "LazyVal" r

end Parser

end TextGrammar
