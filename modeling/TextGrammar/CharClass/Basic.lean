import TextGrammar.CharClass.RangeSet

set_option autoImplicit false

/-! # Character classes

A class is a set of characters, put together from single characters, ranges, unions and
complements. What can be written as ranges is kept as ranges; a complement stays a complement,
since it has no short list of ranges. The end of the input is no character and is in no class. -/

namespace TextGrammar

/-- A set of characters. -/
inductive CharClass where
  /-- One character. -/
  | exact (c : Char)
  /-- The members of a set of ranges. -/
  | ranges (members : RangeSet)
  /-- The members of several classes. -/
  | oneOf (members : List CharClass)
  /-- All characters outside a class. -/
  | outside (inner : CharClass)

namespace CharClass

/-! ## Membership -/

mutual

/-- The character is in the class. -/
def contains : CharClass → Char → Bool
  | .exact a, c => a == c
  | .ranges members, c => members.contains c
  | .oneOf members, c => anyContains members c
  | .outside inner, c => !inner.contains c

/-- The character is in one of the classes. -/
def anyContains : List CharClass → Char → Bool
  | [], _ => false
  | k :: ks, c => k.contains c || anyContains ks c

end

/-! ## Construction -/

/-- The class without members. -/
def empty : CharClass :=
  .ranges .empty

/-- A character stands for the class of which it is the only member. -/
instance : Coe Char CharClass := ⟨.exact⟩

/-- The characters of some ranges, which may overlap and come in any order. -/
def ofRanges (ranges : List CharRange) : CharClass :=
  .ranges (.ofList ranges)

/-- The characters between two bounds, given in either order. -/
def between (a b : Char) : CharClass :=
  .ranges (.ofRange (.between a b))

/-- The characters of a list. -/
def anyOf (chars : List Char) : CharClass :=
  ofRanges (chars.map .single)

/-- What classes are taken apart into: ranges, and classes that ranges cannot hold. -/
structure Parts where
  ranges : List CharRange
  others : List CharClass

mutual

/-- Takes a class apart, behind the parts that there are already. -/
def decompose : CharClass → Parts → Parts
  | .exact c, parts => { parts with ranges := parts.ranges ++ [.single c] }
  | .ranges members, parts => { parts with ranges := parts.ranges ++ members.ranges }
  | .oneOf members, parts => decomposeAll members parts
  | .outside inner, parts => { parts with others := parts.others ++ [.outside inner] }

/-- Takes some classes apart, one after another. -/
def decomposeAll : List CharClass → Parts → Parts
  | [], parts => parts
  | k :: ks, parts => decomposeAll ks (k.decompose parts)

end

/-- What a union is put together from: the ranges come first, if there are any. -/
def unionMembers (ranges : RangeSet) (others : List CharClass) : List CharClass :=
  if ranges.isEmpty then others else .ranges ranges :: others

/-- The class of what ranges and further classes hold, in its simplest form. -/
def assemble (ranges : RangeSet) (others : List CharClass) : CharClass :=
  if others.isEmpty then .ranges ranges
  else
    match unionMembers ranges others with
    | [only] => only
    | members => .oneOf members

/-- The union of two classes, both taken apart and put together anew. -/
def reassemble (k l : CharClass) : CharClass :=
  let parts := l.decompose (k.decompose ⟨[], []⟩)
  assemble (.ofList parts.ranges) parts.others

/-- The characters in either class. A single character that the other class has already changes
nothing. -/
def union : CharClass → CharClass → CharClass
  | .exact a, .exact b => if a = b then .exact a else reassemble (.exact a) (.exact b)
  | .exact a, l => if l.contains a then l else reassemble (.exact a) l
  | k, .exact b => if k.contains b then k else reassemble k (.exact b)
  | .ranges members, .ranges others => .ranges (.ofList (members.ranges ++ others.ranges))
  | k, l => reassemble k l

/-- The class and one character more. -/
def insert (k : CharClass) (c : Char) : CharClass :=
  if k.contains c then k
  else
    match k with
    | .exact a => ofRanges [.single a, .single c]
    | .ranges members => .ranges (.ofList (members.ranges ++ [.single c]))
    | k => k.union (.exact c)

/-- The characters that are not in the class. Twice the complement is the class itself. -/
def complement : CharClass → CharClass
  | .outside inner => inner
  | k => .outside k

/-- The ranges of a class that is nothing but ranges. -/
def ranges? : CharClass → Option (List CharRange)
  | .ranges members => some members.ranges
  | _ => none

/-! ## Membership of what is constructed -/

@[simp] theorem contains_ofRanges (ranges : List CharRange) (c : Char) :
    (ofRanges ranges).contains c = ranges.any (·.contains c) := by
  simp [ofRanges, contains]

@[simp] theorem contains_between (a b c : Char) :
    (between a b).contains c = (CharRange.between a b).contains c := by
  simp [between, contains]

theorem contains_anyOf (chars : List Char) (c : Char) :
    (anyOf chars).contains c = chars.any (· == c) := by
  simp [anyOf, List.any_map, Function.comp_def, CharRange.contains_single]

theorem anyContains_append (ks ls : List CharClass) (c : Char) :
    anyContains (ks ++ ls) c = (anyContains ks c || anyContains ls c) := by
  induction ks with
  | nil => simp [anyContains]
  | cons k ks ih => simp [anyContains, ih, Bool.or_assoc]

/-- The character is in one of the parts. -/
def Parts.contains (parts : Parts) (c : Char) : Bool :=
  parts.ranges.any (·.contains c) || anyContains parts.others c

mutual

/-- Taking a class apart adds its members to those of the parts. -/
theorem contains_decompose (k : CharClass) (parts : Parts) (c : Char) :
    (k.decompose parts).contains c = (parts.contains c || k.contains c) := by
  cases k with
  | exact a =>
      simp [decompose, Parts.contains, contains, CharRange.contains_single, Bool.or_right_comm]
  | ranges members =>
      simp [decompose, Parts.contains, contains, RangeSet.contains_eq_any, Bool.or_right_comm]
  | oneOf members =>
      rw [decompose, contains_decomposeAll members, contains]
  | outside inner =>
      simp [decompose, Parts.contains, contains, anyContains_append, anyContains, Bool.or_assoc]

theorem contains_decomposeAll (ks : List CharClass) (parts : Parts) (c : Char) :
    (decomposeAll ks parts).contains c = (parts.contains c || anyContains ks c) := by
  cases ks with
  | nil => simp [decomposeAll, anyContains]
  | cons k ks =>
      rw [decomposeAll, contains_decomposeAll ks, contains_decompose k, anyContains, Bool.or_assoc]

end

theorem contains_of_isEmpty {members : RangeSet} (h : members.isEmpty = true) (c : Char) :
    members.contains c = false := by
  rw [RangeSet.contains_eq_any, List.isEmpty_iff.mp h, List.any_nil]

theorem contains_unionMembers (ranges : RangeSet) (others : List CharClass) (c : Char) :
    anyContains (unionMembers ranges others) c = (ranges.contains c || anyContains others c) := by
  unfold unionMembers
  split
  · rename_i none
    rw [contains_of_isEmpty none, Bool.false_or]
  · rw [anyContains, contains]

/-- Putting parts together keeps what they hold: ranges without members are left out, and a single part
needs no union. -/
theorem contains_assemble (ranges : RangeSet) (others : List CharClass) (c : Char) :
    (assemble ranges others).contains c = (ranges.contains c || anyContains others c) := by
  have members := contains_unionMembers ranges others c
  unfold assemble
  split
  · rename_i none
    simp [List.isEmpty_iff.mp none, contains, anyContains]
  · split
    · rename_i only single
      rwa [single, anyContains, anyContains, Bool.or_false] at members
    · rwa [contains]

theorem contains_reassemble (k l : CharClass) (c : Char) :
    (reassemble k l).contains c = (k.contains c || l.contains c) := by
  have taken := contains_decompose l (k.decompose ⟨[], []⟩) c
  rw [contains_decompose k] at taken
  simpa [reassemble, contains_assemble, Parts.contains, anyContains] using taken

@[simp] theorem contains_union (k l : CharClass) (c : Char) :
    (k.union l).contains c = (k.contains c || l.contains c) := by
  unfold union
  split
  · split
    · grind [contains]
    · exact contains_reassemble _ _ _
  · split
    · grind [contains]
    · exact contains_reassemble _ _ _
  · split
    · grind [contains]
    · exact contains_reassemble _ _ _
  · simp [contains, ← RangeSet.contains_eq_any]
  · exact contains_reassemble _ _ _

@[simp] theorem contains_insert (k : CharClass) (a c : Char) :
    (k.insert a).contains c = (k.contains c || a == c) := by
  unfold insert
  split
  · grind
  · split
    · simp [contains, CharRange.contains_single]
    · simp [contains, ← RangeSet.contains_eq_any, CharRange.contains_single]
    · rw [contains_union, contains]

@[simp] theorem contains_complement (k : CharClass) (c : Char) :
    k.complement.contains c = !k.contains c := by
  cases k <;> simp [complement, contains]

end CharClass

end TextGrammar
