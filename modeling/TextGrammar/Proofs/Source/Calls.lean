import TextGrammar.Proofs.Source.Faults

set_option autoImplicit false

/-! # Looking and reading in any order

A source is a queue of characters and faults, those that it has not delivered. Whatever it is asked,
the reply tells the first item; a fault leaves the queue when it is reported, and a character when it
is read. So the items that calls take away are the first ones of the queue, in order, and two sources
with the same queue cannot be told apart: a text is the queue of its characters. -/

namespace TextGrammar

namespace Source

/-- What a source is asked for. -/
inductive Call where
  | peek
  | read
deriving DecidableEq, Repr

/-- What comes of a call: a character, nothing at the end, or a fault. -/
abbrev Reply := Except Fault (Option Char)

/-- The reply of a reading, and the source that it leaves. -/
def reply : EStateM.Result Fault Source (Option Char) → Reply × Source
  | .ok found s => (.ok found, s)
  | .error f s => (.error f, s)

/-- One call. -/
def call : Call → Source → Reply × Source
  | .peek, s => reply s.peek
  | .read, s => reply s.read

/-- Some calls, one after another. -/
def callAll : List Call → Source → List Reply × Source
  | [], s => ([], s)
  | c :: calls, s =>
    let (first, s) := s.call c
    let (replies, s) := s.callAll calls
    (first :: replies, s)

/-- The item that a call takes away: the character that is read, or the fault that is reported. -/
def taken : Call → Reply → Option Item
  | .read, .ok (some c) => some (.char c)
  | _, .error f => some (.fault f)
  | _, .ok _ => none

/-- The items that some calls take away. -/
def takenAll : List Call → List Reply → List Item
  | c :: calls, r :: replies => (taken c r).toList ++ takenAll calls replies
  | _, _ => []

/-- What tells the first item of a queue, or that there is none. -/
def telling : Option Item → Reply
  | some (.char c) => .ok (some c)
  | some (.fault f) => .error f
  | none => .ok none

theorem telling_eq_char_iff {item? : Option Item} {c : Char} :
    telling item? = .ok (some c) ↔ item? = some (.char c) := by
  rcases item? with _ | _ | _ <;> simp [telling]

@[simp] theorem undelivered_ofText (t : String) : (ofText t).undelivered = t.toList.map .char := by
  simp [ofText, undelivered]

/-! ## One call -/

/-- A reply tells the first item, and what it takes away leaves the rest of the queue. -/
structure Serves (s : Source) (c : Call) (result : Reply × Source) : Prop where
  tells : result.1 = telling s.undelivered.head?
  rest : (taken c result.1).toList ++ result.2.undelivered = s.undelivered

/-- A resource around a source passes the calls on. -/
theorem call_resource (c : Call) (inner : Source) (failure? : Option String) (closings : Nat) :
    (resource inner failure? closings).call c =
      ((inner.call c).1, .resource (inner.call c).2 failure? closings) := by
  cases c with
  | peek =>
      simp only [call, peek]
      cases peek inner <;> rfl
  | read =>
      simp only [call, read]
      cases read inner <;> rfl

theorem serves_text (s : TextSource) (c : Call) : Serves (.text s) c ((Source.text s).call c) := by
  have first : Except.ok s.peek = telling (Source.text s).undelivered.head? := by
    rw [s.peek_eq_head?, undelivered, List.head?_map]
    cases s.chars.head? <;> rfl
  cases c with
  | peek => exact ⟨first, rfl⟩
  | read =>
      refine ⟨first, ?_⟩
      simp only [call, read, reply, undelivered, s.peek_eq_head?, s.chars_advance]
      cases s.chars <;> rfl

theorem serves_items (s : ItemSource) (c : Call) : Serves (.items s) c ((Source.items s).call c) := by
  obtain ⟨items, ahead⟩ := s
  cases c <;> rcases ahead with _ | _ | _ <;> rcases items with _ | ⟨_ | _, rest⟩ <;>
    exact ⟨rfl, rfl⟩

theorem serves_call (s : Source) (c : Call) : Serves s c (s.call c) := by
  induction s with
  | text s => exact serves_text s c
  | items s => exact serves_items s c
  | resource inner failure? closings ih =>
      rw [call_resource]
      exact ⟨ih.tells, ih.rest⟩

/-- A look at a character takes nothing away. -/
theorem undelivered_of_peek {s : Source} {found : Char} (h : (s.call .peek).1 = .ok (some found)) :
    (s.call .peek).2.undelivered = s.undelivered := by
  have rest := (s.serves_call .peek).rest
  rw [h] at rest
  exact rest

/-! ## Many calls -/

theorem callAll_append (calls calls' : List Call) (s : Source) :
    s.callAll (calls ++ calls') =
      ((s.callAll calls).1 ++ ((s.callAll calls).2.callAll calls').1,
        ((s.callAll calls).2.callAll calls').2) := by
  induction calls generalizing s with
  | nil => rfl
  | cons c calls ih => simp only [List.cons_append, callAll, ih]

@[simp] theorem length_callAll (calls : List Call) (s : Source) :
    (s.callAll calls).1.length = calls.length := by
  induction calls generalizing s with
  | nil => rfl
  | cons c calls ih => simp [callAll, ih]

/-- The first replies are those to the first calls. -/
theorem take_callAll (calls : List Call) (s : Source) (n : Nat) :
    (s.callAll calls).1.take n = (s.callAll (calls.take n)).1 := by
  have cut := congrArg Prod.fst (callAll_append (calls.take n) (calls.drop n) s)
  rw [List.take_append_drop] at cut
  rcases Nat.le_total n calls.length with inside | beyond
  · rw [cut, List.take_left' (by simp [inside])]
  · rw [List.take_of_length_le (by simpa using beyond), List.take_of_length_le beyond]

/-- The calls up to one of them come to the calls before it and then this one. -/
theorem callAll_take_succ {calls : List Call} {n : Nat} {c : Call} (h : calls[n]? = some c)
    (s : Source) :
    (s.callAll (calls.take (n + 1))).2 = ((s.callAll (calls.take n)).2.call c).2 := by
  rw [List.take_add_one, h, callAll_append]
  rfl

/-- A reply is the one to its call, after the calls before it. -/
theorem getElem?_callAll {calls : List Call} {n : Nat} {c : Call} (h : calls[n]? = some c)
    (s : Source) :
    (s.callAll calls).1[n]? = some ((s.callAll (calls.take n)).2.call c).1 := by
  induction calls generalizing s n with
  | nil => simp at h
  | cons first calls ih =>
      cases n with
      | zero =>
          cases h
          rfl
      | succ n => exact ih h (s.call first).2

/-- What calls take away stands before what they leave. -/
theorem takenAll_append_undelivered (calls : List Call) (s : Source) :
    takenAll calls (s.callAll calls).1 ++ (s.callAll calls).2.undelivered = s.undelivered := by
  induction calls generalizing s with
  | nil => rfl
  | cons c calls ih =>
      have step := (s.serves_call c).rest
      simp only [callAll, takenAll, List.append_assoc]
      rw [ih, step]

/-- What is left behind some of the calls. -/
theorem undelivered_take (calls : List Call) (s : Source) (n : Nat) :
    (s.callAll (calls.take n)).2.undelivered =
      s.undelivered.drop (takenAll (calls.take n) ((s.callAll calls).1.take n)).length := by
  have whole := takenAll_append_undelivered (calls.take n) s
  rw [take_callAll, ← whole, List.drop_left]

/-- Each reply tells the first item that the calls before it have left. -/
theorem getElem?_callAll_eq_telling (calls : List Call) (s : Source) {n : Nat}
    (h : n < calls.length) :
    (s.callAll calls).1[n]? = some (telling
      s.undelivered[(takenAll (calls.take n) ((s.callAll calls).1.take n)).length]?) := by
  have asked := List.getElem?_eq_getElem h
  rw [getElem?_callAll asked, (serves_call _ _).tells, undelivered_take, List.head?_drop]

/-- Two sources that stand for the same queue give the same replies. -/
theorem callAll_congr {s s' : Source} (same : s.undelivered = s'.undelivered) (calls : List Call) :
    (s.callAll calls).1 = (s'.callAll calls).1 := by
  induction calls generalizing s s' with
  | nil => rfl
  | cons c calls ih =>
      have first : (s.call c).1 = (s'.call c).1 := by
        rw [(s.serves_call c).tells, (s'.serves_call c).tells, same]
      have rest := (s.serves_call c).rest.trans (same.trans (s'.serves_call c).rest.symm)
      rw [first] at rest
      simp only [callAll, first, ih (List.append_cancel_left rest)]

/-- A character that is looked at stays the first item as long as it is looked at only. -/
theorem head?_of_peeks {calls : List Call} {s : Source} {n m : Nat} {found : Char} (ahead : n ≤ m)
    (peeks : ∀ k, n ≤ k → k < m → calls[k]? = some .peek)
    (first : (s.callAll (calls.take n)).2.undelivered.head? = some (.char found)) :
    (s.callAll (calls.take m)).2.undelivered.head? = some (.char found) := by
  induction ahead with
  | refl => exact first
  | @step m ahead ih =>
      have still := ih fun k hk hkm => peeks k hk (Nat.lt_succ_of_lt hkm)
      have seen : ((s.callAll (calls.take m)).2.call .peek).1 = .ok (some found) := by
        rw [(serves_call _ _).tells, still]
        rfl
      rw [callAll_take_succ (peeks m ahead (Nat.lt_succ_self m)), undelivered_of_peek seen, still]

/-- Where all has been taken away, nothing comes any more. -/
theorem undelivered_of_taken {calls : List Call} {s : Source} {n m : Nat} (ahead : n ≤ m)
    (all : takenAll (calls.take n) ((s.callAll calls).1.take n) = s.undelivered) :
    (s.callAll (calls.take m)).2.undelivered = [] := by
  have none : (s.callAll (calls.take n)).2.undelivered = [] := by
    rw [undelivered_take, all, List.drop_length]
  have later := takenAll_append_undelivered ((calls.take m).drop n) (s.callAll (calls.take n)).2
  have both := congrArg Prod.snd (callAll_append (calls.take n) ((calls.take m).drop n) s)
  have same : calls.take n = (calls.take m).take n := by rw [List.take_take, Nat.min_eq_left ahead]
  rw [same, List.take_append_drop, ← same] at both
  rw [none] at later
  rw [both]
  exact (List.append_eq_nil_iff.mp later).2

/-! ## Texts -/

theorem text_advance (s : TextSource) : s.advance.text = s.text := by
  unfold TextSource.advance
  split <;> rfl

/-- A text stays the text that it is. -/
theorem callAll_text (calls : List Call) (s : TextSource) :
    ∃ s' : TextSource, ((Source.text s).callAll calls).2 = .text s' ∧ s'.text = s.text := by
  induction calls generalizing s with
  | nil => exact ⟨s, rfl, rfl⟩
  | cons c calls ih =>
      cases c with
      | peek => exact ih s
      | read =>
          obtain ⟨s', last, same⟩ := ih s.advance
          exact ⟨s', last, same.trans (text_advance s)⟩

/-- The place of a text source is the number of bytes of what comes before the rest. -/
theorem offset_of_remaining {s : TextSource} {read : List Char}
    (whole : read ++ s.chars = s.text.toList) :
    s.text = String.ofList read ++ s.remaining ∧
      s.place.offset.byteIdx = (String.ofList read).utf8ByteSize := by
  have splits := s.place.splits
  have text : s.text = String.ofList read ++ s.remaining := by
    apply String.toList_injective
    rw [String.toList_append, String.toList_ofList]
    exact whole.symm
  have before : (s.text.sliceTo s.place).copy = String.ofList read :=
    (String.append_left_inj _).mp (splits.eq_append.symm.trans text)
  refine ⟨text, ?_⟩
  rw [splits.offset_eq_rawEndPos, before]
  rfl

/-! ## Every item once, and one source for another -/

/-- Any calls to a list of characters and faults. The items that are taken away are the first ones of
the list, in order, and each reply tells the first of those that are left. So a character that has been
looked at is found again by every further look and by the next reading, and behind the last item nothing
is found. A text gives the replies of the list of its characters; its place stands behind the characters
that have been read, each in full, and what remains is the rest of the text. -/
theorem callAll_delivers (calls : List Call) :
    (∀ items : List Item,
      let replies := ((ofItems items).callAll calls).1
      replies.length = calls.length ∧ takenAll calls replies <+: items ∧
      (∀ n < calls.length, replies[n]? =
        some (telling items[(takenAll (calls.take n) (replies.take n)).length]?)) ∧
      (∀ n m found, n < m → m < calls.length →
        (∀ k, n ≤ k → k < m → calls[k]? = some .peek) →
        replies[n]? = some (.ok (some found)) → replies[m]? = some (.ok (some found))) ∧
      ∀ n m, takenAll (calls.take n) (replies.take n) = items → n ≤ m → m < calls.length →
        replies[m]? = some (.ok none)) ∧
    ∀ t : String,
      let (replies, s) := (ofText t).callAll calls
      replies = ((ofItems (t.toList.map .char)).callAll calls).1 ∧
      ∃ (s' : TextSource) (read : List Char), s = .text s' ∧ s'.text = t ∧
        takenAll calls replies = read.map .char ∧ t = String.ofList read ++ s'.remaining ∧
        s'.place.offset.byteIdx = (String.ofList read).utf8ByteSize ∧ s'.place.offset.IsValid t := by
  refine ⟨fun items => ?_, fun t => ?_⟩
  · intro replies
    have tells := @getElem?_callAll_eq_telling calls (ofItems items)
    refine ⟨length_callAll _ _, ⟨_, takenAll_append_undelivered calls (ofItems items)⟩,
      fun n h => tells h, ?_, ?_⟩
    · intro n m found ahead inside peeks seen
      have looked := getElem?_callAll (peeks n (Nat.le_refl n) ahead) (ofItems items)
      have first := telling_eq_char_iff.mp
        ((serves_call _ _).tells.symm.trans (Option.some.inj (looked.symm.trans seen)))
      have asked := List.getElem?_eq_getElem inside
      rw [getElem?_callAll asked, (serves_call _ _).tells,
        head?_of_peeks (Nat.le_of_lt ahead) peeks first]
      rfl
    · intro n m all ahead inside
      have asked := List.getElem?_eq_getElem inside
      rw [getElem?_callAll asked, (serves_call _ _).tells, undelivered_of_taken ahead all]
      rfl
  · obtain ⟨s', last, same⟩ := callAll_text calls (.ofText t)
    have replies := callAll_congr
      ((undelivered_ofText t).trans (undelivered_ofItems (t.toList.map .char)).symm) calls
    have whole := takenAll_append_undelivered calls (ofText t)
    change ((ofText t).callAll calls).2 = _ at last
    generalize (ofText t).callAll calls = result at last replies whole ⊢
    obtain ⟨told, s⟩ := result
    cases last
    rw [undelivered_ofText] at whole
    obtain ⟨read, rest, cut, taken, left⟩ := List.map_eq_append_iff.mp whole.symm
    have chars : s'.chars = rest := (List.map_inj_right fun _ _ => Item.char.inj).mp left.symm
    have text : read ++ s'.chars = s'.text.toList := by
      rw [chars, ← cut, same]
      rfl
    obtain ⟨before, offset⟩ := offset_of_remaining text
    change s'.text = t at same
    subst same
    exact ⟨replies, s', read, rfl, rfl, taken.symm, before, offset, s'.place.isValid⟩

/-- A character that is looked at twice behind a fault, and the end that is seen twice. -/
theorem callAll_delivers_behind_a_fault :
    let f : Fault := ⟨.interrupted, "again"⟩
    let calls : List Call := [.read, .peek, .peek, .peek, .read, .read, .peek]
    let replies := ((ofItems [.char 'a', .fault f, .char 'b']).callAll calls).1
    replies[2]? = some (.ok (some 'b')) ∧ replies[4]? = some (.ok (some 'b')) ∧
      takenAll (calls.take 5) (replies.take 5) = [.char 'a', .fault f, .char 'b'] ∧
      replies[6]? = some (.ok none) := by
  intro f calls replies
  obtain ⟨-, -, -, again, ends⟩ := (callAll_delivers calls).1 [.char 'a', .fault f, .char 'b']
  refine ⟨rfl, again 2 4 'b' (by decide) (by decide) (fun k hk hkm => ?_) rfl, rfl,
    ends 5 6 rfl (by decide) (by decide)⟩
  have known : k = 2 ∨ k = 3 := by omega
  rcases known with rfl | rfl <;> rfl

end Source

end TextGrammar
