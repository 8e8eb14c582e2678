import TextGrammar.Proofs.Literal.Escapes

set_option autoImplicit false

/-! # Reading a string literal

The body of a string literal is split into characters and escapes from left to right. The text that it
stands for is what these mean, and the first part that is none of them is what is wrong with it. -/

namespace TextGrammar.Literal

open Text

/-- A text begins with characters and escapes that stand for another text, and the rest is behind
them. -/
inductive Reads (dialect : Dialect) : List Char → List Char → List Char → Prop where
  | nothing {text : List Char} : Reads dialect text [] text
  | plain {c : Char} {text meant rest : List Char} (bare : c ≠ '\\')
      (more : Reads dialect text meant rest) : Reads dialect (c :: text) (c :: meant) rest
  | escape {c : Char} {text behind meant rest : List Char} (here : Escapes dialect text c behind)
      (more : Reads dialect behind meant rest) : Reads dialect ('\\' :: text) (c :: meant) rest

variable {dialect : Dialect} {text rest : List Char} {c : Char} {unit high low : Nat}

/-! ## A whole text -/

theorem decode_of_bare (bare : c ≠ '\\') (text : List Char) :
    decode dialect (c :: text) = (decode dialect text).map (c :: ·) := by
  rw [decode]
  exact bare

theorem decode_of_escapes {behind : List Char} (h : Escapes dialect text c behind) :
    decode dialect ('\\' :: text) = (decode dialect behind).map (c :: ·) := by
  have here := escape_of_escapes h
  rw [decode]
  split
  · rename_i e failed
    cases failed.symm.trans here
  · rename_i c' behind' meant
    cases meant.symm.trans here
    rfl

theorem decode_of_malformed {e : EscapeError} (h : Malformed dialect text e) :
    decode dialect ('\\' :: text) = .error e := by
  have here := escape_of_malformed h
  rw [decode]
  split
  · rename_i e' failed
    cases failed.symm.trans here
    rfl
  · rename_i c' behind' meant
    cases meant.symm.trans here

/-- What is read stands before what the rest comes to. -/
theorem decode_of_reads {meant : List Char} (h : Reads dialect text meant rest) :
    decode dialect text = (decode dialect rest).map (meant ++ ·) := by
  induction h with
  | @nothing text =>
      cases decode dialect text with
      | error e => rfl
      | ok s => rfl
  | @plain c text meant rest bare more ih =>
      rw [decode_of_bare bare, ih]
      cases decode dialect rest with
      | error e => rfl
      | ok s => rfl
  | @escape c text behind meant rest here more ih =>
      rw [decode_of_escapes here, ih]
      cases decode dialect rest with
      | error e => rfl
      | ok s => rfl

/-- A text can be read up to its end or up to something malformed. The induction is on what is left. -/
theorem reads_cases (dialect : Dialect) (text : List Char) :
    (∃ meant, Reads dialect text meant []) ∨
      ∃ meant rest e, Reads dialect text meant ('\\' :: rest) ∧ Malformed dialect rest e := by
  induction hsize : text.length using Nat.strongRecOn generalizing text with
  | ind size ih =>
      cases text with
      | nil => exact .inl ⟨[], .nothing⟩
      | cons c text =>
          by_cases backslash : c = '\\'
          · subst backslash
            obtain ⟨c, behind, here⟩ | ⟨e, wrong⟩ := escape_cases dialect text
            · have shorter := length_of_escape (escape_of_escapes here)
              have less : behind.length < size := by
                rw [← hsize, List.length_cons]
                omega
              obtain ⟨meant, more⟩ | ⟨meant, rest, e, more, wrong⟩ := ih _ less behind rfl
              · exact .inl ⟨c :: meant, .escape here more⟩
              · exact .inr ⟨c :: meant, rest, e, .escape here more, wrong⟩
            · exact .inr ⟨[], text, e, .nothing, wrong⟩
          · have less : text.length < size := hsize ▸ Nat.lt_succ_self _
            obtain ⟨meant, more⟩ | ⟨meant, rest, e, more, wrong⟩ := ih _ less text rfl
            · exact .inl ⟨c :: meant, .plain backslash more⟩
            · exact .inr ⟨c :: meant, rest, e, .plain backslash more, wrong⟩

theorem decode_eq_ok_of_reads {meant : List Char} (h : Reads dialect text meant []) :
    decode dialect text = .ok meant := by
  rw [decode_of_reads h, decode, Except.map, List.append_nil]

theorem decode_eq_error_of_reads {meant : List Char} {e : EscapeError}
    (h : Reads dialect text meant ('\\' :: rest)) (wrong : Malformed dialect rest e) :
    decode dialect text = .error e := by
  rw [decode_of_reads h, decode_of_malformed wrong, Except.map]

theorem decode_eq_ok_iff {meant : List Char} :
    decode dialect text = .ok meant ↔ Reads dialect text meant [] := by
  refine ⟨fun decoded => ?_, decode_eq_ok_of_reads⟩
  obtain ⟨meant', h⟩ | ⟨_, _, _, h, wrong⟩ := reads_cases dialect text
  · cases decoded.symm.trans (decode_eq_ok_of_reads h)
    exact h
  · cases decoded.symm.trans (decode_eq_error_of_reads h wrong)

theorem decode_eq_error_iff {e : EscapeError} :
    decode dialect text = .error e ↔
      ∃ meant rest, Reads dialect text meant ('\\' :: rest) ∧ Malformed dialect rest e := by
  refine ⟨fun failed => ?_, fun ⟨_, _, h, wrong⟩ => decode_eq_error_of_reads h wrong⟩
  obtain ⟨_, h⟩ | ⟨meant, rest, e', h, wrong⟩ := reads_cases dialect text
  · cases failed.symm.trans (decode_eq_ok_of_reads h)
  · cases failed.symm.trans (decode_eq_error_of_reads h wrong)
    exact ⟨meant, rest, h, wrong⟩

/-! ## The numbers on the way -/

theorem hexDigits_lt {taken : Nat} (few : taken ≤ 4) (h : hexDigits taken 0 text = .ok (unit, rest)) :
    unit < 2 ^ 32 := by
  obtain ⟨group, unit', rest', rfl, length, whole⟩ | ⟨found, cut⟩ := hexDigits_cases taken .nil text
  · have scanned : hexDigits group.length 0 (group ++ rest') = _ :=
      hexDigits_of_isNumeral group .nil whole
    rw [length, h] at scanned
    cases scanned
    exact (whole.lt (by decide)).trans_le (by
      rw [List.nil_append, length]
      exact (Nat.pow_le_pow_right (by decide) few).trans (by decide))
  · rw [hexDigits_of_cutOff cut] at h
    cases h

theorem pairCode_lt (isHigh : isHighSurrogate high = true) (isLow : isLowSurrogate low = true) :
    0xD800 ≤ high ∧ 0xDC00 ≤ low ∧ pairCode high low < 2 ^ 32 := by
  rw [isHighSurrogate_iff] at isHigh
  rw [isLowSurrogate_iff] at isLow
  unfold pairCode
  omega

/-- A text is decoded exactly if it can be read to its end, as what it then means; otherwise the error
is what is wrong behind the first backslash that begins no escape. None of the numbers on the way passes
what holds it: an octal code eight bits, the others thirty-two, and what is subtracted from a surrogate
is no more than it. -/
theorem decode_reads (dialect : Dialect) (text : List Char) :
    (∀ meant, decode dialect text = .ok meant ↔ Reads dialect text meant []) ∧
    (∀ e, decode dialect text = .error e ↔
      ∃ meant rest, Reads dialect text meant ('\\' :: rest) ∧ Malformed dialect rest e) ∧
    (∀ c first, octalStart? dialect c = some first → ∀ taken ≤ (if first ≤ 3 then 2 else 1),
      ∀ text, (octalDigits taken first text).1 < 2 ^ 8) ∧
    (∀ taken ≤ 4, ∀ text unit rest, hexDigits taken 0 text = .ok (unit, rest) → unit < 2 ^ 32) ∧
    ∀ high low, isHighSurrogate high = true → isLowSurrogate low = true →
      0xD800 ≤ high ∧ 0xDC00 ≤ low ∧ pairCode high low < 2 ^ 32 := by
  refine ⟨fun _ => decode_eq_ok_iff, fun _ => decode_eq_error_iff, ?_, ?_, ?_⟩
  · exact fun c first start taken few text =>
      octalDigits_lt (octalStart?_eq_some_iff.mp start).2 few text
  · exact fun taken few text unit rest scanned => hexDigits_lt few scanned
  · exact fun high low isHigh isLow => pairCode_lt isHigh isLow

/-- An octal code before another digit and a unicode escape, and a high surrogate before an escape that
is no other half. -/
theorem decode_reads_octal :
    Reads .java "\\1018\\u0042".toList ['A', '8', 'B'] [] ∧
      (∃ meant rest, Reads .json "a\\uD83D\\n".toList meant ('\\' :: rest) ∧
        Malformed .json rest (.unpairedSurrogate 0xD83D)) ∧
      (octalDigits 2 1 "018".toList).1 < 2 ^ 8 ∧ 0x42 < 2 ^ 32 ∧
      pairCode 0xD83D 0xDE00 < 2 ^ 32 := by
  have java := decode_reads .java "\\1018\\u0042".toList
  have json := decode_reads .json "a\\uD83D\\n".toList
  refine ⟨(java.1 _).mp (by cbv), (json.2.1 _).mp (by cbv), ?_, ?_, ?_⟩
  · exact java.2.2.1 '1' 1 (by decide) 2 (by decide) _
  · exact java.2.2.2.1 4 (by decide) "0042".toList 0x42 [] (by decide)
  · exact (java.2.2.2.2 0xD83D 0xDE00 (by decide) (by decide)).2.2

end TextGrammar.Literal
