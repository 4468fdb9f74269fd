/-
# JsonQuery.Proofs.Text.Escape -- what is written between quotes is read back

Both written forms write each character by itself, so both are read back one
character at a time: `Text.Reads` says that a piece of text is read as one
character, wherever it stands, and `readContent_flatMap` puts such pieces
together.  A code unit that is written is no surrogate, so it never joins a
neighbour (`decode_unit_cons`).

`readContent_quotedName` and `readContent_jsonString` are the two forms.  Both are
longer than the text (`length_le_flatMap`, of what is between the quotes).
-/
import JsonQuery.Text.Escape

namespace JsonQuery.Text

set_option autoImplicit false

/-! ## Code units -/

theorem hexDigit?_digitChar {n : Nat} (small : n < 16) : hexDigit? n.digitChar = some n :=
  (by decide : ∀ n < 16, hexDigit? n.digitChar = some n) n small

/-- Four hexadecimal digits read back as the code they were written for. -/
theorem hexUnit?_hex4 {code : Nat} (small : code < 0x10000) :
    hexUnit? (code / 0x1000 % 16).digitChar (code / 0x100 % 16).digitChar
      (code / 0x10 % 16).digitChar (code % 16).digitChar = some code := by
  have digit (n : Nat) : hexDigit? (n % 16).digitChar = some (n % 16) :=
    hexDigit?_digitChar (Nat.mod_lt n (by decide))
  simp only [hexUnit?, digit, Option.bind_eq_bind, Option.bind_some, Option.pure_def,
    Option.some.injEq]
  omega

theorem decode_char_cons (c : Char) (pieces : List Piece) :
    decode (.char c :: pieces) = c :: decode pieces := by
  rw [decode]

/-- A code unit that is no high surrogate stands for itself. -/
theorem decode_unit_cons {code : Nat} (plain : isHighSurrogate code = false)
    (pieces : List Piece) : decode (.unit code :: pieces) = unitChar code :: decode pieces := by
  match pieces with
  | [] => rfl
  | .char c :: rest => rw [decode, decode]
  | .unit low :: rest => simp [decode, plain]

/-! ## One character -/

/-- Between two of the delimiters a text is read as the character `c`. -/
def Reads (delimiter : Char) (text : List Char) (c : Char) : Prop :=
  ∃ piece bytes,
    (∀ rest, readContent delimiter (text ++ rest) =
      (readContent delimiter rest).after piece bytes) ∧
    ∀ pieces, decode (piece :: pieces) = c :: decode pieces

theorem readContent_plain {delimiter c : Char} (apart : c ≠ delimiter) (plain : c ≠ '\\')
    (rest : List Char) :
    readContent delimiter (c :: rest) =
      (readContent delimiter rest).after (.char c) c.utf8Size := by
  rw [readContent]
  · rw [if_neg apart]
  all_goals
    intros
    simp_all

theorem readContent_simple (delimiter : Char) {e c : Char} (simple : simpleEscape? e = some c)
    (rest : List Char) :
    readContent delimiter ('\\' :: e :: rest) =
      (readContent delimiter rest).after (.char c) 2 := by
  have other : e ≠ 'u' := by
    rintro rfl
    cases simple
  rw [readContent]
  · rw [simple]
  all_goals
    intros
    simp_all

theorem readContent_unit (delimiter : Char) {a b c d : Char} {code : Nat}
    (digits : hexUnit? a b c d = some code) (rest : List Char) :
    readContent delimiter ('\\' :: 'u' :: a :: b :: c :: d :: rest) =
      (readContent delimiter rest).after (.unit code) 6 := by
  rw [readContent, digits]

theorem readContent_unicode (delimiter c : Char) (small : c.toNat < 0x10000) (rest : List Char) :
    readContent delimiter (unicodeEscape c ++ rest) =
      (readContent delimiter rest).after (.unit c.toNat) 6 :=
  readContent_unit delimiter (hexUnit?_hex4 small) rest

theorem reads_self {delimiter c : Char} (apart : c ≠ delimiter) (plain : c ≠ '\\') :
    Reads delimiter [c] c :=
  ⟨.char c, c.utf8Size, readContent_plain apart plain, decode_char_cons c⟩

theorem reads_simple (delimiter : Char) {e c : Char} (simple : simpleEscape? e = some c) :
    Reads delimiter ['\\', e] c :=
  ⟨.char c, 2, readContent_simple delimiter simple, decode_char_cons c⟩

theorem reads_unicodeEscape (delimiter : Char) {c : Char} (small : c.toNat < 0xD800) :
    Reads delimiter (unicodeEscape c) c := by
  have high : isHighSurrogate c.toNat = false := by simp [isHighSurrogate]; omega
  have low : isLowSurrogate c.toNat = false := by simp [isLowSurrogate]; omega
  refine ⟨.unit c.toNat, 6, readContent_unicode delimiter c (by omega), fun pieces => ?_⟩
  simp [decode_unit_cons high, unitChar, high, low]

theorem reads_shortEscape (delimiter : Char) {c : Char} {text : List Char}
    (short : shortEscape? c = some text) : Reads delimiter text c := by
  unfold shortEscape? at short
  repeat' split at short
  all_goals
    cases short
    try
      rename_i is
      subst is
      exact reads_simple delimiter rfl

theorem ne_backslash_of_shortEscape? {c : Char} (none : shortEscape? c = none) : c ≠ '\\' := by
  rintro rfl
  cases none

theorem reads_nameChar (c : Char) : Reads '\'' (nameChar c) c := by
  unfold nameChar
  split
  · rename_i short
    exact reads_shortEscape _ short
  · rename_i none
    split
    · rename_i coded
      refine reads_unicodeEscape _ ?_
      simp only [isControl, Bool.or_eq_true, Bool.and_eq_true, decide_eq_true_eq] at coded
      rcases coded with quote | low | high
      · subst quote
        decide
      · omega
      · omega
    · rename_i plain
      simp only [Bool.or_eq_true, decide_eq_true_eq, not_or] at plain
      exact reads_self plain.1 (ne_backslash_of_shortEscape? none)

theorem reads_jsonChar (c : Char) : Reads '"' (jsonChar c) c := by
  unfold jsonChar
  split
  · rename_i short
    exact reads_shortEscape _ short
  · rename_i none
    split
    · rename_i quote
      subst quote
      exact reads_simple _ rfl
    split
    · exact reads_unicodeEscape _ (by omega)
    · rename_i quote _
      exact reads_self quote (ne_backslash_of_shortEscape? none)

/-! ## Quoted text -/

theorem readContent_delimiter {delimiter : Char} (plain : delimiter ≠ '\\') (rest : List Char) :
    readContent delimiter (delimiter :: rest) = .closed [] delimiter.utf8Size rest := by
  rw [readContent]
  · rw [if_pos rfl]
  all_goals
    intros
    simp_all

/-- Text written character by character, up to the closing quote, is read back. -/
theorem readContent_flatMap {delimiter : Char} (plain : delimiter ≠ '\\')
    {write : Char → List Char} (reads : ∀ c, Reads delimiter (write c) c) (text rest : List Char) :
    ∃ pieces width,
      readContent delimiter (text.flatMap write ++ delimiter :: rest) =
        .closed pieces width rest ∧ decode pieces = text := by
  induction text with
  | nil =>
    refine ⟨[], delimiter.utf8Size, ?_, rfl⟩
    rw [List.flatMap_nil, List.nil_append, readContent_delimiter plain]
  | cons c text ih =>
    obtain ⟨pieces, width, closed, decoded⟩ := ih
    obtain ⟨piece, bytes, read, decode_cons⟩ := reads c
    refine ⟨piece :: pieces, bytes + width, ?_, ?_⟩
    · rw [List.flatMap_cons, List.append_assoc, read, closed, Content.after]
    · rw [decode_cons, decoded]

theorem readContent_quotedName (name rest : List Char) :
    ∃ pieces width,
      readContent '\'' (name.flatMap nameChar ++ '\'' :: rest) = .closed pieces width rest ∧
        decode pieces = name :=
  readContent_flatMap (by decide) reads_nameChar name rest

theorem readContent_jsonString (text rest : List Char) :
    ∃ pieces width,
      readContent '"' (text.flatMap jsonChar ++ '"' :: rest) = .closed pieces width rest ∧
        decode pieces = text :=
  readContent_flatMap (by decide) reads_jsonChar text rest

/-! ## The length of quoted text -/

theorem Reads.ne_nil {delimiter c : Char} {text : List Char} (plain : delimiter ≠ '\\')
    (reads : Reads delimiter text c) : text ≠ [] := by
  rintro rfl
  obtain ⟨piece, bytes, read, -⟩ := reads
  have closed := read [delimiter]
  rw [List.nil_append, readContent_delimiter plain] at closed
  cases closed

/-- A text does not get shorter by being written. -/
theorem length_le_flatMap {delimiter : Char} (plain : delimiter ≠ '\\')
    {write : Char → List Char} (reads : ∀ c, Reads delimiter (write c) c) (text : List Char) :
    text.length ≤ (text.flatMap write).length := by
  induction text with
  | nil => exact Nat.le_refl 0
  | cons c text ih =>
    have some : 0 < (write c).length := List.length_pos_iff.2 ((reads c).ne_nil plain)
    rw [List.flatMap_cons, List.length_append, List.length_cons]
    omega

/-- Quotes make a name another text. -/
theorem quotedName_ne (name : List Char) : quotedName name ≠ name := by
  intro same
  have longer := congrArg List.length same
  have bound := length_le_flatMap (by decide) reads_nameChar name
  rw [quotedName, List.cons_append, List.length_cons, List.length_append] at longer
  omega

end JsonQuery.Text
