/-
# JsonQuery.Proofs.Text.Content -- what may stand between quotes

The content of quoted text is a sequence of characters and escape sequences, and each of
them is a piece (`Piece.Written`, `Text.Written`).  Reading up to the closing quote accepts
just that, and gives the pieces and the bytes that they take (`readContent_written`,
`written_of_readContent`).  Where it breaks off, at a backslash, all before that is made of
pieces as well (`written_of_broken`).

Widths count the bytes of a text in UTF-8 (`bytes`), of which an escape sequence takes one
for each of its characters.
-/
import JsonQuery.Proofs.Text.Escape
import Mathlib.Algebra.Group.Nat.Defs

namespace JsonQuery.Text

set_option autoImplicit false

/-! ## Bytes -/

/-- The number of bytes that a text takes. -/
def bytes (text : List Char) : Nat := (String.ofList text).utf8ByteSize

@[simp] theorem bytes_nil : bytes [] = 0 := by simp [bytes]

@[simp] theorem bytes_cons (c : Char) (text : List Char) :
    bytes (c :: text) = c.utf8Size + bytes text := by
  simp [bytes]

@[simp] theorem bytes_append (one two : List Char) :
    bytes (one ++ two) = bytes one + bytes two := by
  simp [bytes, String.ofList_append]

@[simp] theorem bytes_toList (text : String) : bytes text.toList = text.utf8ByteSize := by
  simp [bytes]

theorem utf8Size_of_lt {c : Char} (ascii : c.toNat < 128) : c.utf8Size = 1 :=
  Char.utf8Size_eq_one_iff.2 (UInt32.le_iff_toNat_le.2 (Nat.le_of_lt_succ ascii))

/-- A text of ASCII characters takes a byte for each. -/
theorem bytes_of_lt {text : List Char} (ascii : ∀ c ∈ text, c.toNat < 128) :
    bytes text = text.length := by
  induction text with
  | nil => exact bytes_nil
  | cons c rest ih =>
    obtain ⟨first, others⟩ := List.forall_mem_cons.1 ascii
    rw [bytes_cons, utf8Size_of_lt first, ih others, List.length_cons, Nat.add_comm]

/-! ## Pieces -/

/-- The escape sequences of two characters: what stands behind the backslash, and the
character that the sequence stands for. -/
def shortEscapes : List (Char × Char) :=
  [('"', '"'), ('\\', '\\'), ('/', '/'), ('b', '\x08'), ('f', '\x0c'), ('n', '\n'), ('r', '\r'),
    ('t', '\t')]

/-- A character is the hexadecimal digit of a number, in lower case or in upper case. -/
def IsHexDigit (c : Char) (digit : Nat) : Prop :=
  digit < 16 ∧ (c = digit.digitChar ∨ c = digit.digitChar.toUpper)

/-- Four characters are the hexadecimal digits of a number. -/
def IsHexUnit (a b c d : Char) (code : Nat) : Prop :=
  ∃ one two three four, IsHexDigit a one ∧ IsHexDigit b two ∧ IsHexDigit c three ∧
    IsHexDigit d four ∧ code = one * 16 ^ 3 + two * 16 ^ 2 + three * 16 + four

/-- A text is one piece of what stands between two delimiters: a character other than the
delimiter and the backslash, or an escape sequence of two characters, or one of four
hexadecimal digits. -/
inductive Piece.Written (delimiter : Char) : List Char → Piece → Prop
  | plain {c : Char} (apart : c ≠ delimiter) (unescaped : c ≠ '\\') :
      Written delimiter [c] (.char c)
  | simple {e c : Char} (stands : (e, c) ∈ shortEscapes) : Written delimiter ['\\', e] (.char c)
  | unit {a b c d : Char} {code : Nat} (digits : IsHexUnit a b c d code) :
      Written delimiter ['\\', 'u', a, b, c, d] (.unit code)

/-- A text is made of pieces, one after the other. -/
inductive Written (delimiter : Char) : List Char → List Piece → Prop
  | nil : Written delimiter [] []
  | cons {chars content : List Char} {piece : Piece} {pieces : List Piece}
      (first : piece.Written delimiter chars) (others : Written delimiter content pieces) :
      Written delimiter (chars ++ content) (piece :: pieces)

theorem simpleEscape?_eq_some_iff {e c : Char} :
    simpleEscape? e = some c ↔ (e, c) ∈ shortEscapes := by
  constructor
  · intro stands
    unfold simpleEscape? at stands
    split at stands <;> cases stands <;> decide
  · intro mem
    have all : ∀ escape ∈ shortEscapes, simpleEscape? escape.1 = some escape.2 := by decide
    exact all (e, c) mem

theorem toNat_of_mem_shortEscapes {e c : Char} (stands : (e, c) ∈ shortEscapes) :
    e.toNat < 128 := by
  have all : ∀ escape ∈ shortEscapes, escape.1.toNat < 128 := by decide
  exact all (e, c) stands

theorem toNat_of_hexDigit? {c : Char} {digit : Nat} (is : hexDigit? c = some digit) :
    c.toNat < 128 := by
  have bound {last : Char} (below : c ≤ last) (small : last.toNat < 128) : c.toNat < 128 :=
    Nat.lt_of_le_of_lt (UInt32.le_iff_toNat_le.1 below) small
  unfold hexDigit? at is
  split at is
  · rename_i range
    exact bound range.2 (by decide)
  split at is
  · rename_i range
    exact bound range.2 (by decide)
  split at is
  · rename_i range
    exact bound range.2 (by decide)
  · cases is

theorem hexDigit?_eq_some_iff {c : Char} {digit : Nat} :
    hexDigit? c = some digit ↔ IsHexDigit c digit := by
  have ascii : ∀ code < 128, ∀ digit ∈ hexDigit? (Char.ofNat code), digit < 16 ∧
      (Char.ofNat code = digit.digitChar ∨ Char.ofNat code = digit.digitChar.toUpper) := by
    decide +kernel
  have upper : ∀ digit < 16, hexDigit? digit.digitChar.toUpper = some digit := by
    decide +kernel
  constructor
  · intro is
    have table := ascii c.toNat (toNat_of_hexDigit? is)
    rw [Char.ofNat_toNat] at table
    exact table digit is
  · rintro ⟨small, rfl | rfl⟩
    · exact hexDigit?_digitChar small
    · exact upper digit small

theorem hexUnit?_eq_some_iff {a b c d : Char} {code : Nat} :
    hexUnit? a b c d = some code ↔ IsHexUnit a b c d code := by
  have places (one two three four : Nat) : ((one * 16 + two) * 16 + three) * 16 + four =
      one * 16 ^ 3 + two * 16 ^ 2 + three * 16 + four := by omega
  constructor
  · intro digits
    obtain ⟨one, first, digits⟩ := Option.bind_eq_some_iff.1 digits
    obtain ⟨two, second, digits⟩ := Option.bind_eq_some_iff.1 digits
    obtain ⟨three, third, digits⟩ := Option.bind_eq_some_iff.1 digits
    obtain ⟨four, fourth, stands⟩ := Option.bind_eq_some_iff.1 digits
    refine ⟨one, two, three, four, hexDigit?_eq_some_iff.1 first, hexDigit?_eq_some_iff.1 second,
      hexDigit?_eq_some_iff.1 third, hexDigit?_eq_some_iff.1 fourth, ?_⟩
    rw [← places, ← Option.some.inj stands]
  · rintro ⟨one, two, three, four, first, second, third, fourth, rfl⟩
    rw [hexUnit?, hexDigit?_eq_some_iff.2 first, hexDigit?_eq_some_iff.2 second,
      hexDigit?_eq_some_iff.2 third, hexDigit?_eq_some_iff.2 fourth, ← places]
    rfl

theorem IsHexUnit.lt {a b c d : Char} {code : Nat} (digits : IsHexUnit a b c d code) :
    code < 0x10000 := by
  obtain ⟨one, two, three, four, ⟨one_lt, -⟩, ⟨two_lt, -⟩, ⟨three_lt, -⟩, ⟨four_lt, -⟩, rfl⟩ :=
    digits
  omega

theorem bytes_simple {e c : Char} (stands : (e, c) ∈ shortEscapes) : bytes ['\\', e] = 2 := by
  have one := utf8Size_of_lt (toNat_of_mem_shortEscapes stands)
  simp [one]
  rfl

theorem bytes_unit {a b c d : Char} {code : Nat} (digits : IsHexUnit a b c d code) :
    bytes ['\\', 'u', a, b, c, d] = 6 := by
  have ascii {c : Char} {digit : Nat} (is : IsHexDigit c digit) : c.toNat < 128 :=
    toNat_of_hexDigit? (hexDigit?_eq_some_iff.2 is)
  obtain ⟨_, _, _, _, first, second, third, fourth, -⟩ := digits
  refine bytes_of_lt fun x mem => ?_
  simp only [List.mem_cons, List.not_mem_nil, or_false] at mem
  obtain rfl | rfl | rfl | rfl | rfl | rfl := mem
  · decide
  · decide
  · exact ascii first
  · exact ascii second
  · exact ascii third
  · exact ascii fourth

/-! ## Reading pieces -/

theorem readContent_piece {delimiter : Char} {chars : List Char} {piece : Piece}
    (written : piece.Written delimiter chars) (rest : List Char) :
    readContent delimiter (chars ++ rest) =
      (readContent delimiter rest).after piece (bytes chars) := by
  cases written with
  | plain apart unescaped =>
    rw [List.cons_append, List.nil_append, readContent_plain apart unescaped]
    simp
  | simple stands =>
    rw [bytes_simple stands]
    exact readContent_simple delimiter (simpleEscape?_eq_some_iff.2 stands) rest
  | unit digits =>
    rw [bytes_unit digits]
    exact readContent_unit delimiter (hexUnit?_eq_some_iff.2 digits) rest

/-- What is written between two delimiters is read as the pieces that it is made of. -/
theorem readContent_written {delimiter : Char} (plain : delimiter ≠ '\\') {content : List Char}
    {pieces : List Piece} (written : Written delimiter content pieces) (rest : List Char) :
    readContent delimiter (content ++ delimiter :: rest) =
      .closed pieces (bytes content + delimiter.utf8Size) rest := by
  induction written with
  | nil =>
    rw [List.nil_append, readContent_delimiter plain, bytes_nil, Nat.zero_add]
  | cons first others ih =>
    rw [List.append_assoc, readContent_piece first, ih, Content.after, bytes_append, Nat.add_assoc]

/-- A character that begins a text is no backslash if it begins no escape sequence and does
not stand alone. -/
theorem ne_backslash_of_apart {c : Char} {tail : List Char}
    (escape : ∀ e more, c = '\\' → tail = e :: more → False)
    (alone : c = '\\' → tail = [] → False) : c ≠ '\\' := by
  rintro rfl
  cases tail with
  | nil => exact alone rfl rfl
  | cons e more => exact escape e more rfl rfl

/-- A piece at the head of a text goes before the content of the rest. -/
theorem written_after {delimiter : Char} {chars tail rest : List Char} {piece : Piece}
    (first : piece.Written delimiter chars)
    (others : ∀ {pieces width}, readContent delimiter tail = .closed pieces width rest →
      ∃ content, tail = content ++ delimiter :: rest ∧ Written delimiter content pieces)
    {bytes width : Nat} {pieces : List Piece}
    (closed : (readContent delimiter tail).after piece bytes = .closed pieces width rest) :
    ∃ content, chars ++ tail = content ++ delimiter :: rest ∧
      Written delimiter content pieces := by
  obtain ⟨more, _, read, rfl⟩ := Content.exists_of_after_eq_closed closed
  obtain ⟨content, rfl, written⟩ := others read
  exact ⟨chars ++ content, (List.append_assoc ..).symm, .cons first written⟩

/-- What is read up to a closing delimiter is made of pieces. -/
theorem written_of_readContent {delimiter : Char} {text rest : List Char} {pieces : List Piece}
    {width : Nat} (closed : readContent delimiter text = .closed pieces width rest) :
    ∃ content, text = content ++ delimiter :: rest ∧ Written delimiter content pieces := by
  fun_induction readContent delimiter text generalizing pieces width with
  | case1 => cases closed
  | case2 a b c d tail code digits ih =>
    exact written_after (.unit (hexUnit?_eq_some_iff.1 digits)) ih closed
  | case3 => cases closed
  | case4 => cases closed
  | case5 e tail _ _ c stands ih =>
    exact written_after (.simple (simpleEscape?_eq_some_iff.1 stands)) ih closed
  | case6 => cases closed
  | case7 => cases closed
  | case8 tail =>
    cases closed
    exact ⟨[], rfl, .nil⟩
  | case9 c tail _ _ escape alone apart ih =>
    exact written_after (.plain apart (ne_backslash_of_apart escape alone)) ih closed

/-! ## Where reading breaks off -/

/-- The bytes before the backslash of a sequence that is no escape. -/
def Content.brokenAt? : Content → Option Nat
  | .invalidEscape width | .invalidUnicode width => some width
  | .closed .. | .unclosed => none

theorem Content.brokenAt?_after (piece : Piece) (bytes : Nat) (content : Content) :
    (content.after piece bytes).brokenAt? = content.brokenAt?.map (bytes + ·) := by
  cases content <;> rfl

/-- A piece at the head of a text goes before what is written up to the backslash. -/
theorem broken_after {delimiter : Char} {chars tail : List Char} {piece : Piece} {size : Nat}
    (first : piece.Written delimiter chars) (size_eq : bytes chars = size)
    (others : ∀ {width}, (readContent delimiter tail).brokenAt? = some width →
      ∃ content pieces rest, tail = content ++ '\\' :: rest ∧ width = bytes content ∧
        Written delimiter content pieces)
    {width : Nat}
    (broken : ((readContent delimiter tail).after piece size).brokenAt? = some width) :
    ∃ content pieces rest, chars ++ tail = content ++ '\\' :: rest ∧ width = bytes content ∧
      Written delimiter content pieces := by
  rw [Content.brokenAt?_after] at broken
  obtain ⟨width', broken', rfl⟩ := Option.map_eq_some_iff.1 broken
  obtain ⟨content, pieces, rest, rfl, rfl, written⟩ := others broken'
  refine ⟨chars ++ content, piece :: pieces, rest, (List.append_assoc ..).symm, ?_,
    .cons first written⟩
  rw [bytes_append, size_eq]

/-- Reading breaks off at a backslash, and what is before it is made of pieces. -/
theorem written_of_broken {delimiter : Char} {text : List Char} {width : Nat}
    (broken : (readContent delimiter text).brokenAt? = some width) :
    ∃ content pieces rest, text = content ++ '\\' :: rest ∧ width = bytes content ∧
      Written delimiter content pieces := by
  have here (rest : List Char) : ∃ content pieces rest',
      '\\' :: rest = content ++ '\\' :: rest' ∧ 0 = bytes content ∧
        Written delimiter content pieces :=
    ⟨[], [], rest, rfl, bytes_nil.symm, .nil⟩
  fun_induction readContent delimiter text generalizing width with
  | case1 => cases broken
  | case2 a b c d tail code digits ih =>
    have digits := hexUnit?_eq_some_iff.1 digits
    exact broken_after (.unit digits) (bytes_unit digits) ih broken
  | case3 | case4 | case6 | case7 =>
    cases broken
    exact here _
  | case5 e tail _ _ c stands ih =>
    have stands := simpleEscape?_eq_some_iff.1 stands
    exact broken_after (.simple stands) (bytes_simple stands) ih broken
  | case8 tail => cases broken
  | case9 c tail _ _ escape alone apart ih =>
    exact broken_after (.plain apart (ne_backslash_of_apart escape alone)) (by simp) ih broken

end JsonQuery.Text
