/-
# JsonQuery.Proofs.Token.Fault -- where reading tokens breaks off

A token that cannot be read breaks off at its first character, or, where a sequence between
quotes is no escape, at the backslash of that sequence (`BreaksOff`).  The text before the
token has tokens: every form in it is the longest that the whole text goes on with, so it is
the longest that the shorter text goes on with.  So an error says where the tokens of a text
end: behind the text before the token, and as many bytes on as are read of the token itself
(`tokenize_refused`).
-/
import JsonQuery.Proofs.Token.Lexed

namespace JsonQuery

set_option autoImplicit false

/-- An error about a sequence that is no escape. -/
def LexCause.OfEscape : LexCause → Prop
  | .invalidEscape | .invalidUnicodeEscape => True
  | _ => False

/-- What is read of a token before the character at which it breaks off. -/
inductive BreaksOff : LexCause → List Char → Char → Prop
  /-- Nothing: the token breaks off at its first character. -/
  | first {cause : LexCause} (other : ¬ cause.OfEscape) (c : Char) : BreaksOff cause [] c
  /-- An opening quote and what may stand behind it, up to a backslash. -/
  | escape {cause : LexCause} {quote : Char} {content : List Char} {pieces : List Text.Piece}
      (is : cause.OfEscape) (opening : quote = '"' ∨ quote = '\'')
      (written : Text.Written quote content pieces) : BreaksOff cause (quote :: content) '\\'

/-! ## One token -/

/-- A text begins with a token that breaks off, after so many bytes, at a character. -/
def BreaksOffAfter (text : List Char) (cause : LexCause) (width : Nat) (c : Char) : Prop :=
  ∃ opened rest, text = opened ++ c :: rest ∧ width = Text.bytes opened ∧ BreaksOff cause opened c

theorem breaksOffAfter_first {cause : LexCause} (other : ¬ cause.OfEscape) (c : Char)
    (rest : List Char) : BreaksOffAfter (c :: rest) cause 0 c :=
  ⟨[], rest, rfl, Text.bytes_nil.symm, .first other c⟩

theorem breaksOffAfter_of_readNumber {first c : Char} {negative : Bool} {text : List Char}
    {cause : LexCause} {width : Nat} (rest : List Char)
    (read : readNumber first negative text = .fault cause width c) :
    BreaksOffAfter (first :: rest) cause width c := by
  simp only [readNumber] at read
  split at read
  · cases read
  · cases read
    exact breaksOffAfter_first id first rest

theorem breaksOffAfter_of_broken {quote : Char} {text : List Char} {cause : LexCause}
    {width : Nat} (opening : quote = '"' ∨ quote = '\'') (is : cause.OfEscape)
    (broken : (Text.readContent quote text).brokenAt? = some width) :
    BreaksOffAfter (quote :: text) cause (quote.utf8Size + width) '\\' := by
  obtain ⟨content, pieces, rest, rfl, rfl, written⟩ := Text.written_of_broken broken
  exact ⟨quote :: content, rest, rfl, (Text.bytes_cons ..).symm, .escape is opening written⟩

theorem breaksOffAfter_of_readQuoted {quote c : Char} {unterminated cause : LexCause}
    {make : String → Token} {text : List Char} {width : Nat} (opening : quote = '"' ∨ quote = '\'')
    (other : ¬ unterminated.OfEscape)
    (read : readQuoted quote unterminated make text = .fault cause width c) :
    BreaksOffAfter (quote :: text) cause width c := by
  unfold readQuoted at read
  split at read
  · cases read
  · cases read
    exact breaksOffAfter_first other quote text
  · rename_i broken
    cases read
    exact breaksOffAfter_of_broken opening trivial (broken ▸ rfl)
  · rename_i broken
    cases read
    exact breaksOffAfter_of_broken opening trivial (broken ▸ rfl)

theorem breaksOffAfter_of_readToken {c c' : Char} {tail : List Char} {cause : LexCause}
    {width : Nat} (read : readToken c tail = .fault cause width c') :
    BreaksOffAfter (c :: tail) cause width c' := by
  unfold readToken at read
  split at read
  · exact breaksOffAfter_of_readNumber tail read
  split at read
  · cases read
  split at read
  -- The cases of a minus sign, of the two quotes and of any other character are left.
  all_goals try cases read
  · split at read
    · exact breaksOffAfter_of_readNumber _ read
    · cases read
      exact breaksOffAfter_first id '-' _
  · exact breaksOffAfter_of_readQuoted (.inl rfl) id read
  · exact breaksOffAfter_of_readQuoted (.inr rfl) id read
  · refine breaksOffAfter_first ?_ c _
    split <;> exact id

/-! ## All tokens -/

/-- A scan that fails has passed a text with tokens, and fails to read the one behind it. -/
theorem passed_of_scan {offset : Nat} {text before : List Char} {error : LexError}
    (stands : offset = Text.bytes before) (refused : scan offset text = .error error) :
    ∃ passed c tail tokens width, text = passed ++ c :: tail ∧ Lexed before passed tokens ∧
      isBlank c = false ∧ readToken c tail = .fault error.cause width error.character ∧
      error.offset = Text.bytes (before ++ passed) + width := by
  fun_induction scan offset text generalizing before error with
  | case1 => cases refused
  | case2 offset c text blank ih =>
    have behind : offset + 1 = Text.bytes (before ++ [c]) := by
      rw [stands, Text.bytes_append, Text.bytes_cons, utf8Size_of_isBlank blank, Text.bytes_nil]
    obtain ⟨passed, first, tail, tokens, width, rfl, lexed, unblank, fault, at_⟩ :=
      ih behind refused
    refine ⟨c :: passed, first, tail, tokens, width, rfl, lexed.after_blank (isBlank_iff.1 blank),
      unblank,
      fault, ?_⟩
    rw [at_, List.append_assoc, List.singleton_append]
  | case3 offset c text unblank token width rest read ih =>
    obtain ⟨lexeme, split, longest, finite, rfl⟩ := longest_of_readToken read
    have behind : offset + Text.bytes lexeme = Text.bytes (before ++ ([] ++ lexeme)) := by
      rw [stands, List.nil_append, Text.bytes_append]
    cases more : scan (offset + Text.bytes lexeme) rest with
    | ok others =>
      rw [more] at refused
      cases refused
    | error error' =>
      rw [more] at refused
      cases refused
      obtain ⟨passed, first, tail, tokens, width, rfl, lexed, unblank', fault, at_⟩ :=
        ih behind more
      have all := Lexed.token (List.forall_mem_nil _) longest.of_append finite lexed
      refine ⟨lexeme ++ passed, first, tail, _, width, ?_, all, unblank', fault, ?_⟩
      · rw [split, List.append_assoc]
      · rw [at_, List.nil_append, List.append_assoc]
  | case4 offset c text unblank cause width character read =>
    cases refused
    refine ⟨[], c, text, [], width, rfl, .blanks (List.forall_mem_nil _),
      Bool.eq_false_iff.2 unblank, read, ?_⟩
    rw [List.append_nil, stands]

/-- An error stands at a character of the text, and names it.  Before it is a text that has
tokens, and behind that what is read of the token that breaks off there: nothing, or, if the
error is about an escape sequence, an opening quote and what may stand behind it, up to the
backslash.  From where this token begins, the text by itself has the same error. -/
theorem tokenize_refused {text : String} {error : LexError}
    (refused : tokenize text = .error error) :
    ∃ before opened rest tokens,
      text.toList = before ++ opened ++ error.character :: rest ∧
      error.offset = Text.bytes (before ++ opened) ∧
      tokenize (String.ofList before) = .ok tokens ∧
      BreaksOff error.cause opened error.character ∧
      tokenize (String.ofList (opened ++ error.character :: rest)) =
        .error { error with offset := Text.bytes opened } := by
  obtain ⟨before, c, tail, tokens, width, letters, lexed, unblank, fault, at_⟩ :=
    passed_of_scan Text.bytes_nil.symm refused
  have again := scan_fault 0 unblank fault
  obtain ⟨opened, rest, split, rfl, breaksOff⟩ := breaksOffAfter_of_readToken fault
  rw [split] at letters again
  refine ⟨before, opened, rest, ended [] before tokens, ?_, ?_, ?_, breaksOff, ?_⟩
  · rw [letters, List.append_assoc]
  · rw [at_, List.nil_append, Text.bytes_append]
  · rw [tokenize, String.toList_ofList]
    simpa using scan_of_lexed lexed
  · rw [tokenize, String.toList_ofList, again, Nat.zero_add]

/-- The second half of a pair may be what is no escape. -/
theorem tokenize_refused_surrogate :
    let text := "a['é\\uD83D\\uD83']"
    tokenize text = .error ⟨.invalidUnicodeEscape, 11, '\\'⟩ ∧
      ∃ before opened rest tokens, text.toList = before ++ opened ++ '\\' :: rest ∧
        11 = Text.bytes (before ++ opened) ∧ tokenize (String.ofList before) = .ok tokens ∧
        BreaksOff .invalidUnicodeEscape opened '\\' ∧
        tokenize (String.ofList (opened ++ '\\' :: rest)) =
          .error ⟨.invalidUnicodeEscape, Text.bytes opened, '\\'⟩ := by
  intro text
  have refused : tokenize text = .error ⟨.invalidUnicodeEscape, 11, '\\'⟩ := by
    subst text
    decide +kernel
  exact ⟨refused, tokenize_refused refused⟩

end JsonQuery
