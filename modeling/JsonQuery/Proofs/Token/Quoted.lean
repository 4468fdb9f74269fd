/-
# JsonQuery.Proofs.Token.Quoted -- the value of quoted text

Where a token may begin, a quote begins a string or a quoted name, which ends at its closing
quote whatever comes behind.  Its value is the transcription of the pieces between the
quotes: the characters there, plain or behind a backslash, and between those what the maximal
runs of code units stand for (`tokenize_quoted`).
-/
import JsonQuery.Proofs.Token.Joined

namespace JsonQuery

set_option autoImplicit false

/-- The token of a value between two quotes. -/
def Token.ofQuoted (quote : Char) (value : String) : Token :=
  if quote = '"' then .string value else .quotedName value

theorem readToken_quoted {quote : Char} (opening : quote = '"' ∨ quote = '\'')
    {content : List Char} {pieces : List Text.Piece} {value : String}
    (written : Text.Written quote content pieces)
    (transcribes : Text.Transcribes pieces value.toList) (rest : List Char) :
    readToken quote (content ++ [quote] ++ rest) =
      .token (.ofQuoted quote value) (Text.bytes (quote :: (content ++ [quote]))) rest := by
  obtain rfl | rfl := opening
  · exact readQuoted_written (by decide) written transcribes rest
  · exact readQuoted_written (by decide) written transcribes rest

/-- Quoted text behind a text that has tokens is one token, whose value is the transcription
of the pieces between the quotes.  What comes behind the closing quote is read for itself. -/
theorem tokenize_quoted {before : String} {located : List Located}
    (tokenized : tokenize before = .ok located) {quote : Char}
    (opening : quote = '"' ∨ quote = '\'') {content : List Char} {pieces : List Text.Piece}
    (written : Text.Written quote content pieces) (after : String) :
    ∃ value : String, Text.Transcribes pieces value.toList ∧
      (∀ other, Text.Transcribes pieces other → other = value.toList) ∧
      tokenize (before ++ String.ofList (quote :: (content ++ [quote])) ++ after) =
        (movedBy (before.utf8ByteSize + Text.bytes (quote :: (content ++ [quote])))
          (tokenize after)).map fun more =>
            located.dropLast ++ ⟨.ofQuoted quote value, before.utf8ByteSize⟩ :: more := by
  obtain ⟨value, transcribes⟩ := Text.exists_value pieces
  refine ⟨value, transcribes, fun other is => ?_, ?_⟩
  · rw [transcribes.eq_decode written.small, is.eq_decode written.small]
  have parting : isParting quote := by obtain rfl | rfl := opening <;> rfl
  have unblank : isBlank quote = false := by obtain rfl | rfl := opening <;> rfl
  have joined := tokenize_append tokenized
    (parted_cons parting (content ++ [quote] ++ after.toList))
  rw [scan_token _ unblank (readToken_quoted opening written transcribes after.toList),
    ← Nat.add_zero (before.utf8ByteSize + Text.bytes _), scan_add] at joined
  have whole : before ++ String.ofList (quote :: (content ++ [quote])) ++ after =
      before ++ String.ofList (quote :: (content ++ [quote] ++ after.toList)) :=
    String.toList_inj.1 (by simp)
  rw [whole, joined, tokenize]
  cases movedBy (before.utf8ByteSize + Text.bytes _) (scan 0 after.toList) <;> rfl

/-- Of the units high, high, low, a character behind a backslash and another low one, the
first and the last stand alone. -/
theorem tokenize_quoted_surrogates :
    let content := "\\ud83d\\uD83D\\uDe00\\n\\uDE00x".toList
    let pieces := [.unit 0xD83D, .unit 0xD83D, .unit 0xDE00, .char '\n', .unit 0xDE00, .char 'x']
    Text.Written '\'' content pieces ∧
      tokenize ("a." ++ String.ofList ('\'' :: (content ++ ['\''])) ++ "]") =
        .ok [⟨.name "a", 0⟩, ⟨.punct .dot, 1⟩, ⟨.quotedName "\uFFFD😀\n\uFFFDx", 2⟩,
          ⟨.punct .closeBracket, 31⟩, ⟨.finish, 32⟩] := by
  intro content pieces
  have unit {a b c d : Char} {code : Nat} {rest : List Char} {others : List Text.Piece}
      (digits : Text.hexUnit? a b c d = some code) (written : Text.Written '\'' rest others) :
      Text.Written '\'' ('\\' :: 'u' :: a :: b :: c :: d :: rest) (.unit code :: others) :=
    .cons (.unit (Text.hexUnit?_eq_some_iff.1 digits)) written
  have newline : ('n', '\n') ∈ Text.shortEscapes := by decide
  have written : Text.Written '\'' content pieces := by
    refine unit rfl (unit rfl (unit rfl (.cons (.simple (e := 'n') newline) (unit rfl ?_))))
    exact .cons (.plain (by decide) (by decide)) .nil
  have before : tokenize "a." = .ok [⟨.name "a", 0⟩, ⟨.punct .dot, 1⟩, ⟨.finish, 2⟩] := by
    decide +kernel
  have after : tokenize "]" = .ok [⟨.punct .closeBracket, 0⟩, ⟨.finish, 1⟩] := by decide +kernel
  obtain ⟨value, transcribes, -, quoted⟩ := tokenize_quoted before (.inr rfl) written "]"
  have decoded := transcribes.eq_decode written.small
  obtain rfl : value = "\uFFFD😀\n\uFFFDx" :=
    String.toList_inj.1 (decoded.trans (by decide +kernel))
  rw [after] at quoted
  exact ⟨written, quoted.trans rfl⟩

end JsonQuery
