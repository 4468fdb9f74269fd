/-
# JsonQuery.Proofs.Token.Joined -- tokens of two texts with blanks between them

No token crosses a blank, unless it is between quotes, and a text that has tokens closes all
its quotes.  So two texts with blanks between them are read one after the other: the tokens
of the first, without its end, and then whatever reading the second gives, tokens or an
error, further on by the bytes before it (`tokenize_joined`).

Where a text begins says nothing else about its tokens: an offset that is added before
scanning may as well be added after it (`scan_add`).
-/
import JsonQuery.Proofs.Token.Lexed

namespace JsonQuery

set_option autoImplicit false

/-! ## Where a text begins -/

/-- A token that stands so many bytes further on. -/
def Located.moved (bytes : Nat) (next : Located) : Located :=
  { next with offset := bytes + next.offset }

/-- An error that stands so many bytes further on. -/
def LexError.moved (bytes : Nat) (error : LexError) : LexError :=
  { error with offset := bytes + error.offset }

/-- What reading a text gives, so many bytes further on. -/
def movedBy (bytes : Nat) (result : Except LexError (List Located)) :
    Except LexError (List Located) :=
  (result.map (List.map (Located.moved bytes))).mapError (LexError.moved bytes)

@[simp] theorem LexError.detail_moved (bytes : Nat) (error : LexError) :
    (error.moved bytes).detail = error.detail := rfl

theorem movedBy_cons (bytes offset : Nat) (token : Token)
    (result : Except LexError (List Located)) :
    movedBy bytes (result.map (⟨token, offset⟩ :: ·)) =
      (movedBy bytes result).map (⟨token, bytes + offset⟩ :: ·) := by
  cases result <;> rfl

/-- A text has the same tokens and the same error wherever it begins. -/
theorem scan_add (bytes offset : Nat) (text : List Char) :
    scan (bytes + offset) text = movedBy bytes (scan offset text) := by
  fun_induction scan offset text with
  | case1 => rw [scan]; rfl
  | case2 offset c text blank ih => rw [scan_blank _ blank, Nat.add_assoc, ih]
  | case3 offset c text unblank token width rest read ih =>
    have later := scan_token (bytes + offset) (Bool.eq_false_iff.2 unblank) read
    rw [later, Nat.add_assoc, ih, ← movedBy_cons]
    cases scan (offset + width) rest <;> rfl
  | case4 offset c text unblank cause width character read =>
    rw [scan_fault _ (Bool.eq_false_iff.2 unblank) read, Nat.add_assoc]
    rfl

/-! ## Two texts -/

/-- What comes behind a text that has tokens, parted from it, is read for itself. -/
theorem tokenize_append {text : String} {more : List Char} {located : List Located}
    (tokenized : tokenize text = .ok located) (parted : Parted more) :
    tokenize (text ++ String.ofList more) =
      (scan text.utf8ByteSize more).map (located.dropLast ++ ·) := by
  obtain ⟨tokens, rfl, lexed⟩ := lexed_of_scan Text.bytes_nil.symm tokenized
  have scanned := scan_append lexed parted
  rw [Text.bytes_nil, List.nil_append, Text.bytes_toList] at scanned
  rw [tokenize, String.toList_append, String.toList_ofList, scanned, ended, List.dropLast_concat]

/-- The end of a text is the last of its tokens. -/
theorem eq_concat_finish {text : String} {located : List Located}
    (tokenized : tokenize text = .ok located) :
    located = located.dropLast ++ [⟨.finish, text.utf8ByteSize⟩] := by
  obtain ⟨tokens, rfl, -⟩ := lexed_of_scan Text.bytes_nil.symm tokenized
  rw [ended, List.dropLast_concat, List.nil_append, Text.bytes_toList]

/-- Blanks part two texts: the second is read as it is by itself, behind the tokens of the
first and so many bytes further on. -/
theorem tokenize_blanks {one blanks : String} {located : List Located}
    (tokenized : tokenize one = .ok located) (nonempty : blanks ≠ "")
    (blank : ∀ c ∈ blanks.toList, isBlank c) (two : String) :
    tokenize (one ++ blanks ++ two) =
      (movedBy (one ++ blanks).utf8ByteSize (tokenize two)).map (located.dropLast ++ ·) := by
  have parted : Parted (blanks.toList ++ two.toList) := by
    have letter : blanks.toList ≠ [] := mt String.toList_eq_nil_iff.1 nonempty
    obtain ⟨c, rest, letters⟩ := List.exists_cons_of_ne_nil letter
    have first : isBlank c := blank c (by simp [letters])
    rw [letters]
    exact parted_cons (by simp [isParting, first]) _
  have joined := tokenize_append tokenized parted
  rw [scan_blanks _ blank, Text.bytes_toList] at joined
  rw [← Nat.add_zero (one.utf8ByteSize + blanks.utf8ByteSize), scan_add] at joined
  rw [String.utf8ByteSize_append]
  simpa [String.append_assoc, tokenize] using joined

/-- Of two texts with a run of blanks between them, the first of which has tokens, the
tokens are those of the first, without the end that is last of them, and those of the second,
moved on by the bytes before it; and if the second has none, its error is the error of the
whole, with the same character and in the same words, moved on in the same way. -/
theorem tokenize_joined {one blanks : String} {located : List Located}
    (tokenized : tokenize one = .ok located) (nonempty : blanks ≠ "")
    (blank : ∀ c ∈ blanks.toList, isBlank c) (two : String) :
    located = located.dropLast ++ [⟨.finish, one.utf8ByteSize⟩] ∧
      (∀ more, tokenize two = .ok more →
        tokenize (one ++ blanks ++ two) = .ok (located.dropLast ++
          more.map fun next => ⟨next.token, (one ++ blanks).utf8ByteSize + next.offset⟩)) ∧
      ∀ error, tokenize two = .error error →
        ∃ whole, tokenize (one ++ blanks ++ two) = .error whole ∧
          whole.offset = (one ++ blanks).utf8ByteSize + error.offset ∧
          whole.character = error.character ∧ whole.detail = error.detail := by
  have joined := tokenize_blanks tokenized nonempty blank two
  refine ⟨eq_concat_finish tokenized, ?_, ?_⟩
  · intro more tokenized'
    rw [joined, tokenized']
    rfl
  · intro error refused
    rw [joined, refused]
    exact ⟨_, rfl, rfl, rfl, error.detail_moved _⟩

/-- Two points with a blank between them are no `..`. -/
theorem tokenize_joined_points :
    tokenize ("a." ++ " " ++ ".") =
        .ok [⟨.name "a", 0⟩, ⟨.punct .dot, 1⟩, ⟨.punct .dot, 3⟩, ⟨.finish, 4⟩] ∧
      ∃ whole, tokenize ("a." ++ " " ++ "é") = .error whole ∧ whole.offset = 3 ∧
        whole.character = 'é' ∧ whole.detail = "unexpected character 'é'" := by
  have first : tokenize "a." = .ok [⟨.name "a", 0⟩, ⟨.punct .dot, 1⟩, ⟨.finish, 2⟩] := by
    decide +kernel
  have nonempty : " " ≠ "" := by decide
  have blank : ∀ c ∈ " ".toList, isBlank c := List.all_eq_true.1 rfl
  have point : tokenize "." = .ok [⟨.punct .dot, 0⟩, ⟨.finish, 1⟩] := by decide +kernel
  have letter : tokenize "é" = .error ⟨.unexpectedCharacter, 0, 'é'⟩ := by decide +kernel
  obtain ⟨-, joined, -⟩ := tokenize_joined first nonempty blank "."
  obtain ⟨-, -, refused⟩ := tokenize_joined first nonempty blank "é"
  refine ⟨joined _ point, ?_⟩
  obtain ⟨whole, is, offset, character, detail⟩ := refused _ letter
  exact ⟨whole, is, offset, character, detail.trans (by decide +kernel)⟩

end JsonQuery
