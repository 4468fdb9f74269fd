/-
# JsonQuery.Proofs.Token.Longest -- a token is the longest that a text begins with

`Token.Written` says which texts are written forms of a token, and of which, without the
functions that read them: characters are named or lie in a range, quoted text is transcribed,
and a number is the one nearest to its digits.  A text may begin with several forms: of `1.5`
the first character is a number by itself, and so are all three.  The `Longest` of them is the
one that is read (`Longest.readAs`), unless it is a number out of range; and what is read is
the longest (`longest_of_readToken`).

That a form is the longest says which characters cannot come behind it, as a form with one
of them more would be longer (`Longest.not_longer`).  No other character matters, so this
decides how it is read.
-/
import JsonQuery.Proofs.Double.Nearest
import JsonQuery.Proofs.Text.Runs
import JsonQuery.Proofs.Token.Spelling

namespace JsonQuery

set_option autoImplicit false

/-! ## Written forms -/

/-- No number that a token carries is infinite or NaN. -/
def Token.Finite : Token → Prop
  | .number .nan | .number (.infinite _) => False
  | _ => True

theorem Token.finite_number {value : Double} : (Token.number value).Finite ↔ value.isFinite := by
  cases value <;> simp [Finite, Double.isFinite]

/-- The letters that a name begins with. -/
def IsNameLetter (c : Char) : Prop :=
  'A' ≤ c ∧ c ≤ 'Z' ∨ 'a' ≤ c ∧ c ≤ 'z' ∨ c = '_' ∨ c = '$'

/-- The characters that go on a name. -/
def IsNameTail (c : Char) : Prop := IsNameLetter c ∨ '0' ≤ c ∧ c ≤ '9'

/-- The token of a run of name characters.  Three runs have a meaning of their own. -/
inductive Token.OfWord : String → Token → Prop
  | this : OfWord "$" (.punct .this)
  | truth : OfWord "true" (.boolean true)
  | falsehood : OfWord "false" (.boolean false)
  | name {word : String} (other : word ∉ ["$", "true", "false"]) : OfWord word (.name word)

/-- A text is a written form of a token. -/
inductive Token.Written : List Char → Token → Prop
  /-- A sign or none, digits, and a point with more digits behind it or none. -/
  | number (negative : Bool) {whole fraction : List Char} {value : Double} (nonempty : whole ≠ [])
      (whole_digits : ∀ c ∈ whole, c.isDigit) (fraction_digits : ∀ c ∈ fraction, c.isDigit)
      (nearest : value.NearestTo negative (Nat.ofDigitChars 10 (whole ++ fraction) 0)
        (10 ^ fraction.length)) :
      Written ((if negative then ['-'] else []) ++ pointed whole fraction) (.number value)
  | mark (mark : Punct) : Written mark.text.toList (.punct mark)
  | comparison (op : Comparison) : Written op.chars (.comparison op)
  | string {content : List Char} {pieces : List Text.Piece} {value : String}
      (written : Text.Written '"' content pieces)
      (transcribes : Text.Transcribes pieces value.toList) :
      Written ('"' :: (content ++ ['"'])) (.string value)
  | quotedName {content : List Char} {pieces : List Text.Piece} {value : String}
      (written : Text.Written '\'' content pieces)
      (transcribes : Text.Transcribes pieces value.toList) :
      Written ('\'' :: (content ++ ['\''])) (.quotedName value)
  | name {first : Char} {more : List Char} {token : Token} (starts : IsNameLetter first)
      (continues : ∀ c ∈ more, IsNameTail c)
      (is : Token.OfWord (String.ofList (first :: more)) token) : Written (first :: more) token

/-- Of all the written forms that `lexeme ++ rest` begins with, `lexeme` is the longest. -/
structure Longest (lexeme : List Char) (token : Token) (rest : List Char) : Prop where
  written : token.Written lexeme
  longest : ∀ other token', other <+: lexeme ++ rest → Token.Written other token' →
    other.length ≤ lexeme.length

/-- Nothing goes on the longest written form. -/
theorem Longest.not_longer {lexeme tail : List Char} {token token' : Token} (more : List Char)
    (longest : Longest lexeme token (more ++ tail)) (written : token'.Written (lexeme ++ more)) :
    more = [] := by
  have begins : lexeme ++ more <+: lexeme ++ (more ++ tail) := ⟨tail, by simp⟩
  have bound := longest.longest _ _ begins written
  rw [List.length_append] at bound
  exact List.eq_nil_of_length_eq_zero (by omega)

/-- A text that begins with a written form has a longest one. -/
theorem exists_longest {text lexeme : List Char} {token : Token} (begins : lexeme <+: text)
    (written : token.Written lexeme) :
    ∃ lexeme token rest, text = lexeme ++ rest ∧ Longest lexeme token rest := by
  by_cases more : ∃ other token', other <+: text ∧ Token.Written other token' ∧
      lexeme.length < other.length
  · obtain ⟨other, token', begins', written', longer⟩ := more
    exact exists_longest begins' written'
  · obtain ⟨rest, rfl⟩ := begins
    refine ⟨lexeme, token, rest, rfl, written, fun other token' begins' written' => ?_⟩
    exact Nat.le_of_not_lt fun longer => more ⟨other, token', begins', written', longer⟩
termination_by text.length - lexeme.length
decreasing_by
  have bound := begins'.length_le
  omega

/-! ## What the clauses come to -/

theorem isNameStart_iff {c : Char} : isNameStart c ↔ IsNameLetter c := by
  simp only [isNameStart, IsNameLetter, Bool.or_eq_true, decide_eq_true_eq, isAlpha_iff, or_assoc]

theorem isNameChar_iff {c : Char} : isNameChar c ↔ IsNameTail c := by
  have tail : isNameChar c ↔ isNameStart c ∨ c.isDigit := by
    simp only [isNameChar, isNameStart, Char.isAlphanum, Bool.or_eq_true]
    grind
  rw [tail, isNameStart_iff, isDigit_iff, IsNameTail]

theorem Token.ofWord_iff {word : String} {token : Token} :
    token.OfWord word ↔ Token.ofName word = token := by
  constructor
  · intro is
    cases is with
    | this | truth | falsehood => decide
    | name other => exact Token.ofName_eq_name_iff.2 ⟨rfl, by simpa using other⟩
  · rintro rfl
    unfold ofName
    split
    · rename_i is
      exact is ▸ .this
    split
    · rename_i is
      exact is ▸ .truth
    split
    · rename_i is
      exact is ▸ .falsehood
    · exact .name (by simp_all)

theorem Token.OfWord.finite {word : String} {token : Token} (is : token.OfWord word) :
    token.Finite := by
  cases is <;> trivial

/-! ## Reading a written form -/

/-- What stands at the head of a text is read as a token of this form, or is a number out of
range. -/
def ReadAs (lexeme : List Char) (token : Token) (rest : List Char) : Prop :=
  ∃ c tail, lexeme ++ rest = c :: tail ∧ isBlank c = false ∧
    (token.Finite → readToken c tail = .token token (Text.bytes lexeme) rest) ∧
    (¬ token.Finite → readToken c tail = .fault .numberOutOfRange 0 c)

/-- A token that is no number is read in any case. -/
theorem readAs_plain {c : Char} {more rest : List Char} {token : Token} {width : Nat}
    (plain : token.Finite) (unblank : isBlank c = false)
    (read : readToken c (more ++ rest) = .token token width rest)
    (width_eq : width = Text.bytes (c :: more)) : ReadAs (c :: more) token rest :=
  ⟨c, more ++ rest, rfl, unblank, fun _ => width_eq ▸ read, fun other => absurd plain other⟩

namespace Longest

variable {lexeme rest : List Char} {token : Token}

/-- Behind the longest written form there is no character that goes on all forms like it. -/
theorem takeWhile_eq_nil {p : Char → Bool} (longest : Longest lexeme token rest)
    (goes_on : ∀ c, p c → ∃ token', Token.Written (lexeme ++ [c]) token') :
    rest.takeWhile p = [] := by
  cases rest with
  | nil => rfl
  | cons c tail =>
    refine List.takeWhile_cons_of_neg fun holds => ?_
    obtain ⟨token', written⟩ := goes_on c holds
    exact List.cons_ne_nil c [] (not_longer [c] longest written)

end Longest

/-! ### Numbers -/

theorem readAs_value {c : Char} {lexeme tail rest : List Char} {value : Double}
    (split : lexeme ++ rest = c :: tail) (unblank : isBlank c = false)
    (read : readToken c tail =
      if value.isFinite then .token (.number value) (Text.bytes lexeme) rest
      else .fault .numberOutOfRange 0 c) : ReadAs lexeme (.number value) rest :=
  ⟨c, tail, split, unblank, fun finite => read.trans (if_pos (Token.finite_number.1 finite)),
    fun infinite => read.trans (if_neg (mt Token.finite_number.2 infinite))⟩

theorem toNat_of_isDigit {c : Char} (digit : c.isDigit) : c.toNat < 128 :=
  Nat.lt_of_le_of_lt (Char.isDigit_iff_toNat.1 digit).2 (by decide)

theorem bytes_pointed {whole fraction : List Char} (whole_digits : ∀ c ∈ whole, c.isDigit)
    (fraction_digits : ∀ c ∈ fraction, c.isDigit) :
    Text.bytes (pointed whole fraction) = (pointed whole fraction).length := by
  refine Text.bytes_of_lt fun c mem => ?_
  unfold pointed at mem
  obtain mem | mem := List.mem_append.1 mem
  · exact toNat_of_isDigit (whole_digits c mem)
  · split at mem
    · cases mem
    · obtain rfl | mem := List.mem_cons.1 mem
      · decide
      · exact toNat_of_isDigit (fraction_digits c mem)

theorem written_number (negative : Bool) {whole fraction : List Char} (nonempty : whole ≠ [])
    (whole_digits : ∀ c ∈ whole, c.isDigit) (fraction_digits : ∀ c ∈ fraction, c.isDigit) :
    (Token.number (.ofDecimal negative (.ofDigits whole fraction 0))).Written
      ((if negative then ['-'] else []) ++ pointed whole fraction) :=
  .number negative nonempty whole_digits fraction_digits (Double.nearestTo_iff.2 rfl)

/-- A digit more goes on a number, and so does a point with a digit if it has none yet. -/
theorem written_digit (negative : Bool) {whole fraction : List Char} (nonempty : whole ≠ [])
    (whole_digits : ∀ c ∈ whole, c.isDigit) (fraction_digits : ∀ c ∈ fraction, c.isDigit)
    {d : Char} (digit : d.isDigit) :
    ∃ token, Token.Written
      ((if negative then ['-'] else []) ++ pointed whole fraction ++ [d]) token := by
  have digits {some : List Char} (all : ∀ c ∈ some, c.isDigit) : ∀ c ∈ some ++ [d], c.isDigit := by
    simpa [or_imp, forall_and] using ⟨all, digit⟩
  cases fraction with
  | nil =>
    have longer : pointed (whole ++ [d]) [] = pointed whole [] ++ [d] := by simp [pointed]
    rw [List.append_assoc, ← longer]
    exact ⟨_, written_number negative (by simp) (digits whole_digits) fraction_digits⟩
  | cons f fraction =>
    have longer : pointed whole (f :: fraction ++ [d]) = pointed whole (f :: fraction) ++ [d] := by
      simp [pointed]
    rw [List.append_assoc, ← longer]
    exact ⟨_, written_number negative nonempty whole_digits (digits fraction_digits)⟩

theorem written_point (negative : Bool) {whole : List Char} (nonempty : whole ≠ [])
    (whole_digits : ∀ c ∈ whole, c.isDigit) {d : Char} (digit : d.isDigit) :
    ∃ token, Token.Written
      ((if negative then ['-'] else []) ++ pointed whole [] ++ ['.', d]) token := by
  have longer : pointed whole [d] = pointed whole [] ++ ['.', d] := by simp [pointed]
  rw [List.append_assoc, ← longer]
  exact ⟨_, written_number negative nonempty whole_digits (by simpa using digit)⟩

theorem readAs_number (negative : Bool) {whole fraction rest : List Char} (nonempty : whole ≠ [])
    (whole_digits : ∀ c ∈ whole, c.isDigit) (fraction_digits : ∀ c ∈ fraction, c.isDigit)
    (longest : Longest ((if negative then ['-'] else []) ++ pointed whole fraction)
      (.number (.ofDecimal negative (.ofDigits whole fraction 0))) rest) :
    ReadAs ((if negative then ['-'] else []) ++ pointed whole fraction)
      (.number (.ofDecimal negative (.ofDigits whole fraction 0))) rest := by
  have stop : rest.takeWhile Char.isDigit = [] := longest.takeWhile_eq_nil fun d digit =>
    written_digit negative nonempty whole_digits fraction_digits digit
  have no_fraction : fraction = [] → ∀ d tail, rest = '.' :: d :: tail → d.isDigit = false := by
    rintro rfl d tail rfl
    refine Bool.eq_false_iff.2 fun digit => ?_
    obtain ⟨token', written⟩ := written_point negative nonempty whole_digits digit
    cases Longest.not_longer ['.', d] longest written
  have width : (if negative then 1 else 0) + (pointed whole fraction).length =
      Text.bytes ((if negative then ['-'] else []) ++ pointed whole fraction) := by
    rw [Text.bytes_append, bytes_pointed whole_digits fraction_digits]
    cases negative <;> rfl
  have read (first : Char) :=
    readNumber_pointed first negative whole_digits fraction_digits stop no_fraction
  simp only [width] at read
  obtain ⟨c, more, rfl⟩ := List.exists_cons_of_ne_nil nonempty
  have digit : c.isDigit := whole_digits c List.mem_cons_self
  cases negative with
  | true => exact readAs_value rfl rfl ((readToken_minus digit _).trans (read '-'))
  | false =>
    have unblank : isBlank c = false := isBlank_of_isNameChar (isNameChar_of_isDigit digit)
    exact readAs_value rfl unblank ((readToken_digit digit _).trans (read c))

/-! ### Marks -/

theorem readAs_mark (mark : Punct) {rest : List Char}
    (longest : Longest mark.text.toList (.punct mark) rest) :
    ReadAs mark.text.toList (.punct mark) rest := by
  cases mark with
  | dot =>
    have apart : ∀ tail, rest ≠ '.' :: tail := by
      rintro tail rfl
      cases Longest.not_longer ['.'] longest (.mark .descent)
    exact readAs_plain trivial rfl (readToken_point apart) rfl
  | _ => exact readAs_plain trivial rfl rfl rfl

theorem readAs_comparison (op : Comparison) {rest : List Char}
    (longest : Longest op.chars (.comparison op) rest) :
    ReadAs op.chars (.comparison op) rest := by
  cases op with
  | lt =>
    have apart : ∀ tail, rest ≠ '=' :: tail := by
      rintro tail rfl
      cases Longest.not_longer ['='] longest (.comparison .le)
    exact readAs_plain trivial rfl (readToken_less apart) rfl
  | gt =>
    have apart : ∀ tail, rest ≠ '=' :: tail := by
      rintro tail rfl
      cases Longest.not_longer ['='] longest (.comparison .ge)
    exact readAs_plain trivial rfl (readToken_greater apart) rfl
  | _ => exact readAs_plain trivial rfl rfl rfl

/-! ### Quoted text and names -/

theorem readQuoted_written {delimiter : Char} {unterminated : LexCause} {make : String → Token}
    (plain : delimiter ≠ '\\') {content : List Char} {pieces : List Text.Piece}
    {value : String} (written : Text.Written delimiter content pieces)
    (transcribes : Text.Transcribes pieces value.toList) (rest : List Char) :
    readQuoted delimiter unterminated make (content ++ [delimiter] ++ rest) =
      .token (make value) (Text.bytes (delimiter :: (content ++ [delimiter]))) rest := by
  have closed := Text.readContent_written plain written rest
  rw [List.append_assoc, transcribes.eq_ofList written]
  refine (readQuoted_closed closed String.toList_ofList.symm).trans ?_
  simp

theorem toNat_of_isNameChar {c : Char} (continues : isNameChar c) : c.toNat < 128 := by
  simp only [isNameChar, Char.isAlphanum, Bool.or_eq_true, decide_eq_true_eq] at continues
  obtain ((letter | digit) | rfl) | rfl := continues
  · exact Nat.lt_of_le_of_lt (toNat_of_isAlpha letter).2 (by decide)
  · exact toNat_of_isDigit digit
  · decide
  · decide

theorem written_name {first : Char} {more : List Char} (starts : isNameStart first)
    (continues : ∀ c ∈ more, isNameChar c) :
    (Token.ofName (String.ofList (first :: more))).Written (first :: more) :=
  .name (isNameStart_iff.1 starts) (fun c mem => isNameChar_iff.1 (continues c mem))
    (Token.ofWord_iff.2 rfl)

theorem readAs_name {first : Char} {more rest : List Char} {token : Token}
    (starts : isNameStart first) (continues : ∀ c ∈ more, isNameChar c)
    (is : token.OfWord (String.ofList (first :: more)))
    (longest : Longest (first :: more) token rest) :
    ReadAs (first :: more) token rest := by
  have stop : rest.takeWhile isNameChar = [] := longest.takeWhile_eq_nil fun c continue_ =>
    ⟨_, written_name starts (by simpa [or_imp, forall_and] using ⟨continues, continue_⟩)⟩
  obtain ⟨taken, dropped⟩ := span_append continues stop
  have unblank : isBlank first = false := isBlank_of_isNameChar (isNameChar_of_isNameStart starts)
  have ascii : ∀ c ∈ first :: more, c.toNat < 128 := List.forall_mem_cons.2
    ⟨toNat_of_isNameChar (isNameChar_of_isNameStart starts), fun c mem =>
      toNat_of_isNameChar (continues c mem)⟩
  have read := readToken_nameStart starts (more ++ rest)
  rw [taken, dropped, Token.ofWord_iff.1 is] at read
  refine readAs_plain is.finite unblank read ?_
  rw [Text.bytes_of_lt ascii, List.length_cons, Nat.add_comm]

/-- The longest written form that a text begins with is read. -/
theorem Longest.readAs {lexeme rest : List Char} {token : Token}
    (longest : Longest lexeme token rest) : ReadAs lexeme token rest := by
  cases longest.written with
  | number negative nonempty whole_digits fraction_digits nearest =>
    obtain rfl := Double.nearestTo_iff.1 nearest
    exact readAs_number negative nonempty whole_digits fraction_digits longest
  | mark mark => exact readAs_mark mark longest
  | comparison op => exact readAs_comparison op longest
  | string written transcribes =>
    exact readAs_plain trivial rfl (readQuoted_written (by decide) written transcribes rest) rfl
  | quotedName written transcribes =>
    exact readAs_plain trivial rfl (readQuoted_written (by decide) written transcribes rest) rfl
  | name starts continues is =>
    exact readAs_name (isNameStart_iff.2 starts) (fun c mem => isNameChar_iff.2 (continues c mem))
      is longest

/-! ## What is read -/

/-- A digit is a number, with a minus sign and without. -/
theorem written_of_isDigit (negative : Bool) {d : Char} (digit : d.isDigit) :
    ∃ token, Token.Written ((if negative then ['-'] else []) ++ [d]) token := by
  have digits : ∀ c ∈ [d], c.isDigit := by simpa using digit
  have none : ∀ c ∈ ([] : List Char), c.isDigit := nofun
  exact ⟨_, written_number negative (List.cons_ne_nil d []) digits none⟩

theorem written_of_readQuoted {delimiter : Char} {unterminated : LexCause} {make : String → Token}
    {text rest : List Char} {token : Token} {width : Nat}
    (read : readQuoted delimiter unterminated make text = .token token width rest) :
    ∃ content pieces, text = content ++ delimiter :: rest ∧
      Text.Written delimiter content pieces := by
  unfold readQuoted at read
  split at read
  · rename_i pieces _ _ closed
    cases read
    obtain ⟨content, split, written⟩ := Text.written_of_readContent closed
    exact ⟨content, pieces, split, written⟩
  all_goals cases read

/-- Where a token is read, the text begins with a written form. -/
theorem written_of_readToken {c : Char} {tail rest : List Char} {token : Token} {width : Nat}
    (read : readToken c tail = .token token width rest) :
    ∃ lexeme token', lexeme <+: c :: tail ∧ Token.Written lexeme token' := by
  unfold readToken at read
  split at read
  · rename_i digit
    obtain ⟨token', written⟩ := written_of_isDigit false digit
    exact ⟨[c], token', ⟨tail, rfl⟩, written⟩
  split at read
  · rename_i starts
    exact ⟨[c], _, ⟨tail, rfl⟩, written_name starts nofun⟩
  have mark (mark : Punct) (rest : List Char) : ∃ lexeme token',
      lexeme <+: mark.text.toList ++ rest ∧ Token.Written lexeme token' :=
    ⟨_, _, ⟨rest, rfl⟩, .mark mark⟩
  have comparison (op : Comparison) (rest : List Char) : ∃ lexeme token',
      lexeme <+: op.chars ++ rest ∧ Token.Written lexeme token' :=
    ⟨_, _, ⟨rest, rfl⟩, .comparison op⟩
  split at read
  · rename_i d behind _ _
    split at read
    · rename_i digit
      obtain ⟨token', written⟩ := written_of_isDigit true digit
      exact ⟨['-', d], token', ⟨behind, rfl⟩, written⟩
    · cases read
  · exact mark .descent _
  · exact mark .dot _
  · exact mark .openBracket _
  · exact mark .closeBracket _
  · exact mark .comma _
  · exact mark .colon _
  · exact mark .question _
  · exact mark .star _
  · exact mark .this _
  · exact comparison .eq _
  · exact comparison .ne _
  · exact comparison .le _
  · exact comparison .lt _
  · exact comparison .ge _
  · exact comparison .gt _
  · obtain ⟨content, pieces, rfl, written⟩ := written_of_readQuoted read
    obtain ⟨value, transcribes⟩ := Text.exists_value pieces
    exact ⟨_, _, ⟨rest, by simp⟩, .string written transcribes⟩
  · obtain ⟨content, pieces, rfl, written⟩ := written_of_readQuoted read
    obtain ⟨value, transcribes⟩ := Text.exists_value pieces
    exact ⟨_, _, ⟨rest, by simp⟩, .quotedName written transcribes⟩
  · cases read

/-- What is read is the longest written form that the text begins with. -/
theorem longest_of_readToken {c : Char} {tail rest : List Char} {token : Token} {width : Nat}
    (read : readToken c tail = .token token width rest) :
    ∃ lexeme, c :: tail = lexeme ++ rest ∧ Longest lexeme token rest ∧ token.Finite ∧
      width = Text.bytes lexeme := by
  obtain ⟨first, token', begins, written⟩ := written_of_readToken read
  obtain ⟨lexeme, token', rest', split, longest⟩ := exists_longest begins written
  obtain ⟨c', tail', split', -, read', fault⟩ := longest.readAs
  obtain ⟨rfl, rfl⟩ := List.cons.inj (split.trans split')
  by_cases finite : token'.Finite
  · rw [read' finite] at read
    cases read
    exact ⟨lexeme, split, longest, finite, rfl⟩
  · rw [fault finite] at read
    cases read

end JsonQuery
