/-
# JsonQuery.Proofs.Token.Spelling -- the written forms of tokens are read as tokens

`Begins` says that a text has a token at its head, with nothing before it, and
what is left of the text.  A name and a number end where nothing goes on them
(`Detached`); every other token ends by itself, but for the two whose first
character is a token of its own: a point before a point, and `<` or `>` before
`=`.

`Spells` is the tokens of a whole text, wherever it stands.  A token at the head
of a text is put before the tokens of the rest by `spells_cons`.
-/
import JsonQuery.Expr.Canonical
import JsonQuery.Proofs.Double.Written
import JsonQuery.Proofs.Text.Escape

namespace JsonQuery

set_option autoImplicit false

/-! ## Texts and their tokens -/

/-- A text has a token at its head, with no blank before it, and then a rest. -/
def Begins (text : List Char) (token : Token) (rest : List Char) : Prop :=
  ∃ c tail width, text = c :: tail ∧ isBlank c = false ∧
    readToken c tail = .token token width rest

/-- The tokens of a text, at whatever offset it begins. -/
def Spells (text : List Char) (tokens : List Token) : Prop :=
  ∀ offset, ∃ located, scan offset text = .ok located ∧ located.map Located.token = tokens

theorem spells_nil : Spells [] [.finish] := fun offset =>
  ⟨[⟨.finish, offset⟩], by rw [scan], rfl⟩

/-- Where no blank stands, a token is read. -/
theorem scan_unblank {c : Char} (offset : Nat) (unblank : isBlank c = false) (text : List Char) :
    scan offset (c :: text) = match readToken c text with
      | .token token width rest =>
          (scan (offset + width) rest).map fun more => ⟨token, offset⟩ :: more
      | .fault cause width character => .error ⟨cause, offset + width, character⟩ := by
  rw [scan, unblank, if_neg Bool.false_ne_true]
  split
  · rename_i token width rest read
    simp only [read]
    cases scan (offset + width) rest <;> rfl
  · rename_i read
    rw [read]
    rfl

theorem scan_token {c : Char} {text rest : List Char} {token : Token} {width : Nat}
    (offset : Nat) (unblank : isBlank c = false)
    (read : readToken c text = .token token width rest) :
    scan offset (c :: text) =
      (scan (offset + width) rest).map fun more => ⟨token, offset⟩ :: more := by
  rw [scan_unblank offset unblank, read]

theorem scan_fault {c character : Char} {text : List Char} {cause : LexCause} {width : Nat}
    (offset : Nat) (unblank : isBlank c = false)
    (read : readToken c text = .fault cause width character) :
    scan offset (c :: text) = .error ⟨cause, offset + width, character⟩ := by
  rw [scan_unblank offset unblank, read]

theorem spells_cons {text rest : List Char} {token : Token} {tokens : List Token}
    (head : Begins text token rest) (spells : Spells rest tokens) :
    Spells text (token :: tokens) := by
  obtain ⟨c, tail, width, rfl, unblank, read⟩ := head
  intro offset
  obtain ⟨located, scanned, rfl⟩ := spells (offset + width)
  refine ⟨⟨token, offset⟩ :: located, ?_, rfl⟩
  rw [scan_token offset unblank read, scanned]
  rfl

/-! ## Where a word ends -/

/-- Nothing at the head of a text goes on a word before it: no character of a name,
and no point with a digit behind it. -/
structure Detached (text : List Char) : Prop where
  no_name : ∀ c rest, text = c :: rest → isNameChar c = false
  no_fraction : ∀ d rest, text = '.' :: d :: rest → d.isDigit = false

theorem detached_nil : Detached [] where
  no_name _ _ eq := nomatch eq
  no_fraction _ _ eq := nomatch eq

theorem detached_cons {c : Char} (rest : List Char) (other : isNameChar c = false)
    (point : c ≠ '.') : Detached (c :: rest) where
  no_name _ _ eq := by
    cases eq
    exact other
  no_fraction _ _ eq := by
    cases eq
    exact absurd rfl point

theorem detached_point {d : Char} (rest : List Char) (other : d.isDigit = false) :
    Detached ('.' :: d :: rest) where
  no_name _ _ eq := by
    cases eq
    rfl
  no_fraction _ _ eq := by
    cases eq
    exact other

theorem isNameChar_of_isDigit {c : Char} (digit : c.isDigit) : isNameChar c := by
  simp [isNameChar, Char.isAlphanum, digit]

theorem isNameChar_of_isNameStart {c : Char} (start : isNameStart c) : isNameChar c := by
  simp only [isNameStart, isNameChar, Char.isAlphanum, Bool.or_eq_true] at start ⊢
  obtain (letter | line) | dollar := start
  · exact .inl (.inl (.inl letter))
  · exact .inl (.inr line)
  · exact .inr dollar

theorem isAlpha_iff {c : Char} : c.isAlpha ↔ 'A' ≤ c ∧ c ≤ 'Z' ∨ 'a' ≤ c ∧ c ≤ 'z' := by
  have ranges : c.isAlpha =
      (decide ('A' ≤ c ∧ c ≤ 'Z') || (decide ('a' ≤ c) && decide (c ≤ 'z'))) := rfl
  rw [ranges, Bool.or_eq_true, Bool.and_eq_true, decide_eq_true_iff, decide_eq_true_iff,
    decide_eq_true_iff]

theorem isDigit_iff {c : Char} : c.isDigit ↔ '0' ≤ c ∧ c ≤ '9' := by
  have range : c.isDigit = (decide ('0' ≤ c) && decide (c ≤ '9')) := rfl
  rw [range, Bool.and_eq_true, decide_eq_true_iff, decide_eq_true_iff]

theorem toNat_of_isAlpha {c : Char} (letter : c.isAlpha) :
    'A'.toNat ≤ c.toNat ∧ c.toNat ≤ 'z'.toNat := by
  have below {x y : Char} (le : x ≤ y) : x.toNat ≤ y.toNat := UInt32.le_iff_toNat_le.1 le
  obtain ⟨lower, upper⟩ | ⟨lower, upper⟩ := isAlpha_iff.1 letter
  · exact ⟨below lower, Nat.le_trans (below upper) (by decide)⟩
  · exact ⟨Nat.le_trans (by decide) (below lower), below upper⟩

theorem not_isDigit_of_isNameStart {c : Char} (start : isNameStart c) : ¬ c.isDigit := by
  intro digit
  simp only [isNameStart, Bool.or_eq_true, decide_eq_true_eq] at start
  obtain (letter | rfl) | rfl := start
  · have above := (toNat_of_isAlpha letter).1
    have below := (Char.isDigit_iff_toNat.1 digit).2
    have apart : '9'.toNat < 'A'.toNat := by decide
    omega
  · cases digit
  · cases digit

theorem isBlank_of_isNameChar {c : Char} (name : isNameChar c) : isBlank c = false := by
  cases blank : isBlank c with
  | false => rfl
  | true =>
    simp only [isBlank, Bool.or_eq_true, decide_eq_true_eq] at blank
    obtain ((rfl | rfl) | rfl) | rfl := blank <;> cases name

theorem Detached.takeWhile_isNameChar {rest : List Char} (detached : Detached rest) :
    rest.takeWhile isNameChar = [] := by
  cases rest with
  | nil => rfl
  | cons c rest => simp [detached.no_name c rest rfl]

theorem Detached.takeWhile_isDigit {rest : List Char} (detached : Detached rest) :
    rest.takeWhile Char.isDigit = [] := by
  cases rest with
  | nil => rfl
  | cons c rest =>
    have other : ¬ c.isDigit := fun digit =>
      absurd (isNameChar_of_isDigit digit) (by simp [detached.no_name c rest rfl])
    simp [other]

/-- A run of characters with a property ends where the property does. -/
theorem span_append {p : Char → Bool} {word rest : List Char} (all : ∀ c ∈ word, p c)
    (stop : rest.takeWhile p = []) :
    (word ++ rest).takeWhile p = word ∧ (word ++ rest).dropWhile p = rest := by
  have whole : rest.dropWhile p = rest := by
    simpa [stop] using List.takeWhile_append_dropWhile (p := p) (l := rest)
  simp [List.takeWhile_append_of_pos all, List.dropWhile_append_of_pos all, stop, whole]

/-! ## Numbers -/

theorem splitNumber_pointed {whole fraction rest : List Char}
    (whole_digits : ∀ c ∈ whole, c.isDigit) (fraction_digits : ∀ c ∈ fraction, c.isDigit)
    (stop : rest.takeWhile Char.isDigit = [])
    (no_fraction : fraction = [] → ∀ d tail, rest = '.' :: d :: tail → d.isDigit = false) :
    splitNumber (pointed whole fraction ++ rest) = (whole, fraction, rest) := by
  cases fraction with
  | nil =>
    obtain ⟨taken, dropped⟩ := span_append whole_digits stop
    simp only [pointed, List.isEmpty_nil, if_true, List.append_nil, splitNumber, taken, dropped]
    split
    · rename_i d tail
      rw [if_neg (by simp [no_fraction rfl d tail rfl])]
    · rfl
  | cons f fraction =>
    have point : ('.' :: f :: (fraction ++ rest)).takeWhile Char.isDigit = [] := rfl
    obtain ⟨taken, dropped⟩ := span_append whole_digits point
    obtain ⟨places, behind⟩ := span_append fraction_digits stop
    have digit : f.isDigit := fraction_digits f List.mem_cons_self
    simp only [List.cons_append] at places behind
    simp only [pointed, List.isEmpty_cons, Bool.false_eq_true, if_false, List.append_assoc,
      List.cons_append, splitNumber, taken, dropped]
    rw [if_pos digit, places, behind]

/-- Digits that nothing behind them goes on are read as the value that they spell, or are
out of range. -/
theorem readNumber_pointed (first : Char) (negative : Bool) {whole fraction rest : List Char}
    (whole_digits : ∀ c ∈ whole, c.isDigit) (fraction_digits : ∀ c ∈ fraction, c.isDigit)
    (stop : rest.takeWhile Char.isDigit = [])
    (no_fraction : fraction = [] → ∀ d tail, rest = '.' :: d :: tail → d.isDigit = false) :
    readNumber first negative (pointed whole fraction ++ rest) =
      let value := Double.ofDecimal negative (.ofDigits whole fraction 0)
      if value.isFinite then
        .token (.number value) ((if negative then 1 else 0) + (pointed whole fraction).length) rest
      else
        .fault .numberOutOfRange 0 first := by
  have length : (pointed whole fraction).length =
      whole.length + (if fraction.isEmpty then 0 else 1) + fraction.length := by
    cases fraction with
    | nil => simp [pointed]
    | cons f fraction =>
      simp [pointed]
      omega
  simp only [readNumber, splitNumber_pointed whole_digits fraction_digits stop no_fraction, length,
    Nat.add_assoc]

theorem readToken_digit {c : Char} (digit : c.isDigit) (rest : List Char) :
    readToken c rest = readNumber c false (c :: rest) := by
  unfold readToken
  rw [if_pos digit]

theorem readToken_minus {d : Char} (digit : d.isDigit) (rest : List Char) :
    readToken '-' (d :: rest) = readNumber '-' true (d :: rest) := by
  unfold readToken
  exact if_pos digit

theorem readToken_nameStart {c : Char} (start : isNameStart c) (rest : List Char) :
    readToken c rest =
      .token (.ofName (String.ofList (c :: rest.takeWhile isNameChar)))
        (1 + (rest.takeWhile isNameChar).length) (rest.dropWhile isNameChar) := by
  unfold readToken
  rw [if_neg (not_isDigit_of_isNameStart start), if_pos start]

/-- Digits with or without a minus sign are read as the value that they spell. -/
theorem begins_spelled {text rest whole fraction : List Char} {d : Decimal} (negative : Bool)
    (spelled : Spelled text d whole fraction) (detached : Detached rest)
    (finite : (Double.ofDecimal negative d).isFinite) :
    Begins ((if negative then '-' :: text else text) ++ rest)
      (.number (.ofDecimal negative d)) rest := by
  obtain ⟨rfl, nonempty, whole_digits, fraction_digits, rfl⟩ := spelled
  obtain ⟨c, more, rfl⟩ := List.exists_cons_of_ne_nil nonempty
  have digit : c.isDigit := whole_digits c List.mem_cons_self
  have read (first : Char) := (readNumber_pointed first negative whole_digits fraction_digits
    detached.takeWhile_isDigit fun _ => detached.no_fraction).trans (if_pos finite)
  cases negative with
  | true => exact ⟨'-', _, _, rfl, rfl, (readToken_minus digit _).trans (read '-')⟩
  | false =>
    have unblank : isBlank c = false := isBlank_of_isNameChar (isNameChar_of_isDigit digit)
    exact ⟨c, _, _, rfl, unblank, (readToken_digit digit _).trans (read c)⟩

/-- A finite value is read as itself, sign of zero included. -/
theorem begins_double {x : Double} (finite : x.isFinite) {rest : List Char}
    (detached : Detached rest) : Begins (x.chars ++ rest) (.number x) rest := by
  match x with
  | .finite negative magnitude =>
    obtain ⟨d, whole, fraction, spelled, rounds⟩ :=
      Decimal.spelled_positional magnitude.magnitude?_shortest
    have value : Double.ofDecimal negative d = .finite negative magnitude := by
      rw [Double.ofDecimal, rounds, Double.ofMagnitude]
    have begins := begins_spelled negative spelled detached (value ▸ finite)
    rw [value] at begins
    cases negative <;> exact begins
  | .nan | .infinite _ => cases finite

/-- The value that the digits of an integer spell. -/
def Double.ofDigits (n : Int) : Double := .ofDecimal (decide (n < 0)) ⟨n.natAbs, 0⟩

theorem intChars_eq (n : Int) :
    intChars n = if decide (n < 0) then '-' :: Nat.toDigits 10 n.natAbs
      else Nat.toDigits 10 n.natAbs := by
  cases n with
  | ofNat n => rfl
  | negSucc n => simp [intChars]

/-- An integer that some value denotes is read as the value of its digits. -/
theorem begins_intChars {x : Double} {n : Int} (denotes : x.toInt? = some n) {rest : List Char}
    (detached : Detached rest) : Begins (intChars n ++ rest) (.number (.ofDigits n)) rest := by
  have read := Double.toInt?_ofDecimal denotes
  have finite : (Double.ofDecimal (decide (n < 0)) ⟨n.natAbs, 0⟩).isFinite := by
    cases value : Double.ofDecimal (decide (n < 0)) ⟨n.natAbs, 0⟩ with
    | finite => rfl
    | nan | infinite =>
      rw [value] at read
      cases read
  have begins := begins_spelled _ (Decimal.spelled_toDigits n.natAbs) detached finite
  exact intChars_eq n ▸ begins

/-! ## Names -/

theorem begins_run {c : Char} (word : List Char) {rest : List Char} (start : isNameStart c)
    (all : ∀ d ∈ word, isNameChar d) (detached : Detached rest) :
    Begins (c :: word ++ rest) (.ofName (String.ofList (c :: word))) rest := by
  obtain ⟨taken, dropped⟩ := span_append all detached.takeWhile_isNameChar
  have unblank : isBlank c = false := isBlank_of_isNameChar (isNameChar_of_isNameStart start)
  refine ⟨c, word ++ rest, 1 + word.length, rfl, unblank, ?_⟩
  rw [readToken_nameStart start, taken, dropped]

theorem begins_boolean (value : Bool) {rest : List Char} (detached : Detached rest) :
    Begins ((Expr.boolean value).chars ++ rest) (.boolean value) rest := by
  cases value with
  | true => exact begins_run (c := 't') ['r', 'u', 'e'] rfl (List.all_eq_true.1 rfl) detached
  | false => exact begins_run (c := 'f') ['a', 'l', 's', 'e'] rfl (List.all_eq_true.1 rfl) detached

/-- The token of a name, which says whether the name is quoted. -/
def Token.ofField (name : String) : Token :=
  if isBareName name then .name name else .quotedName name

/-- A run of name characters is read as a name, and that is the run itself, unless it has a
meaning of its own. -/
theorem Token.ofName_eq_name_iff {word value : String} :
    Token.ofName word = .name value ↔
      word = value ∧ ¬ (word = "$" ∨ word = "true" ∨ word = "false") := by
  unfold ofName
  split
  · rename_i dollar
    simp [dollar]
  split
  · rename_i truth
    simp [truth]
  split
  · rename_i falsehood
    simp [falsehood]
  · simp_all

/-- The bare names are the runs of name characters that are read as themselves. -/
theorem isBareName_iff {name : String} :
    isBareName name ↔ ∃ first more, name.toList = first :: more ∧ isNameStart first ∧
      (∀ c ∈ more, isNameChar c) ∧ Token.ofName name = .name name := by
  unfold isBareName
  split
  · rename_i empty
    simp [empty]
  · rename_i first more letters
    simp [letters, Token.ofName_eq_name_iff, and_assoc]

theorem begins_bareName {name : String} (bare : isBareName name) {rest : List Char}
    (detached : Detached rest) : Begins (name.toList ++ rest) (.name name) rest := by
  obtain ⟨first, more, letters, starts, continues, read⟩ := isBareName_iff.1 bare
  have begins := begins_run more starts continues detached
  rwa [← letters, String.ofList_toList, read] at begins

theorem readQuoted_closed {delimiter : Char} {unterminated : LexCause} {make : String → Token}
    {text rest : List Char} {pieces : List Text.Piece} {width : Nat} {value : String}
    (closed : Text.readContent delimiter text = .closed pieces width rest)
    (decoded : Text.decode pieces = value.toList) :
    readQuoted delimiter unterminated make text =
      .token (make value) (delimiter.utf8Size + width) rest := by
  rw [readQuoted, closed]
  simp [decoded]

theorem begins_quotedName (name : String) (rest : List Char) :
    Begins (Text.quotedName name.toList ++ rest) (.quotedName name) rest := by
  obtain ⟨pieces, width, closed, decoded⟩ := Text.readContent_quotedName name.toList rest
  have text : Text.quotedName name.toList ++ rest =
      '\'' :: (name.toList.flatMap Text.nameChar ++ '\'' :: rest) := by simp [Text.quotedName]
  exact ⟨'\'', _, _, text, rfl, readQuoted_closed closed decoded⟩

theorem begins_string (value : String) (rest : List Char) :
    Begins (Text.jsonString value.toList ++ rest) (.string value) rest := by
  obtain ⟨pieces, width, closed, decoded⟩ := Text.readContent_jsonString value.toList rest
  have text : Text.jsonString value.toList ++ rest =
      '"' :: (value.toList.flatMap Text.jsonChar ++ '"' :: rest) := by simp [Text.jsonString]
  exact ⟨'"', _, _, text, rfl, readQuoted_closed closed decoded⟩

theorem begins_name (name : String) {rest : List Char} (detached : Detached rest) :
    Begins (nameChars name ++ rest) (.ofField name) rest := by
  unfold nameChars Token.ofField
  split
  · rename_i bare
    exact begins_bareName bare detached
  · exact begins_quotedName name rest

/-! ## Marks -/

theorem readToken_point {rest : List Char} (apart : ∀ tail, rest ≠ '.' :: tail) :
    readToken '.' rest = .token (.punct .dot) 1 rest := by
  match rest with
  | [] => rfl
  | d :: tail =>
    have other : d ≠ '.' := fun eq => apart tail (congrArg (· :: tail) eq)
    rw [readToken.eq_def]
    simp [show isNameStart '.' = false from rfl, Char.isDigit]

theorem readToken_less {rest : List Char} (apart : ∀ tail, rest ≠ '=' :: tail) :
    readToken '<' rest = .token (.comparison .lt) 1 rest := by
  match rest with
  | [] => rfl
  | d :: tail =>
    have other : d ≠ '=' := fun eq => apart tail (congrArg (· :: tail) eq)
    rw [readToken.eq_def]
    simp [show isNameStart '<' = false from rfl, Char.isDigit]

theorem readToken_greater {rest : List Char} (apart : ∀ tail, rest ≠ '=' :: tail) :
    readToken '>' rest = .token (.comparison .gt) 1 rest := by
  match rest with
  | [] => rfl
  | d :: tail =>
    have other : d ≠ '=' := fun eq => apart tail (congrArg (· :: tail) eq)
    rw [readToken.eq_def]
    simp [show isNameStart '>' = false from rfl, Char.isDigit]

theorem begins_dot {rest : List Char} (apart : ∀ tail, rest ≠ '.' :: tail) :
    Begins ('.' :: rest) (.punct .dot) rest :=
  ⟨'.', rest, 1, rfl, rfl, readToken_point apart⟩

theorem begins_descent (rest : List Char) : Begins ('.' :: '.' :: rest) (.punct .descent) rest :=
  ⟨'.', '.' :: rest, 2, rfl, rfl, rfl⟩

/-- The character of a mark that no other character goes on. -/
def Punct.char? : Punct → Option Char
  | .openBracket => some '['
  | .closeBracket => some ']'
  | .comma => some ','
  | .colon => some ':'
  | .question => some '?'
  | .star => some '*'
  | .this => some '@'
  | .dot | .descent => none

theorem begins_mark (mark : Punct) {c : Char} (alone : mark.char? = some c) (rest : List Char) :
    Begins (c :: rest) (.punct mark) rest := by
  cases mark <;> cases alone <;> exact ⟨_, rest, 1, rfl, rfl, rfl⟩

theorem begins_comparison (op : Comparison) {rest : List Char}
    (apart : ∀ tail, rest ≠ '=' :: tail) :
    Begins (op.chars ++ rest) (.comparison op) rest := by
  cases op with
  | eq => exact ⟨'=', '=' :: rest, 2, rfl, rfl, rfl⟩
  | ne => exact ⟨'!', '=' :: rest, 2, rfl, rfl, rfl⟩
  | le => exact ⟨'<', '=' :: rest, 2, rfl, rfl, rfl⟩
  | ge => exact ⟨'>', '=' :: rest, 2, rfl, rfl, rfl⟩
  | lt => exact ⟨'<', rest, 1, rfl, rfl, readToken_less apart⟩
  | gt => exact ⟨'>', rest, 1, rfl, rfl, readToken_greater apart⟩

end JsonQuery
