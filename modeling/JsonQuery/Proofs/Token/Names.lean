/-
# JsonQuery.Proofs.Token.Names -- which names need quotes

Two rules say whether a name can stand without quotes.  Writing tests its characters and
leaves out three words that have a meaning of their own (`isBareName`); reading takes the
longest run of name characters and then says what the run is (`Token.ofName`).  The two are
one rule: the only written form of a name token is the name that it carries, and that is bare
(`Token.written_name_iff`).  So no text has a token for a name that is not
(`isBareName_of_tokenize`).

The written form of a name is a single token by itself, whatever the name
(`tokenize_nameChars`), and it has quotes exactly where the name alone would not be read as
that name (`Segment.quoted_as_needed`).
-/
import JsonQuery.Proofs.Token.Lexed

namespace JsonQuery

set_option autoImplicit false

/-! ## Names without quotes -/

/-- A text is a written form of a name token exactly if it is the name, and a bare one. -/
theorem Token.written_name_iff {lexeme : List Char} {value : String} :
    (Token.name value).Written lexeme ↔ isBareName value ∧ lexeme = value.toList := by
  constructor
  · intro written
    generalize is : Token.name value = token at written
    cases written with
    | @name first more _ starts continues word =>
      have read := (Token.ofWord_iff.1 word).trans is.symm
      obtain ⟨rfl, -⟩ := Token.ofName_eq_name_iff.1 read
      have letters : (String.ofList (first :: more)).toList = first :: more :=
        String.toList_ofList
      have all : ∀ c ∈ more, isNameChar c := fun c mem => isNameChar_iff.2 (continues c mem)
      have bare := isBareName_iff.2 ⟨first, more, letters, isNameStart_iff.2 starts, all, read⟩
      exact ⟨bare, letters.symm⟩
    | _ => cases is
  · rintro ⟨bare, rfl⟩
    obtain ⟨first, more, letters, starts, continues, read⟩ := isBareName_iff.1 bare
    have written := written_name starts continues
    rwa [← letters, String.ofList_toList, read] at written

/-- A name that a text has as a token, without quotes, is bare. -/
theorem isBareName_of_tokenize {text value : String} {located : List Located}
    (tokenized : tokenize text = .ok located) (mem : .name value ∈ located.map Located.token) :
    isBareName value := by
  obtain ⟨next, mem, is⟩ := List.mem_map.1 mem
  have form := written_of_tokenize tokenized next mem
  rw [is] at form
  obtain finish | ⟨-, lexeme, written⟩ := form
  · cases finish
  · exact (Token.written_name_iff.1 written).1

/-! ## What is written for a name -/

theorem nameChars_eq_self_iff {name : String} : nameChars name = name.toList ↔ isBareName name := by
  unfold nameChars
  split
  · rename_i bare
    exact iff_of_true rfl bare
  · rename_i other
    exact iff_of_false (Text.quotedName_ne name.toList) other

/-- A text that a token takes up to its end has no other token. -/
theorem tokenize_of_begins {text : String} {token : Token}
    (begins : Begins text.toList token []) :
    tokenize text = .ok [⟨token, 0⟩, ⟨.finish, text.utf8ByteSize⟩] := by
  obtain ⟨c, tail, width, letters, unblank, read⟩ := begins
  obtain ⟨lexeme, split, -, -, rfl⟩ := longest_of_readToken read
  have whole : lexeme = text.toList := by rw [letters, split, List.append_nil]
  rw [tokenize, letters, scan_token 0 unblank read, scan, whole, Text.bytes_toList, Nat.zero_add]
  rfl

/-- The written form of a name has one token, with the name for its value. -/
theorem tokenize_nameChars (name : String) :
    tokenize (String.ofList (nameChars name)) =
      .ok [⟨.ofField name, 0⟩, ⟨.finish, Text.bytes (nameChars name)⟩] := by
  have begins := begins_name name detached_nil
  rw [List.append_nil, ← String.toList_ofList (l := nameChars name)] at begins
  exact tokenize_of_begins begins

/-- A canonical form has a name without quotes exactly if the name, taken for a text, has a
single token, which is a name without quotes and has this value.  Otherwise the name stands
between quotes, and what is written has a single token, which is a quoted name and has this
value. -/
theorem Segment.quoted_as_needed (name : String) :
    ((Segment.field name).chars = name.toList ↔
        (tokenize name).map (List.map Located.token) = .ok [.name name, .finish]) ∧
      ((Segment.field name).chars = name.toList ∨
        ∃ content, (Segment.field name).chars = '\'' :: (content ++ ['\'']) ∧
          tokenize (String.ofList (Segment.field name).chars) =
            .ok [⟨.quotedName name, 0⟩, ⟨.finish, Text.bytes (Segment.field name).chars⟩]) := by
  have read := tokenize_nameChars name
  rw [Segment.chars, nameChars_eq_self_iff]
  refine ⟨⟨fun bare => ?_, fun single => ?_⟩, ?_⟩
  -- A bare name is its own written form, so what is read of that is read of the name.
  · rw [nameChars_eq_self_iff.2 bare, String.ofList_toList, Token.ofField, if_pos bare] at read
    rw [read]
    rfl
  · cases tokenized : tokenize name with
    | error error =>
      rw [tokenized] at single
      cases single
    | ok located =>
      rw [tokenized] at single
      have tokens : located.map Located.token = [.name name, .finish] := Except.ok.inj single
      exact isBareName_of_tokenize tokenized (tokens ▸ List.mem_cons_self)
  · by_cases bare : isBareName name
    · exact .inl bare
    · rw [Token.ofField, if_neg bare] at read
      refine .inr ⟨name.toList.flatMap Text.nameChar, ?_, read⟩
      rw [nameChars, if_neg bare]
      rfl

/-- No escape sequence of two characters stands for a single quote, nor for a control
character beyond ASCII. -/
example : (Segment.field "it's\u0085").chars = "'it\\u0027s\\u0085'".toList := by decide

end JsonQuery
