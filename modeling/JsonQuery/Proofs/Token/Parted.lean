/-
# JsonQuery.Proofs.Token.Parted -- which texts no token reaches into

How a form is read depends on what comes behind it only as far as that could go on it.  Less
behind it changes nothing (`Longest.of_append`).  Nor does more, where it is `Parted` from
what is before: where it begins with a blank or with an opening quote.  Quoted text ends at
its closing quote whatever comes then, and no other form has one of those characters in it
(`Token.Written.plain_or_closed`).  So no lookahead of a token crosses them
(`Longest.append`).
-/
import JsonQuery.Proofs.Token.Longest

namespace JsonQuery

set_option autoImplicit false

/-- Whether a character stands in written forms between quotes alone. -/
def isParting (c : Char) : Bool := isBlank c || c = '"' || c = '\''

/-- No token before a text goes on into it. -/
def Parted (text : List Char) : Prop := ∀ c ∈ text.head?, isParting c

theorem parted_nil : Parted [] := nofun

theorem parted_cons {c : Char} (parting : isParting c) (rest : List Char) : Parted (c :: rest) := by
  rintro _ ⟨⟩
  exact parting

theorem isParting_of_isNameChar {c : Char} (continues : isNameChar c) : isParting c = false := by
  have apart (quote : Char) (other : isNameChar quote = false) : c ≠ quote := by
    rintro rfl
    exact Bool.false_ne_true (other.symm.trans continues)
  simp [isParting, isBlank_of_isNameChar continues, apart '"' rfl, apart '\'' rfl]

theorem isParting_of_isDigit {c : Char} (digit : c.isDigit) : isParting c = false :=
  isParting_of_isNameChar (isNameChar_of_isDigit digit)

theorem isParting_of_mem_pointed {whole fraction : List Char}
    (whole_digits : ∀ c ∈ whole, c.isDigit) (fraction_digits : ∀ c ∈ fraction, c.isDigit) :
    ∀ c ∈ pointed whole fraction, isParting c = false := by
  intro c mem
  unfold pointed at mem
  obtain mem | mem := List.mem_append.1 mem
  · exact isParting_of_isDigit (whole_digits c mem)
  · split at mem
    · cases mem
    · obtain rfl | mem := List.mem_cons.1 mem
      · rfl
      · exact isParting_of_isDigit (fraction_digits c mem)

/-! ## Less text behind a form -/

/-- A form that is the longest stays so where the text ends earlier. -/
theorem Longest.of_append {lexeme rest more : List Char} {token : Token}
    (longest : Longest lexeme token (rest ++ more)) : Longest lexeme token rest where
  written := longest.written
  longest other token' begins written := by
    refine longest.longest other token' (begins.trans ?_) written
    exact ⟨more, List.append_assoc ..⟩

/-! ## More text behind a form -/

theorem Longest.of_readToken {c : Char} {lexeme tail rest : List Char} {token : Token} {width : Nat}
    (split : lexeme ++ rest = c :: tail) (read : readToken c tail = .token token width rest) :
    Longest lexeme token rest := by
  obtain ⟨lexeme', split', longest, -⟩ := longest_of_readToken read
  obtain rfl := List.append_cancel_right (split.trans split')
  exact longest

theorem Token.Written.ne_nil {lexeme : List Char} {token : Token} (written : token.Written lexeme) :
    lexeme ≠ [] := by
  cases written with
  | number negative nonempty => simp [pointed, nonempty]
  | mark mark => cases mark <;> exact List.cons_ne_nil _ _
  | comparison op => cases op <;> exact List.cons_ne_nil _ _
  | string | quotedName | name => exact List.cons_ne_nil _ _

/-- A written form has no blank and no quote in it, or it begins with a quote and ends with
the closing one. -/
theorem Token.Written.plain_or_closed {lexeme : List Char} {token : Token}
    (written : token.Written lexeme) :
    (∀ c ∈ lexeme, isParting c = false) ∨
      (∃ c ∈ lexeme.head?, isParting c) ∧ ∀ rest, Longest lexeme token rest := by
  cases written with
  | number negative _ whole_digits fraction_digits =>
    refine .inl fun c mem => ?_
    obtain mem | mem := List.mem_append.1 mem
    · cases negative <;> simp at mem
      exact mem ▸ rfl
    · exact isParting_of_mem_pointed whole_digits fraction_digits c mem
  | mark mark => exact .inl (by cases mark <;> simp [Punct.text, isParting, isBlank])
  | comparison op => exact .inl (by
    cases op <;> simp [Comparison.chars, isParting, isBlank])
  | string written transcribes =>
    exact .inr ⟨⟨'"', rfl, rfl⟩, fun rest =>
      .of_readToken rfl (readQuoted_written (by decide) written transcribes rest)⟩
  | quotedName written transcribes =>
    exact .inr ⟨⟨'\'', rfl, rfl⟩, fun rest =>
      .of_readToken rfl (readQuoted_written (by decide) written transcribes rest)⟩
  | name starts continues =>
    refine .inl (List.forall_mem_cons.2 ⟨?_, fun c mem => ?_⟩)
    · exact isParting_of_isNameChar (isNameChar_iff.2 (.inl starts))
    · exact isParting_of_isNameChar (isNameChar_iff.2 (continues c mem))

/-- A form without parting characters that begins a text begins it before the first of them. -/
theorem prefix_of_parted {form text more : List Char} (plain : ∀ c ∈ form, isParting c = false)
    (parted : Parted more) (begins : form <+: text ++ more) : form <+: text := by
  obtain within | ⟨beyond, rfl⟩ :=
    List.prefix_or_prefix_of_prefix begins (List.prefix_append text more)
  · exact within
  · have behind : beyond <+: more := (List.prefix_append_right_inj text).1 begins
    cases beyond with
    | nil => exact (List.append_nil text).symm ▸ List.prefix_rfl
    | cons c beyond =>
      obtain ⟨tail, rfl⟩ := behind
      have parting := parted c rfl
      rw [plain c (by simp)] at parting
      cases parting

/-- A form that is the longest stays so where more text comes, but parted from it. -/
theorem Longest.append {lexeme rest more : List Char} {token : Token}
    (longest : Longest lexeme token rest) (parted : Parted more) :
    Longest lexeme token (rest ++ more) := by
  obtain plain | ⟨-, closed⟩ := longest.written.plain_or_closed
  · refine ⟨longest.written, fun other token' begins written => ?_⟩
    obtain plain' | ⟨⟨c, first, parting⟩, -⟩ := written.plain_or_closed
    · rw [← List.append_assoc] at begins
      exact longest.longest other token' (prefix_of_parted plain' parted begins) written
    -- A quoted form would begin with the first character of `lexeme`, which is plain.
    · obtain ⟨d, form, rfl⟩ := List.exists_cons_of_ne_nil longest.written.ne_nil
      obtain ⟨tail, split⟩ := begins
      obtain ⟨_, other, rfl⟩ := List.exists_cons_of_ne_nil written.ne_nil
      obtain ⟨rfl, -⟩ := List.cons.inj split
      cases first
      rw [plain _ List.mem_cons_self] at parting
      cases parting
  · exact closed (rest ++ more)

end JsonQuery
