/-
# JsonQuery.Proofs.Token.Lexed -- the tokens of a text, by longest match

A text is `Lexed` if it is blanks and written forms of tokens in turn, blanks last, where
every form is the longest that the text goes on with, and no number is out of range.  A
text has tokens exactly if it is, and they are those of the forms, each with the number of
bytes before it, and then the end of the text (`tokenize_eq_ok_iff_lexed`).
-/
import JsonQuery.Proofs.Token.Parted

namespace JsonQuery

set_option autoImplicit false

/-- The characters that may stand between tokens. -/
def IsBlank (c : Char) : Prop := c = ' ' ∨ c = '\t' ∨ c = '\r' ∨ c = '\n'

/-- The tokens of a text that stands behind another, in which their offsets count. -/
inductive Lexed : List Char → List Char → List Located → Prop
  | blanks {before blanks : List Char} (blank : ∀ c ∈ blanks, IsBlank c) : Lexed before blanks []
  | token {before blanks lexeme rest : List Char} {token : Token} {more : List Located}
      (blank : ∀ c ∈ blanks, IsBlank c) (longest : Longest lexeme token rest)
      (finite : token.Finite) (behind : Lexed (before ++ (blanks ++ lexeme)) rest more) :
      Lexed before (blanks ++ (lexeme ++ rest)) (⟨token, Text.bytes (before ++ blanks)⟩ :: more)

theorem isBlank_iff {c : Char} : isBlank c ↔ IsBlank c := by
  simp [isBlank, IsBlank, or_assoc]

theorem utf8Size_of_isBlank {c : Char} (blank : isBlank c) : c.utf8Size = 1 := by
  simp only [isBlank, Bool.or_eq_true, decide_eq_true_eq] at blank
  obtain ((rfl | rfl) | rfl) | rfl := blank <;> rfl

theorem scan_blank (offset : Nat) {c : Char} (blank : isBlank c) (text : List Char) :
    scan offset (c :: text) = scan (offset + 1) text := by
  rw [scan, if_pos blank]

theorem scan_blanks (offset : Nat) {blanks : List Char} (blank : ∀ c ∈ blanks, isBlank c)
    (text : List Char) :
    scan offset (blanks ++ text) = scan (offset + Text.bytes blanks) text := by
  induction blanks generalizing offset with
  | nil => simp
  | cons c rest ih =>
    obtain ⟨first, others⟩ := List.forall_mem_cons.1 blank
    rw [List.cons_append, scan_blank offset first, ih (offset + 1) others, Text.bytes_cons,
      utf8Size_of_isBlank first, Nat.add_assoc]

/-! ## Both directions -/

/-- The tokens that a scan gives, and the end of the text behind them. -/
def ended (before text : List Char) (tokens : List Located) : List Located :=
  tokens ++ [⟨.finish, Text.bytes (before ++ text)⟩]

/-- What stands behind a text, parted from it, is scanned after the tokens of the text. -/
theorem scan_append {before text more : List Char} {tokens : List Located}
    (lexed : Lexed before text tokens) (parted : Parted more) :
    scan (Text.bytes before) (text ++ more) =
      (scan (Text.bytes (before ++ text)) more).map (tokens ++ ·) := by
  induction lexed with
  | @blanks before blanks blank =>
    rw [scan_blanks _ fun c mem => isBlank_iff.2 (blank c mem), Text.bytes_append]
    exact (id_map (scan _ more)).symm
  | @token before blanks lexeme rest token others blank longest finite _ ih =>
    obtain ⟨c, tail, split, unblank, read, -⟩ := (longest.append parted).readAs
    have behind : Text.bytes before + Text.bytes blanks + Text.bytes lexeme =
        Text.bytes (before ++ (blanks ++ lexeme)) := by
      rw [Text.bytes_append, Text.bytes_append, Nat.add_assoc]
    simp only [List.append_assoc] at ih ⊢
    rw [scan_blanks _ fun c mem => isBlank_iff.2 (blank c mem), split,
      scan_token _ unblank (read finite), behind, ih, ← Text.bytes_append]
    cases scan (Text.bytes (before ++ (blanks ++ (lexeme ++ rest)))) more <;> rfl

theorem scan_of_lexed {before text : List Char} {tokens : List Located}
    (lexed : Lexed before text tokens) :
    scan (Text.bytes before) text = .ok (ended before text tokens) := by
  have scanned := scan_append lexed parted_nil
  rw [List.append_nil, scan] at scanned
  exact scanned

/-- A blank may stand before a text that has tokens. -/
theorem Lexed.after_blank {before text : List Char} {tokens : List Located} {c : Char}
    (blank : IsBlank c) (lexed : Lexed (before ++ [c]) text tokens) :
    Lexed before (c :: text) tokens := by
  cases lexed with
  | blanks others => exact .blanks (List.forall_mem_cons.2 ⟨blank, others⟩)
  | token others longest finite behind =>
    rw [List.append_assoc] at behind ⊢
    exact .token (List.forall_mem_cons.2 ⟨blank, others⟩) longest finite behind

theorem lexed_of_scan {offset : Nat} {text before : List Char} {located : List Located}
    (stands : offset = Text.bytes before) (scanned : scan offset text = .ok located) :
    ∃ tokens, located = ended before text tokens ∧ Lexed before text tokens := by
  fun_induction scan offset text generalizing before located with
  | case1 offset =>
    cases scanned
    refine ⟨[], ?_, .blanks nofun⟩
    rw [ended, List.append_nil, ← stands]
    rfl
  | case2 offset c text blank ih =>
    have behind : offset + 1 = Text.bytes (before ++ [c]) := by
      rw [stands, Text.bytes_append, Text.bytes_cons, utf8Size_of_isBlank blank, Text.bytes_nil]
    obtain ⟨tokens, rfl, lexed⟩ := ih behind scanned
    refine ⟨tokens, ?_, lexed.after_blank (isBlank_iff.1 blank)⟩
    rw [ended, ended, List.append_assoc, List.singleton_append]
  | case3 offset c text unblank token width rest read ih =>
    obtain ⟨lexeme, split, longest, finite, rfl⟩ := longest_of_readToken read
    have behind : offset + Text.bytes lexeme = Text.bytes (before ++ ([] ++ lexeme)) := by
      rw [stands, List.nil_append, Text.bytes_append]
    cases more : scan (offset + Text.bytes lexeme) rest with
    | error error =>
      rw [more] at scanned
      cases scanned
    | ok others =>
      rw [more] at scanned
      cases scanned
      obtain ⟨tokens, rfl, lexed⟩ := ih behind more
      have all := Lexed.token (fun c mem => absurd mem List.not_mem_nil) longest finite lexed
      rw [List.nil_append, ← split, List.append_nil, ← stands] at all
      refine ⟨⟨token, offset⟩ :: tokens, ?_, all⟩
      rw [ended, ended, split]
      simp only [List.nil_append, List.append_assoc, List.cons_append]
  | case4 => cases scanned

/-- A text has tokens exactly if it is blanks and written forms in turn, each form the
longest that the text goes on with and no number out of range; the tokens are those of the
forms, at the bytes where they begin, and then the end of the text, behind its last byte. -/
theorem tokenize_eq_ok_iff_lexed (text : String) (located : List Located) :
    tokenize text = .ok located ↔
      ∃ tokens, located = tokens ++ [⟨.finish, text.utf8ByteSize⟩] ∧
        Lexed [] text.toList tokens := by
  have start : 0 = Text.bytes [] := Text.bytes_nil.symm
  have finish (tokens : List Located) : ended [] text.toList tokens =
      tokens ++ [⟨.finish, text.utf8ByteSize⟩] := by
    rw [ended, List.nil_append, Text.bytes_toList]
  constructor
  · intro scanned
    obtain ⟨tokens, rfl, lexed⟩ := lexed_of_scan start scanned
    exact ⟨tokens, finish tokens, lexed⟩
  · rintro ⟨tokens, rfl, lexed⟩
    rw [tokenize, start, ← finish]
    exact scan_of_lexed lexed

/-- A point without a digit behind it goes to the next token. -/
example : (tokenize "1..2").toOption.map (List.map Located.offset) = some [0, 1, 3, 4] := by
  decide +kernel

theorem Lexed.written {before text : List Char} {tokens : List Located}
    (lexed : Lexed before text tokens) :
    ∀ next ∈ tokens, next.token.Finite ∧ ∃ lexeme, next.token.Written lexeme := by
  induction lexed with
  | blanks => exact List.forall_mem_nil _
  | token _ longest finite _ ih =>
    exact List.forall_mem_cons.2 ⟨⟨finite, _, longest.written⟩, ih⟩

/-- A token of a text is its end, or it has a written form and no number out of range. -/
theorem written_of_tokenize {text : String} {located : List Located}
    (tokenized : tokenize text = .ok located) :
    ∀ next ∈ located,
      next.token = .finish ∨ next.token.Finite ∧ ∃ lexeme, next.token.Written lexeme := by
  obtain ⟨tokens, rfl, lexed⟩ := lexed_of_scan Text.bytes_nil.symm tokenized
  intro next mem
  rw [ended, List.mem_append, List.mem_singleton] at mem
  obtain mem | rfl := mem
  · exact .inr (lexed.written next mem)
  · exact .inl rfl

/-- The numbers of tokens are finite. -/
theorem finite_of_tokenize {text : String} {located : List Located}
    (tokenized : tokenize text = .ok located) : ∀ next ∈ located, next.token.Finite := by
  intro next mem
  obtain finish | ⟨finite, -⟩ := written_of_tokenize tokenized next mem
  · rw [finish]
    trivial
  · exact finite

end JsonQuery
