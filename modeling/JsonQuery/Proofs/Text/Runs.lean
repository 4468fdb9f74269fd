/-
# JsonQuery.Proofs.Text.Runs -- code units are decoded run by run

What code units stand for is said from the side of the characters (`Lossy`).  Every
character has a code of one unit or two (`utf16`).  Units are read off as such codes, one
behind the other, and a unit at which no code begins is replaced: so no unit is passed over,
and none counts twice.

The pieces of quoted text are split where two neighbours are not both code units, into
maximal runs of units and the characters between those.  A text that these stand for in turn
is a transcription of the pieces (`Transcribes`).  There is one (`exists_transcribes`), and
only one, which is what decoding gives (`Transcribes.eq_decode`), although that looks ahead
by one unit alone.
-/
import JsonQuery.Proofs.Text.Content
import Mathlib.Data.List.SplitBy

namespace JsonQuery.Text

set_option autoImplicit false

/-! ## The codes of characters -/

/-- The code units of a character in UTF-16. -/
def utf16 (c : Char) : List Nat :=
  if c.toNat < 0x10000 then [c.toNat]
  else [0xD800 + (c.toNat - 0x10000) / 0x400, 0xDC00 + (c.toNat - 0x10000) % 0x400]

/-- Two surrogates that are the code of a character. -/
def isPair (high low : Nat) : Bool := isHighSurrogate high && isLowSurrogate low

theorem isPair_iff {high low : Nat} :
    isPair high low ↔ 0xD800 ≤ high ∧ high < 0xDC00 ∧ 0xDC00 ≤ low ∧ low < 0xE000 := by
  simp [isPair, isHighSurrogate, isLowSurrogate, and_assoc]

theorem utf16_ne_nil (c : Char) : utf16 c ≠ [] := by
  unfold utf16
  split <;> exact List.cons_ne_nil _ _

/-- The code of a character is a unit that is no surrogate, or a pair. -/
theorem utf16_cases (c : Char) :
    (utf16 c = [c.toNat] ∧ ¬ (0xD800 ≤ c.toNat ∧ c.toNat < 0xE000)) ∨
      ∃ high low, utf16 c = [high, low] ∧ isPair high low ∧ c = pairChar high low := by
  have valid : c.toNat.isValidChar := c.valid
  unfold utf16
  split
  · refine .inl ⟨rfl, ?_⟩
    simp only [Nat.isValidChar] at valid
    omega
  · refine .inr ⟨_, _, rfl, isPair_iff.2 ⟨?_, ?_, ?_, ?_⟩, ?_⟩
    any_goals
      simp only [Nat.isValidChar] at valid
      omega
    have code : 0x10000 + (0xD800 + (c.toNat - 0x10000) / 0x400 - 0xD800) * 0x400 +
        (0xDC00 + (c.toNat - 0x10000) % 0x400 - 0xDC00) = c.toNat := by omega
    rw [pairChar, code, Char.ofNat_toNat]

theorem toNat_ofNat {code : Nat} (valid : code.isValidChar) : (Char.ofNat code).toNat = code := by
  rw [Char.ofNat, dif_pos valid]
  rfl

/-- A pair is the code of its character. -/
theorem utf16_pairChar {high low : Nat} (pair : isPair high low) :
    utf16 (pairChar high low) = [high, low] := by
  obtain ⟨above, below, above', below'⟩ := isPair_iff.1 pair
  have code : (pairChar high low).toNat = 0x10000 + (high - 0xD800) * 0x400 + (low - 0xDC00) :=
    toNat_ofNat (.inr ⟨by omega, by omega⟩)
  rw [utf16, if_neg (by omega), code]
  simp only [List.cons.injEq, and_true]
  omega

/-- A unit that is no surrogate is the code of a character. -/
theorem utf16_ofNat {unit : Nat} (small : unit < 0x10000)
    (plain : ¬ (0xD800 ≤ unit ∧ unit < 0xE000)) : utf16 (Char.ofNat unit) = [unit] := by
  have valid : unit.isValidChar := by
    simp only [Nat.isValidChar]
    omega
  rw [utf16, toNat_ofNat valid, if_pos small]

/-! ## What code units stand for -/

/-- Code units stand for a text: where the code of a character begins for that character, and
where none does, a unit stands for the replacement character. -/
inductive Lossy : List Nat → List Char → Prop
  | nil : Lossy [] []
  | char (c : Char) {units : List Nat} {text : List Char} (others : Lossy units text) :
      Lossy (utf16 c ++ units) (c :: text)
  | alone {unit : Nat} {units : List Nat} {text : List Char}
      (no_code : ∀ c, ¬ utf16 c <+: unit :: units) (others : Lossy units text) :
      Lossy (unit :: units) ('\uFFFD' :: text)

theorem exists_lossy (units : List Nat) : ∃ text, Lossy units text := by
  by_cases begins : ∃ c, utf16 c <+: units
  · obtain ⟨c, more, split⟩ := begins
    obtain ⟨text, others⟩ := exists_lossy more
    exact ⟨c :: text, split ▸ .char c others⟩
  · cases units with
    | nil => exact ⟨[], .nil⟩
    | cons unit rest =>
      obtain ⟨text, others⟩ := exists_lossy rest
      exact ⟨_, .alone (fun c code => begins ⟨c, code⟩) others⟩
termination_by units.length
decreasing_by
  · have shorter := List.length_pos_iff.2 (utf16_ne_nil c)
    rw [← split, List.length_append]
    omega
  · exact Nat.lt_succ_self _

/-- The code unit that a piece is. -/
def Piece.unit? : Piece → Option Nat
  | .char _ => none
  | .unit code => some code

/-- Units that four hexadecimal digits can write. -/
def Piece.Small (piece : Piece) : Prop := ∀ unit ∈ piece.unit?, unit < 0x10000

theorem decode_pair {high low : Nat} (pair : isPair high low) (pieces : List Piece) :
    decode (.unit high :: .unit low :: pieces) = pairChar high low :: decode pieces := by
  rw [decode]
  exact if_pos pair

/-- A unit that makes no pair with the next one is decoded by itself. -/
theorem decode_alone {unit : Nat} {pieces : List Piece}
    (alone : ∀ low ∈ pieces.head?.bind Piece.unit?, isPair unit low = false) :
    decode (.unit unit :: pieces) = unitChar unit :: decode pieces := by
  match pieces with
  | [] => rfl
  | .char c :: rest => rw [decode, decode]
  | .unit low :: rest =>
    have apart : ¬ isPair unit low := Bool.eq_false_iff.1 (alone low rfl)
    rw [decode]
    exact if_neg apart

/-- The code of a character is decoded as the character. -/
theorem decode_utf16 (c : Char) (pieces : List Piece) :
    decode ((utf16 c).map .unit ++ pieces) = c :: decode pieces := by
  obtain ⟨code, plain⟩ | ⟨high, low, code, pair, character⟩ := utf16_cases c
  · have alone : isHighSurrogate c.toNat = false := by
      simp [isHighSurrogate]
      omega
    have other : isLowSurrogate c.toNat = false := by
      simp [isLowSurrogate]
      omega
    rw [code]
    refine (decode_unit_cons alone pieces).trans ?_
    rw [unitChar, alone, other, Bool.or_self, if_neg Bool.false_ne_true, Char.ofNat_toNat]
  · rw [code, character]
    exact decode_pair pair pieces

/-- A unit at which no code begins is decoded as the replacement character. -/
theorem decode_no_code {unit : Nat} {units : List Nat} {pieces : List Piece}
    (small : unit < 0x10000) (no_code : ∀ c, ¬ utf16 c <+: unit :: units)
    (ends : pieces.head?.bind Piece.unit? = none) :
    decode (.unit unit :: (units.map .unit ++ pieces)) =
      '\uFFFD' :: decode (units.map .unit ++ pieces) := by
  have surrogate : 0xD800 ≤ unit ∧ unit < 0xE000 := by
    refine Decidable.byContradiction fun plain => no_code (Char.ofNat unit) ?_
    rw [utf16_ofNat small plain]
    exact ⟨units, rfl⟩
  have replaced : unitChar unit = '\uFFFD' := by
    simp [unitChar, replacement, isHighSurrogate, isLowSurrogate]
    omega
  rw [← replaced]
  refine decode_alone fun low next => Bool.eq_false_iff.2 fun pair => ?_
  cases units with
  | nil => simp [ends] at next
  | cons other rest =>
    cases next
    refine no_code (pairChar unit low) ?_
    rw [utf16_pairChar pair]
    exact ⟨rest, rfl⟩

/-- A run of units that ends is decoded as the text that it stands for. -/
theorem decode_lossy {units : List Nat} {text : List Char} {pieces : List Piece}
    (lossy : Lossy units text) (small : ∀ unit ∈ units, unit < 0x10000)
    (ends : pieces.head?.bind Piece.unit? = none) :
    decode (units.map .unit ++ pieces) = text ++ decode pieces := by
  induction lossy with
  | nil => rfl
  | @char c units text _ ih =>
    have others := ih fun unit mem => small unit (List.mem_append_right _ mem)
    rw [List.map_append, List.append_assoc, decode_utf16, others]
    rfl
  | @alone unit units text no_code _ ih =>
    have others := ih fun unit mem => small unit (List.mem_cons_of_mem _ mem)
    rw [List.map_cons, List.cons_append,
      decode_no_code (small unit List.mem_cons_self) no_code ends, others]
    rfl

/-! ## Runs -/

/-- Whether two neighbours belong to one run. -/
def Piece.joins : Piece → Piece → Bool
  | .unit _, .unit _ => true
  | _, _ => false

/-- A character stands for itself, and a run of code units for the text that it spells. -/
inductive RunText : List Piece → List Char → Prop
  | char (c : Char) : RunText [.char c] [c]
  | units {units : List Nat} {text : List Char} (lossy : Lossy units text) :
      RunText (units.map .unit) text

/-- A text is what the maximal runs of code units in the pieces, and the characters between
those, stand for in turn. -/
def Transcribes (pieces : List Piece) (text : List Char) : Prop :=
  ∃ texts, List.Forall₂ RunText (pieces.splitBy Piece.joins) texts ∧ text = texts.flatten

/-- Pieces of which every two neighbours join are a single character, or units alone. -/
theorem char_or_units {run : List Piece} (nonempty : run ≠ [])
    (joined : run.IsChain fun x y => x.joins y) :
    (∃ c, run = [.char c]) ∨ ∃ units : List Nat, run = units.map .unit := by
  induction run with
  | nil => exact absurd rfl nonempty
  | cons piece rest ih =>
    cases rest with
    | nil =>
      cases piece with
      | char c => exact .inl ⟨c, rfl⟩
      | unit code => exact .inr ⟨[code], rfl⟩
    | cons next more =>
      obtain ⟨both, others⟩ := List.isChain_cons_cons.1 joined
      cases piece with
      | char c => cases both
      | unit code =>
        obtain ⟨c, single⟩ | ⟨units, all⟩ := ih (List.cons_ne_nil next more) others
        · cases single
          cases both
        · exact .inr ⟨code :: units, by rw [all, List.map_cons]⟩

theorem exists_runText {pieces run : List Piece} (mem : run ∈ pieces.splitBy Piece.joins) :
    ∃ text, RunText run text := by
  have nonempty : run ≠ [] := List.ne_nil_of_mem_splitBy mem
  obtain ⟨c, rfl⟩ | ⟨units, rfl⟩ := char_or_units nonempty (List.isChain_of_mem_splitBy mem)
  · exact ⟨[c], .char c⟩
  · obtain ⟨text, lossy⟩ := exists_lossy units
    exact ⟨text, .units lossy⟩

theorem exists_transcribes (pieces : List Piece) : ∃ text, Transcribes pieces text := by
  have each : ∀ run ∈ pieces.splitBy Piece.joins, ∃ text, RunText run text :=
    fun _ mem => exists_runText mem
  choose! text spells using each
  refine ⟨_, (pieces.splitBy Piece.joins).map text, ?_, rfl⟩
  exact List.forall₂_map_right_iff.2 (List.forall₂_same.2 spells)

/-- Runs that do not join with the next one are decoded each by itself. -/
theorem decode_flatten {runs : List (List Piece)} {texts : List (List Char)}
    (are : List.Forall₂ RunText runs texts) (small : ∀ piece ∈ runs.flatten, piece.Small)
    (apart : runs.IsChain fun one two => ∃ last first,
      (one.getLast last).joins (two.head first) = false) :
    decode runs.flatten = texts.flatten := by
  induction are with
  | nil => rfl
  | @cons run text rest texts is _ ih =>
    rw [List.flatten_cons] at small
    have others := ih (fun piece mem => small piece (List.mem_append_right _ mem)) apart.tail
    rw [List.flatten_cons, List.flatten_cons, ← others]
    cases is with
    | char c => exact decode_char_cons c rest.flatten
    | @units units _ lossy =>
      have fits : ∀ unit ∈ units, unit < 0x10000 := fun unit mem =>
        small (.unit unit) (List.mem_append_left _ (List.mem_map_of_mem mem)) unit rfl
      refine decode_lossy lossy fits ?_
      cases rest with
      | nil => rfl
      | cons next more =>
        obtain ⟨⟨last, first, neither⟩, -⟩ := List.isChain_cons_cons.1 apart
        obtain ⟨piece, tail, rfl⟩ := List.exists_cons_of_ne_nil first
        cases piece with
        | char c => rfl
        | unit code => simp [Piece.joins] at neither

/-- Decoding gives the one transcription of the pieces. -/
theorem Transcribes.eq_decode {pieces : List Piece} {text : List Char}
    (transcribes : Transcribes pieces text) (small : ∀ piece ∈ pieces, piece.Small) :
    text = decode pieces := by
  obtain ⟨texts, are, rfl⟩ := transcribes
  have all := List.flatten_splitBy Piece.joins pieces
  have decoded := decode_flatten are (all.symm ▸ small)
    (List.isChain_getLast_head_splitBy Piece.joins pieces)
  exact (all ▸ decoded).symm

/-! ## What is written -/

theorem Piece.Written.small {delimiter : Char} {chars : List Char} {piece : Piece}
    (written : piece.Written delimiter chars) : piece.Small := by
  cases written with
  | plain | simple => exact nofun
  | unit digits =>
    rintro _ ⟨⟩
    exact digits.lt

theorem Written.small {delimiter : Char} {content : List Char} {pieces : List Piece}
    (written : Written delimiter content pieces) : ∀ piece ∈ pieces, piece.Small := by
  induction written with
  | nil => exact nofun
  | cons first _ ih => exact List.forall_mem_cons.2 ⟨first.small, ih⟩

/-- What quoted text is transcribed to is what it is decoded to. -/
theorem Transcribes.eq_ofList {delimiter : Char} {content : List Char} {pieces : List Piece}
    {value : String} (transcribes : Transcribes pieces value.toList)
    (written : Written delimiter content pieces) : value = String.ofList (decode pieces) := by
  rw [← transcribes.eq_decode written.small, String.ofList_toList]

theorem exists_value (pieces : List Piece) : ∃ value : String, Transcribes pieces value.toList := by
  obtain ⟨text, transcribes⟩ := exists_transcribes pieces
  exact ⟨String.ofList text, String.toList_ofList.symm ▸ transcribes⟩

end JsonQuery.Text
