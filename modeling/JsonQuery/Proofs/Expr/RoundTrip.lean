/-
# JsonQuery.Proofs.Expr.RoundTrip -- canonical forms are read back

The canonical form of a regular tree scans to the tokens of the tree
(`Expr.spells_chars`), and these are read as the tree (`Expr.ofTokens_tokens`).
What is read is regular (`Expr.regular_of_parse`), so both directions meet:

* `Expr.canonical_spells_parsed`: a tree that some text spells is spelled by its
  canonical form;
* `Expr.canonical_spells_iff_regular`: no tree but the regular ones is spelled by
  its canonical form, not even up to equality of values.
-/
import JsonQuery.Expr.Canonical
import JsonQuery.Proofs.Expr.Image
import JsonQuery.Proofs.Expr.Reading

namespace JsonQuery

set_option autoImplicit false

/-- The canonical form of a regular tree is read as the tree itself. -/
theorem Expr.parse_canonical {t : Expr} (regular : t.Regular) :
    Expr.parse t.canonical = .ok t := by
  have spells : Spells (t.chars ++ []) (t.tokens ++ [.finish]) :=
    t.spells_chars regular detached_nil spells_nil
  obtain ⟨located, scanned, tokens⟩ := spells 0
  have tokenized : tokenize t.canonical = .ok located := by
    rw [tokenize, canonical, String.toList_ofList, ← List.append_nil t.chars]
    exact scanned
  unfold parse
  rw [tokenized]
  dsimp only
  rw [Expr.ofTokens_tokens regular tokens]

/-- The canonical form of a tree that a text spells is accepted, gives the identical
tree and is its own canonical form. -/
theorem Expr.canonical_spells_parsed {text : String} {t : Expr}
    (parsed : Expr.parse text = .ok t) :
    ∃ again, Expr.parse t.canonical = .ok again ∧ again = t ∧
      again.canonical = t.canonical :=
  ⟨t, Expr.parse_canonical (Expr.regular_of_parse parsed), rfl, rfl⟩

theorem Expr.canonical_spells_parsed_mixed :
    let text := " $ . list [ 'a b' == \"\\u00e9\" , 0.10 , -0.0 : ] .. 'true' .. "
    ∃ t, Expr.parse text = .ok t ∧
      ∃ again, Expr.parse t.canonical = .ok again ∧ again = t ∧
        again.canonical = t.canonical := by
  intro text
  have accepted : (Expr.parse text).isOk := by
    subst text
    decide +kernel
  cases parsed : Expr.parse text with
  | error =>
    rw [parsed] at accepted
    cases accepted
  | ok t => exact ⟨t, rfl, Expr.canonical_spells_parsed parsed⟩

/-- A tree is spelled by its canonical form exactly if it is regular. -/
theorem Expr.canonical_spells_iff_regular (t : Expr) :
    (∃ again, Expr.parse t.canonical = .ok again ∧ again.same t ∧
      again.canonical = t.canonical) ↔ t.Regular := by
  constructor
  · rintro ⟨again, parsed, same, -⟩
    exact again.regular_of_same t (Expr.regular_of_parse parsed) same
  · intro regular
    exact ⟨t, Expr.parse_canonical regular, t.same_self regular, rfl⟩

end JsonQuery
