import Formulary.Proofs.Composition
import Formulary.Proofs.Segmentation

/-!
# Blanks Separate

Two texts with blanks between them have the tokens of the one and then those of the other. This
module proves that for all texts: no token goes on over a blank or is decided by what stands behind
it, so a blank acts on the text in front of it as the end of the text does, and behind a blank the
lexer begins anew. Hence a text with blanks in it is refused exactly if one of its sides is, and if
the first side is, then for the same character in the same column.

## Conventions

A text of blanks alone is refused for having no tokens. Here it stands for the empty list of tokens
(`tokensOf`), so that the sides may be blank or empty.

Tokens are compared without their columns (`bare`): those of the second side move.

## Main results

* `tokensOf_eq_scan`: with blank texts included, the tokens are what the lexer scans.
* `scan_append`: a scan goes on behind a text as if it began there, in the column behind the text.
* `exists_scan_from`: the column in which a scan begins changes nothing but columns.
* `tokensOf_append`: the tokens of two texts with blanks between them.
-/

namespace Formulary.Token

open Text

/-! ### Texts with and without tokens -/

/-- The **tokens** of a text, and none if the text is empty or blank. -/
def tokensOf (text : String) : Except Fault (List Token) :=
  match ofText text with
  | .error .emptyInput => .ok []
  | result => result

/-- The lexer fails for a character alone. -/
theorem scan_cases (text : List Char) :
    (∃ ts, scan 1 text = .ok ts) ∨
      ∃ c column, scan 1 text = .error (.unrecognizedCharacter c column) := by
  rcases segmented_or_halts [] text with ⟨ts, hs, -⟩ | ⟨c, column, hs, -⟩
  · exact .inl ⟨ts, hs⟩
  · exact .inr ⟨c, column, hs⟩

/-- The tokens of a text are what the lexer scans. -/
theorem tokensOf_eq_scan (text : String) : tokensOf text = scan 1 text.toList := by
  rw [tokensOf, ofText]
  obtain ⟨ts, hs⟩ | ⟨c, column, hs⟩ := scan_cases text.toList <;> rw [hs]
  · cases ts <;> rfl
  · rfl

/-! ### Scanning on -/

/-- Blanks are apart from what stands in front of them. -/
theorem apart_of_isIgnored {c : Char} (hc : isIgnored c = true) (rest : List Char) :
    Apart (c :: rest) := by
  have not_of {p : Char → Bool} (h : p c = true → isIgnored c = false) : p c = false :=
    Bool.eq_false_iff.2 fun hp => by rw [h hp] at hc; cases hc
  constructor
  · rintro x ⟨⟩
    refine ⟨not_of not_isIgnored_of_isAlphanumeric, ?_, ?_⟩
    · exact not_of fun h => not_isIgnored_of_isNumeric (.inl h)
    · rintro rfl
      cases hc
  · rintro ⟨⟩
    cases hc

/-- **A scan goes on behind a text as if it began there**, in the column behind the text, and it
does not come there if it fails before. -/
theorem scan_append {rest : List Char} (hrest : Apart rest) (front cs : List Char) :
    scan (columnAfter front) (cs ++ rest) = (scan (columnAfter front) cs).bind fun ts =>
      (scan (columnAfter (front ++ cs)) rest).map (ts ++ ·) := by
  generalize hcolumn : columnAfter front = column
  fun_induction scan column cs generalizing front with
  | case1 =>
      rw [List.append_nil, hcolumn, List.nil_append]
      cases scan _ rest <;> rfl
  | case2 column c cs hc ih =>
      have hnext := (columnAfter_append_singleton front c).trans (by rw [hcolumn])
      rw [List.cons_append, scan_cons_ignored hc, ih _ hnext, List.append_assoc,
        List.singleton_append]
  | case3 column c cs hc hnone =>
      rw [← lexeme?_append hrest] at hnone
      rw [List.cons_append, scan, if_neg hc, hnone]
      rfl
  | case4 column c cs hc kind n hl ih =>
      have hl := Lexeme.of_lexeme? hl
      have hnext := (hl.columnAfter_eq front).trans (by rw [hcolumn])
      rw [List.cons_append, (hl.append hrest).scan_cons, List.drop_append_of_le_length hl.length_le,
        List.take_append_of_le_length hl.length_le, ih _ hnext, List.append_assoc,
        List.cons_append, List.take_append_drop]
      cases scan (column + 1 + n) (cs.drop n) with
      | error fault => rfl
      | ok ts => cases scan _ rest <;> rfl

/-- **The column in which a scan begins changes nothing but columns.** -/
theorem exists_scan_from {column : ℕ} {cs : List Char} {ts : List Token}
    (h : scan column cs = .ok ts) (start : ℕ) :
    ∃ us, scan start cs = .ok us ∧ us.map bare = ts.map bare := by
  obtain ⟨us, next, hsplits, hus⟩ := exists_splits_of_scan h start closes_nil.apart
  exact ⟨us, hsplits.scan_eq, hus⟩

/-- What stands behind blanks is scanned as what they leave of the text. -/
theorem scan_append_gap {gap : List Char} (hne : gap ≠ [])
    (hgap : ∀ x ∈ gap, isIgnored x = true) (cs rest : List Char) :
    scan 1 (cs ++ gap ++ rest) = (scan 1 cs).bind fun ts =>
      (scan (columnAfter (cs ++ gap)) rest).map (ts ++ ·) := by
  have hstart : columnAfter [] = 1 := rfl
  obtain ⟨c, more, rfl⟩ := List.exists_cons_of_ne_nil hne
  have hapart := apart_of_isIgnored (hgap c List.mem_cons_self) (more ++ rest)
  rw [← hstart, List.append_assoc, List.cons_append, scan_append hapart, ← List.cons_append,
    scan_gap hgap, List.nil_append]

/-! ### Two texts with blanks between them -/

/-- **Blanks separate.** Two texts with blanks between them have tokens exactly if both have, namely
those of the one and then those of the other. If the first text is refused, it is so for a
character, and the whole is refused for the same character in the same column. -/
theorem tokensOf_append {w : String} (hne : w ≠ "") (hw : ∀ c ∈ w.toList, isIgnored c = true)
    (a b : String) :
    ((∃ ts, tokensOf (a ++ w ++ b) = .ok ts) ↔
        (∃ us, tokensOf a = .ok us) ∧ ∃ vs, tokensOf b = .ok vs) ∧
      (∀ ts us vs, tokensOf (a ++ w ++ b) = .ok ts → tokensOf a = .ok us → tokensOf b = .ok vs →
        ts.map bare = us.map bare ++ vs.map bare) ∧
      ∀ fault, tokensOf a = .error fault →
        (∃ c column, fault = .unrecognizedCharacter c column) ∧
          tokensOf (a ++ w ++ b) = .error fault := by
  have hwhole := scan_append_gap (fun h => hne (String.toList_eq_nil_iff.1 h)) hw a.toList b.toList
  simp only [tokensOf_eq_scan, String.toList_append, hwhole]
  generalize columnAfter (a.toList ++ w.toList) = column
  obtain ⟨us, hus⟩ | ⟨c, k, hfault⟩ := scan_cases a.toList
  · rw [hus]
    refine ⟨⟨?_, ?_⟩, ?_, fun fault h => by cases h⟩
    · rintro ⟨ts, hts⟩
      cases hscan : scan column b.toList with
      | error fault => rw [hscan] at hts; cases hts
      | ok vs =>
          obtain ⟨vs', hvs, -⟩ := exists_scan_from hscan 1
          exact ⟨⟨us, rfl⟩, vs', hvs⟩
    · rintro ⟨-, vs, hvs⟩
      obtain ⟨vs', hscan, -⟩ := exists_scan_from hvs column
      exact ⟨us ++ vs', by rw [hscan]; rfl⟩
    · rintro ts us' vs hts ⟨⟩ hvs
      obtain ⟨vs', hscan, hbare⟩ := exists_scan_from hvs column
      rw [hscan] at hts
      cases hts
      rw [List.map_append, hbare]
  · rw [hfault]
    refine ⟨iff_of_false ?_ ?_, ?_, fun fault h => ?_⟩
    · rintro ⟨ts, hts⟩
      cases hts
    · rintro ⟨⟨us, hus⟩, -⟩
      cases hus
    · rintro ts us vs hts
      cases hts
    · cases h
      exact ⟨⟨c, k, rfl⟩, rfl⟩

/-- An exclamation mark and an equality sign, a number with its point and a digit: blanks keep them
apart. A point that starts no number is refused where it is refused alone. -/
theorem tokensOf_append_marks :
    (∃ ts, tokensOf ("2.!" ++ "\t\n" ++ "=5") = .ok ts ∧
        ts.map bare = [⟨"2.", .operand, none⟩, ⟨"!", .function, none⟩, ⟨"=", .comparison, none⟩,
          ⟨"5", .operand, none⟩]) ∧
      tokensOf ("2.!." ++ "\t\n" ++ "5") = .error (.unrecognizedCharacter '.' 4) := by
  have hgap : ∀ c ∈ "\t\n".toList, isIgnored c = true := by simp [isIgnored]
  have hfirst : tokensOf "2.!" =
      .ok [⟨"2.", .operand, some 1⟩, ⟨"!", .function, some 3⟩] := by
    decide +kernel
  have hsecond : tokensOf "=5" =
      .ok [⟨"=", .comparison, some 1⟩, ⟨"5", .operand, some 2⟩] := by
    decide +kernel
  have hrefused : tokensOf "2.!." = .error (.unrecognizedCharacter '.' 4) := by
    decide +kernel
  obtain ⟨hiff, htokens, -⟩ := tokensOf_append (by decide) hgap "2.!" "=5"
  obtain ⟨ts, hts⟩ := hiff.2 ⟨⟨_, hfirst⟩, _, hsecond⟩
  exact ⟨⟨ts, hts, htokens ts _ _ hts hfirst hsecond⟩,
    ((tokensOf_append (by decide) hgap "2.!." "5").2.2 _ hrefused).2⟩

end Formulary.Token
