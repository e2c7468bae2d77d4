import EntityTables.Syntax.LiteralValue
import EntityTables.Text.Quoted
import Mathlib.Tactic.SplitIfs

/-!
# Quoted text is read back

The literal that quotes a text denotes the text: every escape that is written is read as the
character that it stands for.
-/

namespace EntityTables.Syntax

open EntityTables.Text

theorem unquote_hexDigit {digit : Nat} (hdigit : digit < 16) (value digits : Nat)
    (rest : List Char) : unquote (.unicode value digits) (hexDigit digit :: rest) =
      unquote (.unicode (16 * value + digit) (digits + 1)) rest := by
  have hall : ∀ d < 16, hexDigitValue (hexDigit d) = d ∧ hexDigit d ≠ '\x7d' ∧
      hexDigit d ≠ '_' := by decide
  obtain ⟨hvalue, hclosing, hblank⟩ := hall digit hdigit
  simp [unquote, QuoteState.leaveBlanks, hvalue, hclosing, hblank]

/-- The digits of a number are read as the number. -/
theorem unquote_hexDigits (number : Nat) (rest : List Char) :
    ∃ digits, unquote (.unicode 0 0) (hexText number ++ rest) =
      unquote (.unicode number digits) rest := by
  induction number using hexDigitsReversed.induct generalizing rest with
  | case1 number hsmall =>
      refine ⟨1, ?_⟩
      rw [hexText, hexDigitsReversed, if_pos hsmall]
      simpa using unquote_hexDigit hsmall 0 0 rest
  | case2 number hlarge ih =>
      obtain ⟨digits, hfront⟩ := ih (hexDigit (number % 16) :: rest)
      refine ⟨digits + 1, ?_⟩
      have hsplit : hexText number = hexText (number / 16) ++ [hexDigit (number % 16)] := by
        rw [hexText, hexText, hexDigitsReversed, if_neg hlarge, List.reverse_cons]
      rw [hsplit, List.append_assoc, List.singleton_append, hfront,
        unquote_hexDigit (Nat.mod_lt _ (by decide)), Nat.div_add_mod]

theorem unquote_unicodeEscape (c : Char) (rest : List Char) :
    unquote .plain (unicodeEscape c ++ rest) = c :: unquote .plain rest := by
  obtain ⟨digits, hdigits⟩ := unquote_hexDigits c.toNat ('\x7d' :: rest)
  have hopen : unquote .plain (unicodeEscape c ++ rest) =
      unquote (.unicode 0 0) (hexText c.toNat ++ '\x7d' :: rest) := by
    simp [unicodeEscape, unquote, QuoteState.leaveBlanks]
  have hclose : unquote (.unicode c.toNat digits) ('\x7d' :: rest) =
      Char.ofNat c.toNat :: unquote .plain rest := by
    simp [unquote, QuoteState.leaveBlanks]
  rw [hopen, hdigits, hclose, Char.ofNat_toNat]

theorem unquote_quoteChar (escapeMarks : Bool) (c : Char) (rest : List Char) :
    unquote .plain (quoteChar escapeMarks c ++ rest) = c :: unquote .plain rest := by
  unfold quoteChar
  split_ifs with hquote hbackslash hnewline hreturn htab hnull hescape
  · simp_all [unquote, QuoteState.leaveBlanks, escapedChar]
  · simp_all [unquote, QuoteState.leaveBlanks, escapedChar]
  · simp_all [unquote, QuoteState.leaveBlanks, escapedChar]
  · simp_all [unquote, QuoteState.leaveBlanks, escapedChar]
  · simp_all [unquote, QuoteState.leaveBlanks, escapedChar]
  · simp_all [unquote, QuoteState.leaveBlanks, escapedChar]
  · exact unquote_unicodeEscape c rest
  · simp_all [unquote, QuoteState.leaveBlanks]

theorem unquote_quoteLiteralChars (text : List Char) :
    unquote .plain (quoteLiteralChars text ++ ['"']) = text := by
  induction text with
  | nil => rfl
  | cons c text ih =>
      rw [quoteLiteralChars, List.append_assoc]
      split
      -- A null character in front of an octal digit has a longer escape.
      · next hnull =>
          obtain ⟨hnull, -⟩ := Bool.and_eq_true_iff.mp hnull
          obtain rfl := beq_iff_eq.mp hnull
          have hescape : ∀ rest, unquote .plain ('\\' :: 'x' :: '0' :: '0' :: rest) =
              '\x00' :: unquote .plain rest := fun _ => rfl
          exact (hescape _).trans (congrArg _ ih)
      · rw [unquote_quoteChar, ih]

/-- A quoted text denotes the text. -/
theorem stringValue?_quoteLiteral (text : String) :
    stringValue? (quoteLiteral text) = some text := by
  have hchars : (quoteLiteral text).toList = '"' :: (quoteLiteralChars text.toList ++ ['"']) := by
    rw [quoteLiteral, String.toList_ofList, List.cons_append]
  rw [stringValue?, hchars]
  simp only [unquote_quoteLiteralChars, String.ofList_toList]

end EntityTables.Syntax
