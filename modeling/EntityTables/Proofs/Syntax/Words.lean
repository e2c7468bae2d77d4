import EntityTables.Call.Pair
import EntityTables.Proofs.Text.CharClass
import EntityTables.Syntax.Lexer
import Mathlib.Data.List.TakeDrop

/-!
# The words of a text

Every word that the lexer makes is an identifier, possibly behind the mark of a raw one. An
identifier is that by its characters alone; it may be a reserved word.
-/

namespace EntityTables.Syntax

open EntityTables.Text
open EntityTables.Call (isRaw withoutRaw)

/-- Whether some characters are those of an identifier. -/
def isIdentifierChars : List Char → Bool
  | [] => false
  | c :: rest => isIdentStart c && rest.all isIdentContinue

/-- Whether a text is an identifier, reserved or not, without the mark of a raw one. -/
def isIdentifier (text : String) : Bool := isIdentifierChars text.toList

/-- Whether a text is a word: an identifier, raw or not. -/
def isWord (text : String) : Bool := isIdentifier (withoutRaw text)

/-- Whether the lexer may make a token: a word has to be one. -/
@[grind]
def Token.isRead : Token → Bool
  | .ident name => isWord name
  | _ => true

/-- The only word that the grammar adds to those of a text. -/
@[grind =]
theorem isWord_underscore : isWord "_" = true := by decide

theorem all_of_isIdentifierChars {text : List Char} (htext : isIdentifierChars text = true) :
    text.all isIdentContinue = true := by
  cases text with
  | nil => rfl
  | cons c rest =>
      rw [isIdentifierChars, Bool.and_eq_true] at htext
      rw [List.all_cons, isIdentContinue_of_isIdentStart htext.1, htext.2]
      rfl

/-! ### Scanning a name -/

theorem isIdentifierChars_of_scanIdent {text name rest : List Char}
    (hscan : scanIdent text = some (name, rest)) : isIdentifierChars name = true := by
  cases text with
  | nil => cases hscan
  | cons c others =>
      rw [scanIdent] at hscan
      split at hscan
      · next hstart =>
          rw [List.span_eq_takeWhile_dropWhile, Option.some.injEq, Prod.mk.injEq] at hscan
          rw [← hscan.1, List.takeWhile_cons_of_pos (isIdentContinue_of_isIdentStart hstart),
            isIdentifierChars, hstart, List.all_takeWhile]
          rfl
      · cases hscan

theorem withoutRaw_ofList_raw (name : List Char) :
    withoutRaw (String.ofList ('r' :: '#' :: name)) = String.ofList name := by
  have hraw : isRaw (String.ofList ('r' :: '#' :: name)) = true := by
    simp [isRaw, List.isPrefixOf]
  rw [withoutRaw, if_pos hraw, String.toList_ofList]
  rfl

/-- No plain identifier has the mark of a raw one, whose second character continues none. -/
theorem isRaw_ofList_of_isIdentifierChars {name : List Char}
    (hname : isIdentifierChars name = true) : isRaw (String.ofList name) = false := by
  rw [isRaw, String.toList_ofList, Bool.eq_false_iff, Ne, List.isPrefixOf_iff_prefix]
  rintro ⟨rest, rfl⟩
  have hall := all_of_isIdentifierChars hname
  rw [List.all_eq_true] at hall
  exact absurd (hall '#' (by simp)) (by decide)

theorem isWord_of_isIdentifierChars {name : List Char} (hname : isIdentifierChars name = true) :
    isWord (String.ofList name) = true := by
  rw [isWord, withoutRaw, isRaw_ofList_of_isIdentifierChars hname]
  exact (congrArg isIdentifierChars String.toList_ofList).trans hname

theorem isWord_of_scanName {text name rest : List Char}
    (hscan : scanName text = some (name, rest)) : isWord (String.ofList name) = true := by
  unfold scanName at hscan
  split at hscan
  · obtain ⟨⟨scanned, after⟩, hident, hscan⟩ := Option.bind_eq_some_iff.mp hscan
    dsimp only at hscan
    split at hscan
    · cases hscan
    · cases hscan
      rw [isWord, withoutRaw_ofList_raw]
      exact (congrArg isIdentifierChars String.toList_ofList).trans
        (isIdentifierChars_of_scanIdent hident)
  · exact isWord_of_isIdentifierChars (isIdentifierChars_of_scanIdent hscan)

/-! ### Tokens -/

theorem isRead_of_scanToken {text rest : List Char} {token : Token}
    (hscan : scanToken text = some (token, rest)) : token.isRead = true := by
  unfold scanToken at hscan
  split at hscan
  · cases hscan
    rfl
  · split at hscan
    · obtain ⟨_, -, hscan⟩ := Option.map_eq_some_iff.mp hscan
      cases hscan
      rfl
    · split at hscan
      · cases hscan
        rfl
      · split at hscan
        · cases hscan
        · obtain ⟨_, hname, hscan⟩ := Option.map_eq_some_iff.mp hscan
          cases hscan
          exact isWord_of_scanName hname
    · cases hscan

/-- Whether a lexeme is a bracket or a token that the lexer may make. -/
def Lexeme.isRead : Lexeme → Bool
  | .token read => read.isRead
  | _ => true

theorem isRead_of_scanLexemes {text rest : List Char} {lexemes : List Lexeme}
    (hscan : scanLexemes text = some (lexemes, rest)) : lexemes.all Lexeme.isRead = true := by
  unfold scanLexemes at hscan
  split at hscan
  · cases hscan
    rfl
  · split at hscan
    · next comment _ _ =>
        cases hscan
        obtain ⟨text, inner⟩ := comment
        cases inner with
        | true => rfl
        | false => rfl
    · split at hscan
      · cases hscan
      · next c _ _ =>
        split at hscan
        · next lexeme hbracket =>
            cases hscan
            unfold bracket? at hbracket
            split at hbracket <;> cases hbracket <;> rfl
        · obtain ⟨⟨token, after⟩, htoken, hscan⟩ := Option.map_eq_some_iff.mp hscan
          cases hscan
          rw [List.all_cons, List.all_nil, Bool.and_true]
          exact isRead_of_scanToken htoken

theorem isRead_of_lexemesWithin {steps : Nat} {text : List Char} {lexemes : List Lexeme}
    (hscan : lexemesWithin steps text = some lexemes) : lexemes.all Lexeme.isRead = true := by
  induction steps generalizing text lexemes with
  | zero =>
      cases text with
      | nil =>
          cases hscan
          rfl
      | cons c rest => cases hscan
  | succ steps ih =>
      cases text with
      | nil =>
          cases hscan
          rfl
      | cons c rest =>
          obtain ⟨⟨front, after⟩, hfront, hscan⟩ := Option.bind_eq_some_iff.mp hscan
          obtain ⟨others, hothers, rfl⟩ := Option.map_eq_some_iff.mp hscan
          rw [List.all_append, isRead_of_scanLexemes hfront, ih hothers]
          rfl

end EntityTables.Syntax
