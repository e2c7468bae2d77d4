import EntityTables.Proofs.Syntax.Running
import EntityTables.Proofs.Syntax.Words
import EntityTables.Proofs.Text.QualifiedName
import EntityTables.Syntax.Compose
import EntityTables.Syntax.Grammar
import EntityTables.Syntax.Path

/-!
# Names read back as a path

Names that are joined by `::` are read as the path of these names. The lexer makes a token of each
name and two of each pair of colons, the first of which is joint; the grammar puts them together
again.
-/

namespace EntityTables.Syntax

open EntityTables.Syntax.Parser EntityTables.Text

/-! ### The front of a name -/

section Chars

variable {c : Char}

/-- The marks for writing direction and for byte order. -/
def marks : CodeRanges := ⟨#[(0x200e, 0x200f), (0xfeff, 0xfeff)]⟩

set_option maxRecDepth 100000 in
theorem disjoint_marks : marks.disjoint CharTable.identContinue = true := by
  unfold CharTable.identContinue CodeRanges.parse tableWords
  rw [String.toList_ofList]
  decide +kernel

/-- A mark continues no identifier. -/
theorem ne_of_marks {mark : Char} (hmark : marks.contains mark = true) (hwide : isWide mark = true)
    (hpart : isIdentContinue c = true) : c ≠ mark := by
  rintro rfl
  rw [isIdentContinue, if_pos hwide, CodeRanges.not_contains_of_disjoint disjoint_marks hmark] at hpart
  cases hpart

theorem isBlank_eq_false (hpart : isIdentContinue c = true) : isBlank c = false := by
  have hleft : c ≠ '\u200e' := ne_of_marks (by decide +kernel) (by decide) hpart
  have hright : c ≠ '\u200f' := ne_of_marks (by decide +kernel) (by decide) hpart
  cases hwide : isWide c with
  | true =>
      have hspace : isSpace c = false := by
        rw [Bool.eq_false_iff]
        intro hspace
        rw [isSpace, if_pos hwide] at hspace
        rw [isIdentContinue, if_pos hwide,
          CodeRanges.not_contains_of_disjoint disjoint_whiteSpace hspace] at hpart
        cases hpart
      simp [isBlank, hspace, hleft, hright]
  | false =>
      exact forall_narrow (P := fun c => isIdentContinue c = true → isBlank c = false)
        (by decide +kernel) hwide hpart

theorem not_le_of_isWide {last : Char} (hwide : isWide c = true) (hlast : isWide last = false) :
    ¬c ≤ last := by
  rw [isWide, decide_eq_true_eq] at hwide
  rw [isWide, decide_eq_false_iff_not] at hlast
  intro hle
  have hcode : c.toNat ≤ last.toNat := UInt32.le_iff_toNat_le.mp hle
  omega

/-- What the lexer asks of the first character of a token, told of one that starts a name. -/
structure StartsName (c : Char) : Prop where
  blank : isBlank c = false
  bracket : bracket? c = none
  punctuation : isPunctuation c = false
  digit : isDigit c = false
  hexDigit : isHexDigit c = true → 10 ≤ hexDigitValue c

theorem startsName_of_isIdentStart (hstart : isIdentStart c = true) : StartsName c := by
  have hblank := isBlank_eq_false (isIdentContinue_of_isIdentStart hstart)
  cases hwide : isWide c with
  | true =>
      have hnot (last : Char) (hlast : isWide last = false) : (decide (c ≤ last)) = false :=
        decide_eq_false (not_le_of_isWide hwide hlast)
      refine ⟨hblank, ?_, ?_, ?_, fun hhex => ?_⟩
      · unfold bracket?
        split <;> first | rfl | cases hwide
      · rw [isPunctuation, Bool.eq_false_iff]
        intro hmem
        have hall : "~!@#$%^&*-=+|;:,<.>/?'".toList.all (fun other => !isWide other) = true := rfl
        have hnarrow := List.all_eq_true.mp hall c (List.contains_iff_mem.mp hmem)
        rw [hwide] at hnarrow
        cases hnarrow
      · rw [isDigit, hnot '9' (by decide), Bool.and_false]
      · rw [isHexDigit, isDigit, hnot '9' (by decide), hnot 'f' (by decide), hnot 'F' (by decide)]
          at hhex
        simp at hhex
  | false =>
      refine ⟨hblank, ?_, ?_, ?_, ?_⟩
      · exact forall_narrow (P := fun c => isIdentStart c = true → bracket? c = none)
          (by decide +kernel) hwide hstart
      · exact forall_narrow (P := fun c => isIdentStart c = true → isPunctuation c = false)
          (by decide +kernel) hwide hstart
      · exact forall_narrow (P := fun c => isIdentStart c = true → isDigit c = false)
          (by decide +kernel) hwide hstart
      · exact forall_narrow (P := fun c =>
          isIdentStart c = true → isHexDigit c = true → 10 ≤ hexDigitValue c)
            (by decide +kernel) hwide hstart

end Chars

/-! ### Scanning a name -/

section Scanning

variable {c : Char} {name text rest : List Char} {kind : QuoteKind}

/-- What may follow a name in a path: the end, or a colon. -/
def EndsName (rest : List Char) : Prop := rest = [] ∨ ∃ others, rest = ':' :: others

/-- The rest of a plain name, with what follows it. -/
def IsNameTail (text : List Char) : Prop :=
  ∃ front rest, text = front ++ rest ∧ front.all isIdentContinue = true ∧ EndsName rest

theorem IsNameTail.cons (htail : IsNameTail (c :: rest)) :
    c = ':' ∨ isIdentContinue c = true ∧ IsNameTail rest := by
  obtain ⟨front, after, heq, hfront, hafter⟩ := htail
  cases front with
  | nil =>
      rw [List.nil_append] at heq
      rcases hafter with rfl | ⟨others, rfl⟩
      · cases heq
      · cases heq
        exact .inl rfl
  | cons d front =>
      cases heq
      rw [List.all_cons, Bool.and_eq_true] at hfront
      exact .inr ⟨hfront.1, front, after, rfl, hfront.2, hafter⟩

theorem IsNameTail.not_cons (hcolon : c ≠ ':') (hpart : isIdentContinue c = false) :
    ¬IsNameTail (c :: rest) := by
  intro htail
  rcases htail.cons with rfl | ⟨hown, -⟩
  · exact hcolon rfl
  · rw [hpart] at hown
    cases hown

theorem IsNameTail.of_cons (hcolon : c ≠ ':') (htail : IsNameTail (c :: rest)) :
    IsNameTail rest := by
  rcases htail.cons with rfl | ⟨-, hrest⟩
  · exact absurd rfl hcolon
  · exact hrest

theorem isNameTail_append (hname : isIdentifierChars name = true) (hrest : EndsName rest) :
    IsNameTail (name ++ rest) :=
  ⟨name, rest, rfl, all_of_isIdentifierChars hname, hrest⟩

theorem scanIdent_append (hname : isIdentifierChars name = true) (hrest : EndsName rest) :
    scanIdent (name ++ rest) = some (name, rest) := by
  have hall := List.all_eq_true.mp (all_of_isIdentifierChars hname)
  have hstop : rest.takeWhile isIdentContinue = [] ∧ rest.dropWhile isIdentContinue = rest := by
    rcases hrest with rfl | ⟨others, rfl⟩
    · exact ⟨rfl, rfl⟩
    · exact ⟨rfl, rfl⟩
  cases name with
  | nil => cases hname
  | cons c others =>
      rw [isIdentifierChars, Bool.and_eq_true] at hname
      rw [List.cons_append, scanIdent, if_pos hname.1, ← List.cons_append,
        List.span_eq_takeWhile_dropWhile, List.takeWhile_append_of_pos hall,
        List.dropWhile_append_of_pos hall, hstop.1, hstop.2, List.append_nil]

theorem scanRaw_eq_none (hquote : text.head? ≠ some '"') (hmark : text.head? ≠ some '#') :
    scanRaw kind text = none := by
  cases text with
  | nil => rfl
  | cons c rest =>
      rw [List.head?_cons, Ne, Option.some.injEq] at hquote hmark
      have hspan : (c :: rest).span (· == '#') = ([], c :: rest) := by
        simp [List.span_eq_takeWhile_dropWhile, hmark]
      rw [scanRaw, hspan]
      dsimp only
      split
      · next heq => exact absurd (List.cons.inj heq).1 hquote
      · rfl

theorem IsNameTail.scanRaw_eq_none (htail : IsNameTail text) : scanRaw kind text = none := by
  apply Syntax.scanRaw_eq_none
  · intro hhead
    obtain ⟨rest, rfl⟩ := List.head?_eq_some_iff.mp hhead
    exact IsNameTail.not_cons (by decide) (by decide) htail
  · intro hhead
    obtain ⟨rest, rfl⟩ := List.head?_eq_some_iff.mp hhead
    exact IsNameTail.not_cons (by decide) (by decide) htail

/-- The characters of a name: an identifier, or one behind the mark of a raw name, which may not
stand for a module or type. -/
inductive IsNameChars : List Char → Prop
  | plain {name : List Char} (hname : isIdentifierChars name = true) : IsNameChars name
  | raw {name : List Char} (hname : isIdentifierChars name = true)
      (hfree : isRawForbidden name = false) : IsNameChars ('r' :: '#' :: name)

theorem IsNameChars.exists_cons (hname : IsNameChars name) :
    ∃ c rest, name = c :: rest ∧ isIdentStart c = true := by
  cases hname with
  | plain hname =>
      cases name with
      | nil => cases hname
      | cons c rest =>
          rw [isIdentifierChars, Bool.and_eq_true] at hname
          exact ⟨c, rest, rfl, hname.1⟩
  | raw hname hfree => exact ⟨'r', _, rfl, by decide⟩

theorem scanName_append (hname : IsNameChars name) (hrest : EndsName rest) :
    scanName (name ++ rest) = some (name, rest) := by
  cases hname with
  | plain hname =>
      unfold scanName
      split
      · next others heq =>
          have htail := isNameTail_append hname hrest
          rw [heq] at htail
          exact absurd (htail.of_cons (by decide)) (IsNameTail.not_cons (by decide) (by decide))
      · exact scanIdent_append hname hrest
  | raw hname hfree =>
      rw [List.cons_append, List.cons_append, scanName, scanIdent_append hname hrest]
      simp [hfree]

theorem IsNameTail.scanQuotedLiteral_eq_none (htail : IsNameTail text) :
    scanQuotedLiteral text = none := by
  unfold scanQuotedLiteral
  split
  · exact absurd htail (IsNameTail.not_cons (by decide) (by decide))
  · rw [(htail.of_cons (by decide)).scanRaw_eq_none]
    rfl
  · exact absurd (htail.of_cons (by decide)) (IsNameTail.not_cons (by decide) (by decide))
  · rw [((htail.of_cons (by decide)).of_cons (by decide)).scanRaw_eq_none]
    rfl
  · exact absurd (htail.of_cons (by decide)) (IsNameTail.not_cons (by decide) (by decide))
  · rw [((htail.of_cons (by decide)).of_cons (by decide)).scanRaw_eq_none]
    rfl
  · exact absurd (htail.of_cons (by decide)) (IsNameTail.not_cons (by decide) (by decide))
  · exact absurd htail (IsNameTail.not_cons (by decide) (by decide))
  · rfl

/-- A raw name is no raw literal: no quote follows its mark. -/
theorem scanRaw_mark_eq_none (hname : isIdentifierChars name = true) (rest : List Char) :
    scanRaw .text ('#' :: (name ++ rest)) = none := by
  cases name with
  | nil => cases hname
  | cons c others =>
      have hpart : isIdentContinue c = true :=
        List.all_eq_true.mp (all_of_isIdentifierChars hname) c List.mem_cons_self
      have hmark : c ≠ '#' := by
        rintro rfl
        cases hpart
      have hquote : c ≠ '"' := by
        rintro rfl
        cases hpart
      have hspan : ('#' :: (c :: others ++ rest)).span (· == '#') =
          (['#'], c :: (others ++ rest)) := by
        simp [List.span_eq_takeWhile_dropWhile, hmark]
      rw [scanRaw, hspan]
      dsimp only
      split
      · next heq => exact absurd (List.cons.inj heq).1 hquote
      · rfl

theorem scanQuotedLiteral_eq_none (hname : IsNameChars name) (hrest : EndsName rest) :
    scanQuotedLiteral (name ++ rest) = none := by
  cases hname with
  | plain hname => exact (isNameTail_append hname hrest).scanQuotedLiteral_eq_none
  | raw hname hfree =>
      rw [List.cons_append, List.cons_append, scanQuotedLiteral, scanRaw_mark_eq_none hname]
      rfl

theorem scanLiteral_eq_none (hname : IsNameChars name) (hrest : EndsName rest) :
    scanLiteral (name ++ rest) = none := by
  have hquoted := scanQuotedLiteral_eq_none hname hrest
  obtain ⟨c, others, rfl, hstart⟩ := hname.exists_cons
  have hfront := startsName_of_isIdentStart hstart
  rw [List.cons_append] at hquoted ⊢
  have hfraction : scanFraction (c :: (others ++ rest)) = none := by
    simp [scanFraction, scanFractionDigits, hfront.digit, Scan.andThen, refuseIdentAfter]
  have hdigits : scanWholeDigits (c :: (others ++ rest)) = none := by
    have hzero : c ≠ '0' := by
      rintro rfl
      cases hfront.digit
    unfold scanWholeDigits
    split
    · next heq => exact absurd (List.cons.inj heq).1 hzero
    · next heq => exact absurd (List.cons.inj heq).1 hzero
    · next heq => exact absurd (List.cons.inj heq).1 hzero
    · simp only [scanDigits, hfront.digit, Bool.false_eq_true, if_false, if_true]
      split
      · next hhex => rw [if_pos (hfront.hexDigit hhex)]
      · split <;> rfl
  have hwhole : scanWhole (c :: (others ++ rest)) = none := by
    rw [scanWhole, hdigits]
    rfl
  rw [scanLiteral, hquoted, hfraction, hwhole]
  rfl

theorem IsNameTail.all_of_append {front : List Char} (hcolon : ':' ∉ front)
    (htail : IsNameTail (front ++ rest)) : front.all isIdentContinue = true := by
  induction front with
  | nil => rfl
  | cons c others ih =>
      rw [List.mem_cons, not_or] at hcolon
      rcases htail.cons with rfl | ⟨hpart, htail⟩
      · exact absurd rfl hcolon.1
      · rw [List.all_cons, hpart, ih hcolon.2 htail]
        rfl

theorem startsQuotedPrefix_eq_false (hname : IsNameChars name) (hrest : EndsName rest) :
    startsQuotedPrefix (name ++ rest) = false := by
  rw [startsQuotedPrefix, Bool.eq_false_iff]
  intro hany
  obtain ⟨front, hmem, hfront⟩ := List.any_eq_true.mp hany
  obtain ⟨after, hafter⟩ := List.isPrefixOf_iff_prefix.mp hfront
  -- the prefixes have a character that no identifier has, also behind the mark of a raw name
  have hchecked : ∀ front ∈ ["r\"", "r#\"", "r##", "b\"", "b'", "br\"", "br#", "c\"", "cr\"", "cr#"],
      ':' ∉ front.toList ∧ front.toList.all isIdentContinue = false ∧ 2 ≤ front.toList.length ∧
        (front.toList.take 2 = ['r', '#'] →
          (front.toList.drop 2).all isIdentContinue = false) := by decide
  obtain ⟨hcolon, hfree, hlength, hbehind⟩ := hchecked front hmem
  cases hname with
  | plain hname =>
      have htail := isNameTail_append hname hrest
      rw [← hafter] at htail
      rw [htail.all_of_append hcolon] at hfree
      cases hfree
  | @raw name hname _ =>
      have hmark : front.toList.take 2 = ['r', '#'] := by
        have htake := congrArg (List.take 2) hafter
        rwa [List.take_append_of_le_length hlength] at htake
      have htail : IsNameTail (front.toList.drop 2 ++ after) := by
        have hdrop := congrArg (List.drop 2) hafter
        rw [List.drop_append_of_le_length hlength] at hdrop
        rw [hdrop]
        exact isNameTail_append hname hrest
      rw [htail.all_of_append fun hmem => hcolon (List.mem_of_mem_drop hmem)] at hbehind
      cases hbehind hmark

theorem scanToken_append (hname : IsNameChars name) (hrest : EndsName rest) :
    scanToken (name ++ rest) = some (.ident (String.ofList name), rest) := by
  have hliteral := scanLiteral_eq_none hname hrest
  have hprefix := startsQuotedPrefix_eq_false hname hrest
  have hscan := scanName_append hname hrest
  obtain ⟨c, others, rfl, hstart⟩ := hname.exists_cons
  have hfront := startsName_of_isIdentStart hstart
  rw [List.cons_append] at hliteral hprefix hscan ⊢
  unfold scanToken
  rw [hliteral]
  dsimp only
  split
  · next heq =>
      rw [(List.cons.inj heq).1] at hfront
      cases hfront.punctuation
  · next heq =>
      cases heq
      have hpunctuation : startsPunctuation (c :: (others ++ rest)) = false := by
        unfold startsPunctuation
        split
        · rfl
        · rfl
        · next heq =>
            rw [← (List.cons.inj heq).1]
            exact hfront.punctuation
        · rfl
      rw [hpunctuation, hprefix, hscan]
      rfl
  · next heq => cases heq

/-- What starts a name is no blank and no comment. -/
theorem dropBlank_eq_none (hstart : isIdentStart c = true) : dropBlank (c :: rest) = none := by
  have hslash : c ≠ '/' := by
    rintro rfl
    cases hstart
  have hline : startsLineComment (c :: rest) = false := by
    unfold startsLineComment
    split <;> first | rfl | next heq => exact absurd (List.cons.inj heq).1 hslash
  have hblock : startsBlockComment (c :: rest) = false := by
    unfold startsBlockComment
    split <;> first | rfl | next heq => exact absurd (List.cons.inj heq).1 hslash
  have hblank := (startsName_of_isIdentStart hstart).blank
  rw [dropBlank, hblank, hline, hblock]
  rfl

theorem scanDocComment_eq_none (hslash : c ≠ '/') : scanDocComment (c :: rest) = none := by
  unfold scanDocComment
  dsimp only
  split <;> first | rfl | next heq => exact absurd (List.cons.inj heq).1 hslash

/-- The lexer makes one token of a name. -/
theorem scanLexemes_append (hname : IsNameChars name) (hrest : EndsName rest) :
    scanLexemes (name ++ rest) = some ([.token (.ident (String.ofList name))], rest) := by
  have htoken := scanToken_append hname hrest
  obtain ⟨c, others, rfl, hstart⟩ := hname.exists_cons
  have hslash : c ≠ '/' := by
    rintro rfl
    cases hstart
  rw [List.cons_append] at htoken ⊢
  rw [scanLexemes, dropBlank_eq_none hstart]
  dsimp only
  rw [scanDocComment_eq_none hslash]
  dsimp only
  rw [(startsName_of_isIdentStart hstart).bracket, htoken]
  rfl

end Scanning

/-! ### The tokens of a path -/

section Tokens

variable {first : String} {names : List String}

/-- A name that may be a segment of a path. -/
structure IsPathName (name : String) : Prop where
  chars : IsNameChars name.toList
  word : isName name = true ∨ name ∈ ["super", "self", "crate", "try", "Self"]

/-- The characters of more names of a path, each behind two colons. -/
def tailChars (names : List String) : List Char :=
  names.flatMap fun name => ':' :: ':' :: name.toList

/-- The tokens of more names of a path. -/
def tailTokens (names : List String) : List Token :=
  names.flatMap fun name => [.punct ":" true, .punct ":" false, .ident name]

theorem toList_joinNames_cons (first : String) (names : List String) :
    (joinNames (first :: names)).toList = first.toList ++ tailChars names := by
  induction names generalizing first with
  | nil => simp [joinNames_singleton, tailChars]
  | cons second rest ih =>
      rw [← List.singleton_append, joinNames_append (List.cons_ne_nil _ _) (List.cons_ne_nil _ _),
        joinNames_singleton, nameWithin_toList, ih]
      rfl

theorem endsName_tailChars (names : List String) : EndsName (tailChars names) := by
  cases names with
  | nil => exact .inl rfl
  | cons name rest => exact .inr ⟨_, rfl⟩

theorem scanLexemes_colon (rest : List Char) : scanLexemes (':' :: rest) =
    some ([.token (.punct ":" (startsPunctuation rest))], rest) := rfl

theorem lexemesWithin_of_scanLexemes {steps : Nat} {text rest : List Char} {front : List Lexeme}
    (hne : text ≠ []) (hscan : scanLexemes text = some (front, rest)) :
    lexemesWithin (steps + 1) text = (lexemesWithin steps rest).map (front ++ ·) := by
  cases text with
  | nil => exact absurd rfl hne
  | cons c others =>
      rw [lexemesWithin, hscan, Option.bind_some]
      exact hne

theorem startsPunctuation_append {name : List Char} (hname : IsNameChars name) (rest : List Char) :
    startsPunctuation (name ++ rest) = false := by
  obtain ⟨c, others, rfl, hstart⟩ := hname.exists_cons
  have hfront := startsName_of_isIdentStart hstart
  unfold startsPunctuation
  split
  · rfl
  · rfl
  · next heq =>
      rw [← (List.cons.inj heq).1]
      exact hfront.punctuation
  · rfl

theorem lexemesWithin_name {steps : Nat} {name rest : List Char} (hname : IsNameChars name)
    (hrest : EndsName rest) (hsteps : (name ++ rest).length ≤ steps) :
    ∃ fewer, rest.length ≤ fewer ∧ lexemesWithin steps (name ++ rest) =
      (lexemesWithin fewer rest).map (.token (.ident (String.ofList name)) :: ·) := by
  have hscan := scanLexemes_append hname hrest
  obtain ⟨c, others, rfl, -⟩ := hname.exists_cons
  cases steps with
  | zero => cases hsteps
  | succ fewer =>
      refine ⟨fewer, ?_, lexemesWithin_of_scanLexemes (List.cons_ne_nil _ _) hscan⟩
      simp only [List.length_append, List.length_cons] at hsteps
      omega

theorem lexemesWithin_tailChars {steps : Nat} (hnames : ∀ name ∈ names, IsPathName name)
    (hsteps : (tailChars names).length ≤ steps) :
    lexemesWithin steps (tailChars names) = some ((tailTokens names).map .token) := by
  induction names generalizing steps with
  | nil => cases steps <;> rfl
  | cons name rest ih =>
      have hname := (hnames name List.mem_cons_self).chars
      have hlength : (tailChars (name :: rest)).length =
          (name.toList ++ tailChars rest).length + 2 := rfl
      obtain ⟨fewer, rfl⟩ : ∃ fewer, steps = fewer + 2 := ⟨steps - 2, by omega⟩
      have hsteps : (name.toList ++ tailChars rest).length ≤ fewer := by omega
      obtain ⟨last, hlast, hread⟩ := lexemesWithin_name hname (endsName_tailChars rest) hsteps
      have hcolons : tailChars (name :: rest) = ':' :: ':' :: (name.toList ++ tailChars rest) := rfl
      rw [hcolons, lexemesWithin_of_scanLexemes (List.cons_ne_nil _ _) (scanLexemes_colon _),
        lexemesWithin_of_scanLexemes (List.cons_ne_nil _ _) (scanLexemes_colon _), hread,
        ih (fun other hmem => hnames other (List.mem_cons_of_mem _ hmem)) hlast,
        startsPunctuation_append hname, String.ofList_toList]
      rfl

theorem nestFrom_tokens (done : List Node) (tokens : List Token) :
    nestFrom done [] (tokens.map .token) = some (done.reverse ++ tokens.map .leaf) := by
  induction tokens generalizing done with
  | nil => rw [List.map_nil, nestFrom, List.map_nil, List.append_nil]; rfl
  | cons token rest ih =>
      rw [List.map_cons, nestFrom, ih, List.reverse_cons, List.append_assoc, List.map_cons]
      rfl

/-- The lexer makes one token of each name, and two of each pair of colons. -/
theorem lex?_joinNames (hfirst : IsPathName first) (hnames : ∀ name ∈ names, IsPathName name) :
    lex? (joinNames (first :: names)) =
      some ((.ident first :: tailTokens names).map .leaf) := by
  obtain ⟨c, others, hchars, hstart⟩ := hfirst.chars.exists_cons
  have hdrop : dropByteOrderMark (joinNames (first :: names)).toList =
      (joinNames (first :: names)).toList := by
    rw [toList_joinNames_cons, hchars]
    unfold dropByteOrderMark
    split
    · next heq =>
        exact absurd (List.cons.inj heq).1 (ne_of_marks (by decide +kernel) (by decide)
          (isIdentContinue_of_isIdentStart hstart))
    · rfl
  obtain ⟨fewer, hfewer, hread⟩ := lexemesWithin_name hfirst.chars (endsName_tailChars names) le_rfl
  rw [lex?, hdrop, toList_joinNames_cons, hread, lexemesWithin_tailChars hnames hfewer, String.ofList_toList]
  exact nestFrom_tokens [] (.ident first :: tailTokens names)

/-- Two colons at the front make two tokens as those between names do. -/
theorem lex?_leading (hfirst : IsPathName first) (hnames : ∀ name ∈ names, IsPathName name) :
    lex? ("::" ++ joinNames (first :: names)) =
      some ((tailTokens (first :: names)).map .leaf) := by
  have hchars : ("::" ++ joinNames (first :: names)).toList = tailChars (first :: names) := by
    rw [String.toList_append, toList_joinNames_cons]
    rfl
  have hdrop : dropByteOrderMark (tailChars (first :: names)) = tailChars (first :: names) := rfl
  have hall : ∀ name ∈ first :: names, IsPathName name := by
    intro name hmem
    rcases List.mem_cons.mp hmem with rfl | hmem
    · exact hfirst
    · exact hnames name hmem
  rw [lex?, hchars, hdrop, lexemesWithin_tailChars hall le_rfl]
  exact nestFrom_tokens [] (tailTokens (first :: names))

end Tokens

/-! ### The path of the tokens -/

section Grammar

variable {sub : Nonterminal → Parser Node} {names : List String} {name : String}

/-- The trees of the tokens of more names. -/
def tailNodes (names : List String) : List Node := (tailTokens names).map .leaf

/-- More segments of a path, each behind its two colons. -/
def tailSegments (names : List String) : List Node :=
  names.flatMap fun name => [.punct "::", segmentOf name]

theorem length_le_tailNodes (names : List String) : names.length ≤ (tailNodes names).length := by
  induction names with
  | nil => exact le_rfl
  | cons name rest ih =>
      have hlength : (tailNodes (name :: rest)).length = (tailNodes rest).length + 3 := rfl
      rw [List.length_cons]
      omega

theorem run_when_cons {test : Input → Bool} {node : Node} {rest : Input}
    (htest : test (node :: rest) = true) : (when test).run (node :: rest) = .ok (node, rest) :=
  run_when_eq_ok.mpr ⟨htest, rfl⟩

theorem segment_tailNodes (hname : IsPathName name) (names : List String) :
    (segment sub false).run (.leaf (.ident name) :: tailNodes names) =
      .ok (segmentOf name, tailNodes names) := by
  have hplain : (peek fun input => !false && input.startsPunct "<" &&
      !input.startsAnyPunct ["<=", "<<="] ||
        input.startsPunct "::" && (input.skip 2).startsPunct "<").run (tailNodes names) =
      .ok (false, tailNodes names) := by
    cases names <;> rfl
  unfold segment
  refine run_bind_eq_ok.mpr ⟨_, _, run_peek _, ?_⟩
  split
  · exact run_bind_eq_ok.mpr ⟨_, _, run_when_cons rfl, rfl⟩
  · next hroot =>
      extract_lets jp
      have hjp : (jp (.leaf (.ident name))).run (tailNodes names) =
          .ok (segmentOf name, tailNodes names) :=
        run_bind_eq_ok.mpr ⟨_, _, hplain, rfl⟩
      refine run_bind_eq_ok.mpr ⟨_, _, run_peek _, ?_⟩
      split
      · exact run_bind_eq_ok.mpr ⟨_, _, run_when_cons rfl, hjp⟩
      · next hself =>
          refine run_bind_eq_ok.mpr ⟨_, _, run_when_cons ?_, hjp⟩
          refine hname.word.resolve_right fun hmem => ?_
          simp only [List.mem_cons, List.not_mem_nil, or_false] at hmem
          rcases hmem with rfl | rfl | rfl | rfl | rfl
          · exact hroot rfl
          · exact hroot rfl
          · exact hroot rfl
          · exact hroot rfl
          · exact hself rfl

theorem repeatWithin_tailNodes {steps : Nat} {step : Parser (Option (List Node))}
    (hend : step.run [] = .ok (none, []))
    (hstep : ∀ name names, IsPathName name → step.run (tailNodes (name :: names)) =
      .ok (some [.punct "::", segmentOf name], tailNodes names))
    (hnames : ∀ name ∈ names, IsPathName name) (hsteps : names.length < steps)
    (done : List Node) : (repeatWithin steps step done).run (tailNodes names) =
      .ok (done.reverse ++ tailSegments names, []) := by
  induction names generalizing steps done with
  | nil =>
      obtain ⟨fewer, rfl⟩ : ∃ fewer, steps = fewer + 1 := ⟨steps - 1, by omega⟩
      unfold repeatWithin
      refine run_bind_eq_ok.mpr ⟨_, _, hend, ?_⟩
      rw [tailSegments, List.flatMap_nil, List.append_nil]
      rfl
  | cons name rest ih =>
      rw [List.length_cons] at hsteps
      obtain ⟨fewer, rfl⟩ : ∃ fewer, steps = fewer + 1 := ⟨steps - 1, by omega⟩
      unfold repeatWithin
      refine run_bind_eq_ok.mpr ⟨_, _, hstep name rest (hnames name List.mem_cons_self), ?_⟩
      dsimp only
      rw [ih (fun other hmem => hnames other (List.mem_cons_of_mem _ hmem)) (by omega)]
      simp [tailSegments]

theorem moreSegments_tailNodes (hnames : ∀ name ∈ names, IsPathName name) :
    (moreSegments sub false).run (tailNodes names) = .ok (tailSegments names, []) := by
  refine run_bind_eq_ok.mpr ⟨_, _, rfl, ?_⟩
  refine repeatWithin_tailNodes ?_ (fun name names hname => ?_) hnames ?_ []
  · rfl
  · refine run_bind_eq_ok.mpr ⟨true, tailNodes (name :: names), rfl, ?_⟩
    refine run_bind_eq_ok.mpr ⟨_, tailNodes names, ?_, rfl⟩
    refine run_bind_eq_ok.mpr ⟨_, _, rfl, ?_⟩
    exact run_bind_eq_ok.mpr ⟨_, _, segment_tailNodes hname names, rfl⟩
  · exact Nat.lt_succ_of_le (length_le_tailNodes names)

theorem cons_tailSegments (first : String) (names : List String) :
    segmentOf first :: tailSegments names = joinSegments ((first :: names).map segmentOf) := by
  induction names generalizing first with
  | nil => rfl
  | cons second rest ih =>
      have hsegments : tailSegments (second :: rest) =
          .punct "::" :: segmentOf second :: tailSegments rest := rfl
      rw [hsegments, ih]
      rfl

theorem readAll_of_run {α : Type} {input : Input} {parser : (Nonterminal → Parser Node) → Parser α}
    (read : α) (hrun : ∀ sub, (parser sub).run input = .ok (read, [])) :
    readAll input parser = .ok read := by
  rw [readAll, hrun]

/-- **Names as a path.** Names that are joined by `::` are read as the path of these names. -/
theorem parsePath?_joinNames {first : String} (hfirst : IsPathName first)
    (hnames : ∀ name ∈ names, IsPathName name) : parsePath? (joinNames (first :: names)) =
      some (pathOf ((first :: names).map segmentOf)) := by
  rw [parsePath?, readText?, lex?_joinNames hfirst hnames, Option.bind_some,
    readAll_of_run (pathOf ((first :: names).map segmentOf)) fun sub => ?_]
  · rfl
  · rw [pathOf, ← cons_tailSegments]
    refine run_bind_eq_ok.mpr ⟨[], _, rfl, ?_⟩
    refine run_bind_eq_ok.mpr ⟨_, _, segment_tailNodes hfirst names, ?_⟩
    exact run_bind_eq_ok.mpr ⟨_, _, moreSegments_tailNodes hnames, rfl⟩

/-- With another `::` in front they are read as the path from the root. -/
theorem parsePath?_leading {first : String} (hfirst : IsPathName first)
    (hnames : ∀ name ∈ names, IsPathName name) : parsePath? ("::" ++ joinNames (first :: names)) =
      some (absolutePath ((first :: names).map segmentOf)) := by
  rw [parsePath?, readText?, lex?_leading hfirst hnames, Option.bind_some,
    readAll_of_run (absolutePath ((first :: names).map segmentOf)) fun sub => ?_]
  · rfl
  · rw [absolutePath, ← cons_tailSegments]
    refine run_bind_eq_ok.mpr ⟨[.punct "::"], _, rfl, ?_⟩
    refine run_bind_eq_ok.mpr ⟨_, _, segment_tailNodes hfirst names, ?_⟩
    exact run_bind_eq_ok.mpr ⟨_, _, moreSegments_tailNodes hnames, rfl⟩

end Grammar

/-! ### Texts that are paths -/

/-- Whether a text is made of names with `::` between two of them, perhaps also in front. -/
def IsPathText (text : String) : Prop :=
  ∃ first names, IsPathName first ∧ (∀ name ∈ names, IsPathName name) ∧
    (text = joinNames (first :: names) ∨ text = "::" ++ joinNames (first :: names))

theorem IsPathText.within {module name : String} (hmodule : IsPathText module)
    (hname : IsPathName name) : IsPathText (nameWithin module name) := by
  obtain ⟨first, names, hfirst, hnames, hmodule⟩ := hmodule
  refine ⟨first, names ++ [name], hfirst, fun other hmem => ?_, ?_⟩
  · rcases List.mem_append.mp hmem with hmem | hmem
    · exact hnames other hmem
    · rw [List.mem_singleton.mp hmem]
      exact hname
  · rw [← List.cons_append, joinNames_concat (List.cons_ne_nil _ _)]
    rcases hmodule with rfl | rfl
    · exact .inl rfl
    · exact .inr (by simp [nameWithin, String.append_assoc])

theorem IsPathText.isSome_parsePath? {text : String} (htext : IsPathText text) :
    (parsePath? text).isSome = true := by
  obtain ⟨first, names, hfirst, hnames, rfl | rfl⟩ := htext
  · rw [parsePath?_joinNames hfirst hnames]
    rfl
  · rw [parsePath?_leading hfirst hnames]
    rfl

end EntityTables.Syntax
