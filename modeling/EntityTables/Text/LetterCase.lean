import EntityTables.Text.CaseTable
import EntityTables.Text.CharClass

/-!
# Letter case

Full case conversion of text: a character may become several, and a capital sigma at the end of a
word becomes a final sigma.
-/

namespace EntityTables.Text

def lowerChar (c : Char) : List Char :=
  if isWide c then
    (CaseTable.lowerExpansions.find? c).getD [(CaseTable.lower.find? c).getD c]
  else [if 'A' ≤ c ∧ c ≤ 'Z' then Char.ofNat (c.toNat + 32) else c]

def upperChar (c : Char) : List Char :=
  if isWide c then
    (CaseTable.upperExpansions.find? c).getD [(CaseTable.upper.find? c).getD c]
  else [if 'a' ≤ c ∧ c ≤ 'z' then Char.ofNat (c.toNat - 32) else c]

/-- Whether the first character that is not case-ignorable has a case. -/
def reachesCased (text : List Char) : Bool :=
  match text.dropWhile isCaseIgnorable with
  | [] => false
  | c :: _ => isCased c

/-- Lower case of a text whose reversed left context is `before`. -/
def lowercaseAfter (before : List Char) : List Char → List Char
  | [] => []
  | c :: rest =>
    (if c == 'Σ' then
      [if reachesCased before && !reachesCased rest then 'ς' else 'σ']
    else lowerChar c) ++ lowercaseAfter (c :: before) rest

def lowercase (text : List Char) : List Char := lowercaseAfter [] text

def uppercase (text : List Char) : List Char := text.flatMap upperChar

end EntityTables.Text
