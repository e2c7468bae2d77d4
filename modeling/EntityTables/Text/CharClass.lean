import EntityTables.Text.CharTable

/-!
# Character classes

Each class is decided directly on ASCII and by a table beyond it, so statements about ASCII text
need no table.
-/

namespace EntityTables.Text

/-- Whether a character is beyond ASCII, where the tables decide. -/
def isWide (c : Char) : Bool := 0x80 ≤ c.toNat

def isUpper (c : Char) : Bool :=
  if isWide c then CharTable.uppercase.contains c else 'A' ≤ c && c ≤ 'Z'

def isLower (c : Char) : Bool :=
  if isWide c then CharTable.lowercase.contains c else 'a' ≤ c && c ≤ 'z'

def isDigit (c : Char) : Bool := '0' ≤ c && c ≤ '9'

def isSpace (c : Char) : Bool :=
  if isWide c then CharTable.whiteSpace.contains c else c == ' ' || (9 ≤ c.toNat && c.toNat ≤ 13)

/-- Characters that have a case, whichever it is. -/
def isCased (c : Char) : Bool :=
  if isWide c then CharTable.cased.contains c else isUpper c || isLower c

def isCaseIgnorable (c : Char) : Bool :=
  if isWide c then CharTable.caseIgnorable.contains c
  else c == '\'' || c == '.' || c == ':' || c == '^' || c == '`'

def isIdentStart (c : Char) : Bool :=
  c == '_' ||
    (if isWide c then CharTable.identStart.contains c else isUpper c || isLower c)

def isIdentContinue (c : Char) : Bool :=
  if isWide c then CharTable.identContinue.contains c
  else isUpper c || isLower c || isDigit c || c == '_'

def extendsCluster (c : Char) : Bool := isWide c && CharTable.graphemeExtend.contains c

def isPrintable (c : Char) : Bool :=
  if isWide c then !CharTable.unprintable.contains c else 0x20 ≤ c.toNat && c.toNat < 0x7F

end EntityTables.Text
