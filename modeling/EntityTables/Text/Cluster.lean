import EntityTables.Text.CharClass
import EntityTables.Text.ClusterTable

/-!
# Grapheme clusters

What a reader takes for one character: a letter with its marks, a Hangul syllable, a flag, a
pictograph with its joiners. Two ASCII characters share a cluster only if they are a carriage return
and a line feed.
-/

namespace EntityTables.Text

def isJoiner (c : Char) : Bool := c.toNat == 0x200D

/-- The letters that flags are made of, in pairs. -/
def isFlagLetter (c : Char) : Bool := 0x1F1E6 ≤ c.toNat && c.toNat ≤ 0x1F1FF

/-- Precomposed Hangul syllables without a trailing consonant. -/
def isOpenSyllable (c : Char) : Bool :=
  0xAC00 ≤ c.toNat && c.toNat ≤ 0xD7A3 && (c.toNat - 0xAC00) % 28 == 0

def isClosedSyllable (c : Char) : Bool :=
  0xAC00 ≤ c.toNat && c.toNat ≤ 0xD7A3 && (c.toNat - 0xAC00) % 28 != 0

def joinsSyllable (before c : Char) : Bool :=
  (ClusterTable.hangulLead.contains before &&
      (ClusterTable.hangulLead.contains c || ClusterTable.hangulVowel.contains c ||
        isOpenSyllable c || isClosedSyllable c)) ||
    ((isOpenSyllable before || ClusterTable.hangulVowel.contains before) &&
      (ClusterTable.hangulVowel.contains c || ClusterTable.hangulTail.contains c)) ||
    ((isClosedSyllable before || ClusterTable.hangulTail.contains before) &&
      ClusterTable.hangulTail.contains c)

/-- Whether a consonant joins a linked consonant; the cluster is given from its end. -/
def joinsConjunct (cluster : List Char) (c : Char) : Bool :=
  let isLinker (c : Char) := ClusterTable.conjunctLinker.contains c
  let isMark (c : Char) := isLinker c || ClusterTable.conjunctExtend.contains c
  ClusterTable.conjunctConsonant.contains c && (cluster.takeWhile isMark).any isLinker &&
    ((cluster.dropWhile isMark).head?.map ClusterTable.conjunctConsonant.contains).getD false

/-- Whether a pictograph follows another one and a joiner; the cluster is given from its end. -/
def joinsPictograph (cluster : List Char) (c : Char) : Bool :=
  match cluster with
  | joiner :: rest =>
    isJoiner joiner && ClusterTable.pictograph.contains c &&
      ((rest.dropWhile ClusterTable.extend.contains).head?.map
        ClusterTable.pictograph.contains).getD false
  | [] => false

/-- Whether a character beyond ASCII, or one after such a character, joins a cluster, which is given
from its end. -/
def joinsWide (cluster : List Char) (before c : Char) : Bool :=
  !(ClusterTable.control.contains before || ClusterTable.control.contains c) &&
    (joinsSyllable before c || ClusterTable.extend.contains c || isJoiner c ||
      ClusterTable.spacingMark.contains c || ClusterTable.prepended.contains before ||
      joinsConjunct cluster c || joinsPictograph cluster c ||
      (isFlagLetter c && (cluster.takeWhile isFlagLetter).length % 2 == 1))

/-- Whether a character joins a cluster, which is given from its end. -/
def joinsCluster (cluster : List Char) (c : Char) : Bool :=
  match cluster with
  | [] => false
  | before :: _ =>
    if isWide before || isWide c then joinsWide cluster before c
    else before == '\r' && c == '\n'

/-- The clusters of a text that continues a cluster, which is given from its end. -/
def clustersAfter (cluster : List Char) : List Char → List (List Char)
  | [] => if cluster.isEmpty then [] else [cluster.reverse]
  | c :: rest =>
    if cluster.isEmpty || joinsCluster cluster c then clustersAfter (c :: cluster) rest
    else cluster.reverse :: clustersAfter [c] rest

def clusters (text : List Char) : List (List Char) := clustersAfter [] text

end EntityTables.Text
