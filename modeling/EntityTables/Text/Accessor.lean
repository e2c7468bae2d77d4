import EntityTables.Text.Cluster
import EntityTables.Text.LetterCase

/-!
# Accessor case

The lower case form of a property name that names an accessor. Unlike the words of database names,
empty words are kept, digits are words of their own, and the parts of a name are its clusters.
-/

namespace EntityTables.Text

def isUpperCluster (cluster : List Char) : Bool :=
  uppercase cluster != lowercase cluster && cluster == uppercase cluster

def isLowerCluster (cluster : List Char) : Bool :=
  uppercase cluster != lowercase cluster && cluster == lowercase cluster

def isDigitCluster (cluster : List Char) : Bool := cluster.all isDigit

def isSeparatorCluster (cluster : List Char) : Bool :=
  cluster == ['_'] || cluster == ['-'] || cluster == [' ']

/-- Whether a word ends between a cluster and what follows it: where lower case turns to upper
case, at either end of a number, and before the last capital in front of lower case. -/
def endsWord (cluster : List Char) : List (List Char) → Bool
  | [] => false
  | next :: rest =>
    (isLowerCluster cluster && isUpperCluster next) ||
      (isLowerCluster cluster && isDigitCluster next) ||
      (isUpperCluster cluster && isDigitCluster next) ||
      (isDigitCluster cluster && isLowerCluster next) ||
      (isDigitCluster cluster && isUpperCluster next) ||
      (isUpperCluster cluster && isUpperCluster next &&
        (rest.head?.map isLowerCluster).getD false)

/-- The words of clusters that continue a word whose clusters so far are `word`. -/
def clusterWords (word : List Char) : List (List Char) → List (List Char)
  | [] => [word]
  | cluster :: rest =>
    if isSeparatorCluster cluster then word :: clusterWords [] rest
    else if endsWord cluster rest then (word ++ cluster) :: clusterWords [] rest
    else clusterWords (word ++ cluster) rest

def accessorCase (name : String) : String :=
  let words := clusterWords [] (clusters name.toList)
  String.ofList (['_'].intercalate (words.map lowercase))

end EntityTables.Text
