/-!
# Flags of supplied arguments

Which parameters of a call were supplied, as bits of 32-bit words: parameter `i` is bit `i % 32` of
word `i / 32`. Bits beyond the parameters are never set and never read.
-/

namespace EntityTables.Call

def wordBits : Nat := 32

structure FlagEncoding where
  parameters : Nat
deriving DecidableEq, Repr, Inhabited

namespace FlagEncoding

def wordCount (encoding : FlagEncoding) : Nat := (encoding.parameters + (wordBits - 1)) / wordBits

def locate (index : Nat) : Nat × Nat := (index / wordBits, index % wordBits)

def flagNames (encoding : FlagEncoding) : List String :=
  match encoding.wordCount with
  | 1 => ["flag"]
  | count => (List.range count).map fun index => "flag" ++ toString (index + 1)

/-- A word with only one bit set. -/
def mask (bit : Nat) : UInt32 := 1 <<< UInt32.ofNat bit

def setBit (words : List UInt32) (index : Nat) : List UInt32 :=
  let (word, bit) := locate index
  words.modify word (· ||| mask bit)

/-- The words in which the bits of the given parameters are set. -/
def encode (encoding : FlagEncoding) (supplied : List Nat) : List UInt32 :=
  (supplied.filter (· < encoding.parameters)).foldl setBit
    (List.replicate encoding.wordCount 0)

def isSupplied (words : List UInt32) (index : Nat) : Bool :=
  let (word, bit) := locate index
  match words[word]? with
  | some value => value &&& mask bit != 0
  | none => false

/-- The parameters whose bits are set, in ascending order. -/
def decode (encoding : FlagEncoding) (words : List UInt32) : List Nat :=
  (List.range encoding.parameters).filter (isSupplied words)

end FlagEncoding

end EntityTables.Call
