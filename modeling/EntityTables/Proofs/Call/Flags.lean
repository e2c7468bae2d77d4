import EntityTables.Call.Flags
import Mathlib.Algebra.Order.Floor.Div
import Mathlib.Data.List.Nodup
import Mathlib.Data.Nat.Bitwise

/-!
# Flags tell which arguments were supplied

Setting the bit of one parameter leaves the bits of all others alone, so the bit of a parameter is
set in an encoding if and only if the parameter was supplied. The words have names that differ.
Encodings are exactly the words without a bit beyond the parameters, and decoding takes them back.
-/

namespace EntityTables.Call.FlagEncoding

/-! ### Bits of a word -/

theorem toNat_mask {bit : Nat} (hbit : bit < wordBits) : (mask bit).toNat = 2 ^ bit := by
  unfold wordBits at hbit
  have hone : (1 : UInt32).toNat = 1 := rfl
  rw [mask, UInt32.toNat_shiftLeft, UInt32.toNat_ofNat_of_lt' (by simp [UInt32.size]; omega),
    Nat.mod_eq_of_lt hbit, hone, Nat.shiftLeft_eq, Nat.one_mul]
  exact Nat.mod_eq_of_lt (Nat.pow_lt_pow_right (by decide) hbit)

theorem and_mask_eq_zero_iff {word : UInt32} {bit : Nat} (hbit : bit < wordBits) :
    word &&& mask bit = 0 ↔ word.toNat.testBit bit = false := by
  rw [← UInt32.toNat_inj, UInt32.toNat_and, toNat_mask hbit, Nat.and_two_pow]
  cases word.toNat.testBit bit <;> simp

theorem testBit_or_mask {word : UInt32} {bit other : Nat} (hbit : bit < wordBits) :
    (word ||| mask bit).toNat.testBit other =
      (word.toNat.testBit other || decide (bit = other)) := by
  rw [UInt32.toNat_or, Nat.testBit_or, toNat_mask hbit, Nat.testBit_two_pow]

/-! ### Bits of parameters -/

theorem isSupplied_eq {words : List UInt32} {index : Nat} {word : UInt32}
    (hword : words[index / wordBits]? = some word) :
    isSupplied words index = word.toNat.testBit (index % wordBits) := by
  have hbit : index % wordBits < wordBits := Nat.mod_lt _ (by decide)
  simp only [isSupplied, locate, hword]
  cases htest : word.toNat.testBit (index % wordBits) with
  | false => simp [(and_mask_eq_zero_iff hbit).mpr htest]
  | true =>
      have hne : word &&& mask (index % wordBits) ≠ 0 := fun hzero => by
        simp [(and_mask_eq_zero_iff hbit).mp hzero] at htest
      simp [hne]

theorem length_setBit (words : List UInt32) (index : Nat) :
    (setBit words index).length = words.length := by
  simp [setBit]

theorem isSupplied_setBit {words : List UInt32} {index other : Nat}
    (hother : other / wordBits < words.length) :
    isSupplied (setBit words index) other =
      (isSupplied words other || decide (index = other)) := by
  obtain ⟨word, hword⟩ : ∃ word, words[other / wordBits]? = some word :=
    ⟨_, List.getElem?_eq_getElem hother⟩
  have hparts := Nat.div_add_mod index wordBits
  have hotherParts := Nat.div_add_mod other wordBits
  by_cases hsame : index / wordBits = other / wordBits
  · have hset : (setBit words index)[other / wordBits]? =
        some (word ||| mask (index % wordBits)) := by
      simp [setBit, locate, hsame, hword]
    have hbits : index % wordBits = other % wordBits ↔ index = other :=
      ⟨fun h => by rw [← hparts, ← hotherParts, hsame, h], fun h => by rw [h]⟩
    rw [isSupplied_eq hset, isSupplied_eq hword,
      testBit_or_mask (Nat.mod_lt _ (by decide)), decide_eq_decide.mpr hbits]
  · have hset : (setBit words index)[other / wordBits]? = some word := by
      simp [setBit, locate, hsame, hword]
    have hne : index ≠ other := fun h => hsame (by rw [h])
    rw [isSupplied_eq hset, isSupplied_eq hword, decide_eq_false hne, Bool.or_false]

theorem isSupplied_foldl_setBit {indices : List Nat} {words : List UInt32} {index : Nat}
    (hindex : index / wordBits < words.length) :
    isSupplied (indices.foldl setBit words) index =
      (isSupplied words index || decide (index ∈ indices)) := by
  induction indices generalizing words with
  | nil => simp
  | cons first rest ih =>
      rw [List.foldl_cons, ih (by rwa [length_setBit]), isSupplied_setBit hindex, Bool.or_assoc,
        ← Bool.decide_or]
      simp only [List.mem_cons, eq_comm]

variable {encoding : FlagEncoding}

theorem length_encode (supplied : List Nat) :
    (encoding.encode supplied).length = encoding.wordCount := by
  have hfold : ∀ (indices : List Nat) (words : List UInt32),
      (indices.foldl setBit words).length = words.length := by
    intro indices
    induction indices with
    | nil => intro words; rfl
    | cons first rest ih => intro words; rw [List.foldl_cons, ih, length_setBit]
  rw [encode, hfold, List.length_replicate]

theorem div_lt_wordCount {index : Nat} (hindex : index < encoding.parameters) :
    index / wordBits < encoding.wordCount := by
  unfold wordCount wordBits
  omega

/-- The bit of a parameter is set if and only if it was supplied. -/
theorem isSupplied_encode {supplied : List Nat} {index : Nat}
    (hindex : index < encoding.parameters) :
    isSupplied (encoding.encode supplied) index = decide (index ∈ supplied) := by
  have hword := div_lt_wordCount hindex
  have hclear : isSupplied (List.replicate encoding.wordCount 0) index = false := by
    rw [isSupplied_eq (List.getElem?_replicate_of_lt hword)]
    simp
  rw [encode, isSupplied_foldl_setBit (by rwa [List.length_replicate]), hclear, Bool.false_or]
  simp [hindex]

/-! ### Names of words -/

theorem length_flagNames : encoding.flagNames.length = encoding.wordCount := by
  unfold flagNames
  split
  · simp_all
  · simp

theorem mem_flagNames {name : String} (hname : name ∈ encoding.flagNames) :
    ∃ rest, name = "flag" ++ rest := by
  unfold flagNames at hname
  split at hname
  · exact ⟨"", by simpa using hname⟩
  · obtain ⟨index, -, rfl⟩ := List.mem_map.mp hname
    exact ⟨_, rfl⟩

theorem nodup_flagNames : encoding.flagNames.Nodup := by
  unfold flagNames
  split
  · exact List.nodup_singleton _
  · refine List.Nodup.map (fun first second hsame => ?_) List.nodup_range
    have hdigits : Nat.ofDigitChars 10 (first + 1).repr.toList 0 =
        Nat.ofDigitChars 10 (second + 1).repr.toList 0 := by
      rw [show (first + 1).repr = (second + 1).repr by simpa using hsame]
    simpa [Nat.toList_repr, Nat.ofDigitChars_ten_toDigits] using hdigits

/-! ### Words and sets of parameters -/

/-- Words as an encoding makes them: as many as the parameters take, and no bit set beyond the
parameters. -/
structure Canonical (encoding : FlagEncoding) (words : List UInt32) : Prop where
  length : words.length = encoding.parameters ⌈/⌉ wordBits
  clear : ∀ index, encoding.parameters ≤ index → ∀ word, words[index / wordBits]? = some word →
    word.toNat.testBit (index % wordBits) = false

theorem wordCount_eq_ceilDiv : encoding.wordCount = encoding.parameters ⌈/⌉ wordBits := by
  rw [Nat.ceilDiv_eq_add_pred_div, Nat.add_sub_assoc (by decide)]
  rfl

theorem canonical_encode (supplied : List Nat) :
    encoding.Canonical (encoding.encode supplied) where
  length := (length_encode supplied).trans wordCount_eq_ceilDiv
  clear index hindex word hword := by
    obtain ⟨hplace, -⟩ := List.getElem?_eq_some_iff.mp hword
    rw [length_encode] at hplace
    have hclear : isSupplied (List.replicate encoding.wordCount 0) index = false := by
      rw [isSupplied_eq (List.getElem?_replicate_of_lt hplace)]
      simp
    have hskipped : index ∉ supplied.filter (· < encoding.parameters) := by
      simp [Nat.not_lt.mpr hindex]
    rw [← isSupplied_eq hword, encode,
      isSupplied_foldl_setBit (by rwa [List.length_replicate]), hclear, decide_eq_false hskipped]
    rfl

theorem isSupplied_mul_add {words : List UInt32} {place bit : Nat} (hplace : place < words.length)
    (hbit : bit < wordBits) :
    isSupplied words (wordBits * place + bit) = words[place].toNat.testBit bit := by
  have hdiv : (wordBits * place + bit) / wordBits = place := by
    rw [Nat.mul_add_div (by decide), Nat.div_eq_of_lt hbit, Nat.add_zero]
  have hword : words[(wordBits * place + bit) / wordBits]? = some words[place] := by
    rw [hdiv, List.getElem?_eq_getElem hplace]
  rw [isSupplied_eq hword, Nat.mul_add_mod, Nat.mod_eq_of_lt hbit]

theorem Canonical.isSupplied_eq_false {words : List UInt32} {index : Nat}
    (hwords : encoding.Canonical words) (hindex : encoding.parameters ≤ index) :
    isSupplied words index = false := by
  cases hword : words[index / wordBits]? with
  | none => simp [isSupplied, locate, hword]
  | some word => rw [isSupplied_eq hword, hwords.clear index hindex word hword]

/-- The bits of the parameters tell canonical words apart. -/
theorem Canonical.ext {first second : List UInt32} (hfirst : encoding.Canonical first)
    (hsecond : encoding.Canonical second)
    (hbits : ∀ index < encoding.parameters, isSupplied first index = isSupplied second index) :
    first = second := by
  have hall : ∀ index, isSupplied first index = isSupplied second index := by
    intro index
    by_cases hindex : index < encoding.parameters
    · exact hbits index hindex
    · rw [hfirst.isSupplied_eq_false (Nat.not_lt.mp hindex),
        hsecond.isSupplied_eq_false (Nat.not_lt.mp hindex)]
  refine List.ext_getElem (hfirst.length.trans hsecond.length.symm) fun place hplace hother => ?_
  refine UInt32.toNat_inj.mp (Nat.eq_of_testBit_eq fun bit => ?_)
  by_cases hbit : bit < wordBits
  · rw [← isSupplied_mul_add hplace hbit, ← isSupplied_mul_add hother hbit, hall]
  · -- No word has a bit there.
    have hbeyond : ∀ word : UInt32, word.toNat.testBit bit = false := fun word =>
      Nat.testBit_lt_two_pow (Nat.lt_of_lt_of_le word.toNat_lt
        (Nat.pow_le_pow_right (by decide) (Nat.not_lt.mp hbit)))
    rw [hbeyond, hbeyond]

theorem mem_decode {words : List UInt32} {index : Nat} :
    index ∈ encoding.decode words ↔
      index < encoding.parameters ∧ isSupplied words index = true := by
  rw [decode, List.mem_filter, List.mem_range]

theorem decode_encode (supplied : List Nat) : encoding.decode (encoding.encode supplied) =
    (List.range encoding.parameters).filter (· ∈ supplied) :=
  List.filter_congr fun _ hindex => isSupplied_encode (List.mem_range.mp hindex)

theorem encode_decode {words : List UInt32} (hwords : encoding.Canonical words) :
    encoding.encode (encoding.decode words) = words := by
  refine (canonical_encode _).ext hwords fun index hindex => ?_
  rw [isSupplied_encode hindex]
  simp [mem_decode, hindex]

/-- **Flags are a faithful code.** Whatever is supplied, its encoding has a word for each 32
parameters and no bit beyond them, and decoding gives back the supplied parameters, each once and in
ascending order. Any words of that form are the encoding of what they decode to. -/
theorem encode_faithful (encoding : FlagEncoding) :
    (∀ supplied, encoding.Canonical (encoding.encode supplied) ∧
      encoding.decode (encoding.encode supplied) =
        (List.range encoding.parameters).filter (· ∈ supplied)) ∧
      ∀ words, encoding.Canonical words → encoding.encode (encoding.decode words) = words :=
  ⟨fun supplied => ⟨canonical_encode supplied, decode_encode supplied⟩,
    fun _ hwords => encode_decode hwords⟩

/-- Forty parameters, some of them supplied twice or beyond the last, and words read back. -/
theorem encode_faithful_forty :
    FlagEncoding.decode ⟨40⟩ (FlagEncoding.encode ⟨40⟩ [39, 3, 99, 3]) = [3, 39] ∧
      FlagEncoding.encode ⟨40⟩ (FlagEncoding.decode ⟨40⟩ [0x80000008, 128]) =
        [0x80000008, 128] := by
  obtain ⟨hencoded, hdecoded⟩ := encode_faithful ⟨40⟩
  have hbits : ∀ index < 64, 40 ≤ index → ([0x80000008, 128] : List UInt32)[index / wordBits]?.all
      (fun word => word.toNat.testBit (index % wordBits) == false) := by decide
  refine ⟨(hencoded [39, 3, 99, 3]).2.trans (by decide),
    hdecoded _ ⟨by decide, fun index hindex word hword => ?_⟩⟩
  obtain ⟨hplace, -⟩ := List.getElem?_eq_some_iff.mp hword
  have hlt : index < 64 := by
    simp only [wordBits, List.length_cons, List.length_nil] at hplace
    omega
  simpa [hword] using hbits index hlt hindex

end EntityTables.Call.FlagEncoding
