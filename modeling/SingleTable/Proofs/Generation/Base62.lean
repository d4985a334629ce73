import Mathlib.Data.Nat.Digits.Lemmas
import SingleTable.Generation

/-!
# Numbers in base 62

A division keeps the value of a number exactly as long as its digits are bytes (`extend_divide`), and then
its quotient is of bytes again.  So every number that the encoding comes to is of bytes and has the value
that is left (`Reaches.value_eq`): no word overflows, 27 divisions are enough for twenty bytes, and the
digits are those of the library's `Nat.digitsAppend` (`toList_encode`).  Value, width and order of the
texts follow from that.
-/

namespace SingleTable

namespace Base62

variable {number : List UInt32} {remainder d : UInt32}

/-! ## One division -/

def AreBytes (number : List UInt32) : Prop := ∀ d ∈ number, d.toNat < 256

/-- No word overflows when a number is divided by 62, and the remainder has a digit. -/
structure Fits (number : List UInt32) : Prop where
  /-- A remainder and the digit behind it fit one word. -/
  accumulated : ∀ before d after, number = before ++ d :: after →
    (divide 0 before).2.toNat * 256 + d.toNat < UInt32.size
  remainder : (divide 0 number).2.toNat < alphabet.length

theorem toNat_mod_lt (word : UInt32) : (word % 62).toNat < 62 := by
  rw [UInt32.toNat_mod]
  exact Nat.mod_lt _ (by decide)

theorem toNat_zero_lt : (0 : UInt32).toNat < 62 := by decide

/-- A division that starts with a remainder below 62 ends with one. -/
theorem remainder_lt (small : remainder.toNat < 62) (number : List UInt32) :
    (divide remainder number).2.toNat < 62 := by
  induction number generalizing remainder with
  | nil => exact small
  | cons d rest inductionHypothesis => exact inductionHypothesis (toNat_mod_lt _)

theorem toNat_accumulated (small : remainder.toNat < 62) (isByte : d.toNat < 256) :
    (remainder * 256 + d).toNat = remainder.toNat * 256 + d.toNat := by
  simp only [UInt32.toNat_add, UInt32.toNat_mul, UInt32.reduceToNat]
  omega

theorem AreBytes.fits (areBytes : AreBytes number) : Fits number where
  accumulated before d after same := by
    have small := remainder_lt toNat_zero_lt before
    have isByte := areBytes d (by simp [same])
    simp only [UInt32.size]
    omega
  remainder := remainder_lt toNat_zero_lt number

theorem AreBytes.divide (areBytes : AreBytes number) (small : remainder.toNat < 62) :
    AreBytes (Base62.divide remainder number).1 := by
  induction number generalizing remainder with
  | nil => exact areBytes
  | cons d rest inductionHypothesis =>
    obtain ⟨isByte, areLater⟩ := List.forall_mem_cons.1 areBytes
    refine List.forall_mem_cons.2 ⟨?_, inductionHypothesis areLater (toNat_mod_lt _)⟩
    simp only [UInt32.toNat_div, toNat_accumulated small isByte, UInt32.reduceToNat]
    omega

/-- What has been divided is the quotient so far and the remainder, so both together have the value that
was divided. -/
theorem extend_divide (areBytes : AreBytes number) (small : remainder.toNat < 62) (quotient : Nat) :
    62 * extend quotient (divide remainder number).1 + (divide remainder number).2.toNat =
      extend (62 * quotient + remainder.toNat) number := by
  induction number generalizing quotient remainder with
  | nil => rfl
  | cons d rest inductionHypothesis =>
    obtain ⟨isByte, areLater⟩ := List.forall_mem_cons.1 areBytes
    have later := inductionHypothesis areLater (toNat_mod_lt (remainder * 256 + d))
      (quotient * 256 + ((remainder * 256 + d) / 62).toNat)
    refine later.trans ?_
    rw [extend_cons, UInt32.toNat_div, UInt32.toNat_mod, toNat_accumulated small isByte]
    refine congrArg (extend · rest) ?_
    simp only [UInt32.reduceToNat]
    omega

theorem AreBytes.next (areBytes : AreBytes number) : AreBytes (Base62.next number) := fun d isMember =>
  areBytes.divide toNat_zero_lt d (List.dropWhile_subset _ isMember)

/-- A division takes the last digit in base 62 from a number and leaves the others. -/
theorem value_next (areBytes : AreBytes number) :
    (divide 0 number).2.toNat = value number % 62 ∧ value (Base62.next number) = value number / 62 := by
  have whole : 62 * value (divide 0 number).1 + (divide 0 number).2.toNat = value number :=
    extend_divide areBytes toNat_zero_lt 0
  have small := remainder_lt toNat_zero_lt number
  rw [Base62.next, value_dropWhile]
  omega

/-! ## All divisions -/

/-- The numbers that the encoding of one comes to, each with the count of divisions before it. -/
inductive Reaches (start : List UInt32) : Nat → List UInt32 → Prop
  | start : Reaches start 0 start
  | next {count : Nat} {number : List UInt32} (reached : Reaches start count number)
      (isLeft : number.any (· != 0)) : Reaches start (count + 1) (next number)

section Run

variable {start : List UInt32} {count : Nat}

theorem Reaches.areBytes (reached : Reaches start count number) (areBytes : AreBytes start) :
    AreBytes number := by
  induction reached with
  | start => exact areBytes
  | next _ _ inductionHypothesis => exact inductionHypothesis.next

theorem Reaches.value_eq (reached : Reaches start count number) (areBytes : AreBytes start) :
    value number = value start / 62 ^ count := by
  induction reached with
  | start => simp
  | next reached _ inductionHypothesis =>
    rw [(value_next (reached.areBytes areBytes)).2, inductionHypothesis, Nat.div_div_eq_div_mul,
      pow_succ]

/-- A number has no more divisions than digits. -/
theorem Reaches.count_le {width : Nat} (reached : Reaches start count number)
    (areBytes : AreBytes start) (fits : value start < 62 ^ width) : count ≤ width := by
  cases reached with
  | start => exact Nat.zero_le _
  | next reached isLeft =>
    have isPositive := value_pos_iff.2 isLeft
    rw [reached.value_eq areBytes] at isPositive
    have isMore := (Nat.div_pos_iff.1 isPositive).2
    exact (Nat.pow_lt_pow_iff_right (by decide)).1 (isMore.trans_lt fits)

/-- Divisions come to an end, since each leaves less. -/
theorem Reaches.ends (reached : Reaches start count number) :
    ∃ count last, Reaches start count last ∧ ¬ last.any (· != 0) := by
  fun_induction digits number generalizing count with
  | case1 number isLeft inductionHypothesis => exact inductionHypothesis (reached.next isLeft)
  | case2 number isDone => exact ⟨_, _, reached, isDone⟩

end Run

/-- The digit of a value below 62. -/
def glyph (value : Nat) : Char := alphabet.getD value '0'

/-- The digits of a number of bytes are those of its value. -/
theorem digits_eq (areBytes : AreBytes number) :
    digits number = (Nat.digits 62 (value number)).map glyph := by
  fun_induction digits number with
  | case1 number isLeft inductionHypothesis =>
    have parts := value_next areBytes
    rw [inductionHypothesis areBytes.next, Nat.digits_def' (by decide) (value_pos_iff.2 isLeft),
      List.map_cons, parts.2, digit, parts.1, glyph]
  | case2 number isDone =>
    have isZero : value number = 0 :=
      Nat.eq_zero_of_not_pos fun isPositive => isDone (value_pos_iff.1 isPositive)
    rw [isZero, Nat.digits_zero, List.map_nil]

/-! ## Texts -/

/-- The number that bytes stand for, most significant first. -/
def bigEndian (bytes : Vector UInt8 20) : Nat := Nat.ofDigits 256 (bytes.toList.map UInt8.toNat).reverse

def digitValue (c : Char) : Nat :=
  if c.isDigit then c.toNat - '0'.toNat
  else if c.isUpper then c.toNat - 'A'.toNat + 10
  else c.toNat - 'a'.toNat + 36

/-- A text of 27 digits of base 62, most significant first, for a number. -/
structure Writes (text : String) (number : Nat) : Prop where
  length_eq : text.length = 27
  isAlphanum : ∀ c ∈ text.toList, c.isAlphanum
  value_eq : Nat.ofDigits 62 (text.toList.map digitValue).reverse = number

def textBytes (text : String) : List UInt8 := text.toByteArray.data.toList

def glyphByte (value : Nat) : UInt8 := (glyph value).val.toUInt8

theorem digitValue_glyph : ∀ v < 62, digitValue (glyph v) = v := by decide +kernel

theorem isAlphanum_glyph : ∀ v < 62, (glyph v).isAlphanum := by decide +kernel

theorem utf8EncodeChar_glyph : ∀ v < 62, String.utf8EncodeChar (glyph v) = [glyphByte v] := by
  decide +kernel

theorem glyphByte_lt_iff : ∀ v < 62, ∀ w < 62, (glyphByte v < glyphByte w ↔ v < w) := by
  decide +kernel

theorem value_eq_ofDigits (number : List UInt32) :
    value number = Nat.ofDigits 256 (number.map UInt32.toNat).reverse := by
  rw [Nat.ofDigits_eq_foldr, List.foldr_reverse, List.foldl_map, value, extend]
  simp only [Nat.cast_id, Nat.add_comm, Nat.mul_comm]

theorem lt_of_mem_bytes {bytes : List UInt8} {d : Nat}
    (isMember : d ∈ (bytes.map UInt8.toNat).reverse) : d < 256 := by
  obtain ⟨byte, -, rfl⟩ := List.mem_map.1 (List.mem_reverse.1 isMember)
  exact byte.toNat_lt

theorem ofDigits_bytes_lt (bytes : List UInt8) :
    Nat.ofDigits 256 (bytes.map UInt8.toNat).reverse < 256 ^ bytes.length := by
  simpa using Nat.ofDigits_lt_base_pow_length (l := (bytes.map UInt8.toNat).reverse) (by decide)
    fun _ => lt_of_mem_bytes

section Bytes

variable (bytes : Vector UInt8 20)

theorem areBytes_words : AreBytes (bytes.toList.map (·.toUInt32)) := by
  intro d isMember
  obtain ⟨byte, -, rfl⟩ := List.mem_map.1 isMember
  exact byte.toNat_lt

theorem value_words : value (bytes.toList.map (·.toUInt32)) = bigEndian bytes := by
  rw [value_eq_ofDigits, List.map_map, bigEndian]
  rfl

theorem bigEndian_lt : bigEndian bytes < 62 ^ width := by
  have small := ofDigits_bytes_lt bytes.toList
  rw [Vector.length_toList] at small
  exact small.trans (by decide)

theorem bigEndian_injective : Function.Injective bigEndian := by
  intro bytes other same
  have digits_eq := Nat.ofDigits_inj_of_len_eq (by decide) (by simp) (fun _ => lt_of_mem_bytes)
    (fun _ => lt_of_mem_bytes) same
  exact Vector.toList_inj.1 (List.map_injective_iff.2 (fun _ _ => UInt8.toNat_inj.1)
    (List.reverse_injective digits_eq))

/-- The digits of an id by value, most significant first. -/
def digitsOf : List Nat := (Nat.digitsAppend 62 width (bigEndian bytes)).reverse

theorem length_digitsOf : (digitsOf bytes).length = width := by
  rw [digitsOf, List.length_reverse, Nat.length_digitsAppend (by decide) _ (bigEndian_lt bytes)]

theorem lt_of_mem_digitsOf {v : Nat} (isMember : v ∈ digitsOf bytes) : v < 62 :=
  Nat.lt_of_mem_digitsAppend (by decide) _ _ (List.mem_reverse.1 isMember)

theorem ofDigits_digitsOf : Nat.ofDigits 62 (digitsOf bytes).reverse = bigEndian bytes := by
  rw [digitsOf, List.reverse_reverse, Nat.digitsAppend, Nat.ofDigits_append_replicate_zero,
    Nat.ofDigits_digits]

/-- The zeros that fill an id up are the digits that the number does not need. -/
theorem toList_encode : (encode bytes).toList = (digitsOf bytes).map glyph := by
  rw [encode, String.toList_ofList, digits_eq (areBytes_words bytes), value_words, digitsOf,
    Nat.digitsAppend, List.reverse_append, List.reverse_replicate, List.map_append,
    List.map_replicate, List.map_reverse, List.leftpad, List.length_reverse, List.length_map]
  rfl

theorem writes_encode : Writes (encode bytes) (bigEndian bytes) where
  length_eq := by
    rw [← String.length_toList, toList_encode, List.length_map, length_digitsOf, width]
  isAlphanum c isMember := by
    rw [toList_encode, List.mem_map] at isMember
    obtain ⟨v, isDigit, rfl⟩ := isMember
    exact isAlphanum_glyph v (lt_of_mem_digitsOf bytes isDigit)
  value_eq := by
    have read_eq : ((digitsOf bytes).map glyph).map digitValue = digitsOf bytes := by
      rw [List.map_map]
      exact (List.map_congr_left fun v isMember =>
        digitValue_glyph v (lt_of_mem_digitsOf bytes isMember)).trans (List.map_id _)
    rw [toList_encode, read_eq, ofDigits_digitsOf]

theorem textBytes_encode : textBytes (encode bytes) = (digitsOf bytes).map glyphByte := by
  rw [textBytes, ← String.utf8Encode_toList, List.utf8Encode, List.toList_data_toByteArray,
    toList_encode, List.flatMap_map, List.map_eq_flatMap]
  exact List.flatMap_congr fun v isMember =>
    utf8EncodeChar_glyph v (lt_of_mem_digitsOf bytes isMember)

end Bytes

/-! ## Order -/

section Order

variable {base : Nat} {first second : List Nat}

theorem add_mul_lt_iff {scale low low' high high' : Nat} (below : low < scale) (below' : low' < scale) :
    low + scale * high < low' + scale * high' ↔ high < high' ∨ high = high' ∧ low < low' := by
  rcases Nat.lt_trichotomy high high' with isLess | rfl | isMore
  · have apart := Nat.mul_le_mul_left scale (Nat.succ_le_of_lt isLess)
    rw [Nat.mul_succ] at apart
    omega
  · omega
  · have apart := Nat.mul_le_mul_left scale (Nat.succ_le_of_lt isMore)
    rw [Nat.mul_succ] at apart
    omega

/-- Digits of equal number sort as what they stand for: the first that differ decide, whatever is behind
them. -/
theorem lt_iff_ofDigits_lt (isBase : 1 < base) (length_eq : first.length = second.length)
    (small : ∀ d ∈ first, d < base) (small' : ∀ d ∈ second, d < base) :
    first < second ↔ Nat.ofDigits base first.reverse < Nat.ofDigits base second.reverse := by
  induction first generalizing second with
  | nil =>
    obtain rfl := List.eq_nil_of_length_eq_zero length_eq.symm
    simp
  | cons d first inductionHypothesis =>
    obtain ⟨e, second, rfl⟩ := List.exists_cons_of_length_pos (l := second) (by simp [← length_eq])
    obtain ⟨-, small⟩ := List.forall_mem_cons.1 small
    obtain ⟨-, small'⟩ := List.forall_mem_cons.1 small'
    have lengths := Nat.succ.inj length_eq
    have below : Nat.ofDigits base first.reverse < base ^ first.length := by
      simpa using Nat.ofDigits_lt_base_pow_length (l := first.reverse) isBase (by simpa using small)
    have below' : Nat.ofDigits base second.reverse < base ^ first.length := by
      simpa [lengths] using
        Nat.ofDigits_lt_base_pow_length (l := second.reverse) isBase (by simpa using small')
    rw [List.cons_lt_cons_iff, inductionHypothesis lengths small small', Nat.ofDigits_reverse_cons,
      Nat.ofDigits_reverse_cons, ← lengths, add_mul_lt_iff below below']

theorem map_lt_map_iff {f : Nat → UInt8} (mono : ∀ v < base, ∀ w < base, (f v < f w ↔ v < w))
    (small : ∀ d ∈ first, d < base) (small' : ∀ d ∈ second, d < base) :
    first.map f < second.map f ↔ first < second := by
  induction first generalizing second with
  | nil => cases second <;> simp
  | cons d first inductionHypothesis =>
    cases second with
    | nil => simp
    | cons e second =>
      obtain ⟨d_lt, small⟩ := List.forall_mem_cons.1 small
      obtain ⟨e_lt, small'⟩ := List.forall_mem_cons.1 small'
      have same_iff : f d = f e ↔ d = e := by
        refine ⟨fun same => ?_, congrArg f⟩
        have notBelow : ¬ d < e := (mono d d_lt e e_lt).not.1 (same ▸ UInt8.lt_irrefl _)
        have notAbove : ¬ e < d := (mono e e_lt d d_lt).not.1 (same ▸ UInt8.lt_irrefl _)
        omega
      rw [List.map_cons, List.map_cons, List.cons_lt_cons_iff, List.cons_lt_cons_iff,
        mono d d_lt e e_lt, same_iff, inductionHypothesis small small']

end Order

theorem textBytes_encode_lt_iff (bytes other : Vector UInt8 20) :
    textBytes (encode bytes) < textBytes (encode other) ↔ bigEndian bytes < bigEndian other := by
  have small (bytes : Vector UInt8 20) : ∀ d ∈ digitsOf bytes, d < 62 := fun _ =>
    lt_of_mem_digitsOf bytes
  have lengths : (digitsOf bytes).length = (digitsOf other).length := by
    rw [length_digitsOf, length_digitsOf]
  rw [textBytes_encode, textBytes_encode, map_lt_map_iff glyphByte_lt_iff (small _) (small _),
    lt_iff_ofDigits_lt (by decide) lengths (small _) (small _), ofDigits_digitsOf, ofDigits_digitsOf]

/-- Twenty bytes take at most 27 divisions, in none of which a word overflows.  What they give is 27
digits that stand for the same number, so different bytes give different texts, and the texts sort by
their bytes as the numbers do. -/
theorem encode_exact (bytes other : Vector UInt8 20) :
    (∀ count number, Reaches (bytes.toList.map (·.toUInt32)) count number →
      count ≤ width ∧ Fits number) ∧
    (∃ count last, Reaches (bytes.toList.map (·.toUInt32)) count last ∧ ¬ last.any (· != 0)) ∧
    Writes (encode bytes) (bigEndian bytes) ∧
    (encode bytes = encode other ↔ bytes = other) ∧
    (textBytes (encode bytes) < textBytes (encode other) ↔ bigEndian bytes < bigEndian other) := by
  refine ⟨fun count number reached => ⟨?_, ?_⟩, Reaches.start.ends, writes_encode bytes,
    ⟨fun same => bigEndian_injective ?_, congrArg encode⟩, textBytes_encode_lt_iff bytes other⟩
  · exact reached.count_le (areBytes_words bytes) (value_words bytes ▸ bigEndian_lt bytes)
  · exact (reached.areBytes (areBytes_words bytes)).fits
  · exact (writes_encode bytes).value_eq.symm.trans (same ▸ (writes_encode other).value_eq)

/-- The largest id, in the first of its divisions and beside the smallest. -/
theorem encode_exact_largest :
    Reaches (List.replicate 20 255) 1 (next (List.replicate 20 255)) ∧
      Fits (next (List.replicate 20 255)) ∧
      Writes (encode (.replicate 20 255)) (256 ^ 20 - 1) ∧
      textBytes (encode (.replicate 20 0)) < textBytes (encode (.replicate 20 255)) := by
  have reached : Reaches (List.replicate 20 255) 1 (next (List.replicate 20 255)) :=
    .next .start (by decide)
  have largest := encode_exact (.replicate 20 255) (.replicate 20 0)
  have smallest := encode_exact (.replicate 20 0) (.replicate 20 255)
  exact ⟨reached, (largest.1 1 _ reached).2, largest.2.2.1, smallest.2.2.2.2.2 (by decide +kernel)⟩

example : encode (.replicate 20 255) = "aWgEPTl1tmebfsQzFP4bxwgy80V" := by cbv

end Base62

/-! ## Sortable ids -/

namespace Strategy

open Base62

/-- Four bytes hold a second. -/
theorem ofDigits_second {since : Nat} (small : since < UInt32.size) :
    Nat.ofDigits 256 (([since >>> 24, since >>> 16, since >>> 8, since].map UInt8.ofNat).map
      UInt8.toNat).reverse = since := by
  simp only [UInt32.size] at small
  simp only [List.map_cons, List.map_nil, List.reverse_cons, List.reverse_nil, List.nil_append,
    List.cons_append, Nat.ofDigits_cons, Nat.ofDigits_nil, UInt8.toNat_ofNat', Nat.shiftRight_eq_div_pow]
  omega

theorem bigEndian_sortableBytes (moment : Moment) :
    ∃ low < 256 ^ 16, bigEndian (sortableBytes moment) =
      low + 256 ^ 16 * min (moment.seconds - sortableEpoch) (UInt32.size - 1) := by
  have inRange : min (moment.seconds - sortableEpoch) (UInt32.size - 1) < UInt32.size :=
    Nat.lt_of_le_of_lt (Nat.min_le_right _ _) (by decide)
  have low_lt := ofDigits_bytes_lt (List.ofFn fun i : Fin 16 => moment.random i)
  rw [List.length_ofFn] at low_lt
  refine ⟨_, low_lt, ?_⟩
  rw [bigEndian, sortableBytes, Vector.toList_append, Vector.toList_ofFn, List.map_append,
    List.reverse_append, Nat.ofDigits_append, List.length_reverse, List.length_map, List.length_ofFn,
    Vector.toList_map, Vector.toList_mk, ofDigits_second inRange]

/-- Ids made in different seconds sort by them, from the second in which sortable ids begin to count up to
the last that four bytes hold. -/
theorem sortableId_sorts {earlier later : Moment} (isLater : earlier.seconds < later.seconds)
    (isCounted : sortableEpoch < later.seconds)
    (inRange : earlier.seconds < sortableEpoch + (UInt32.size - 1)) :
    ∃ text text', generate sortableId earlier = .string text ∧
      generate sortableId later = .string text' ∧ textBytes text < textBytes text' := by
  refine ⟨_, _, rfl, rfl, (textBytes_encode_lt_iff _ _).2 ?_⟩
  obtain ⟨low, low_lt, low_eq⟩ := bigEndian_sortableBytes earlier
  obtain ⟨low', low_lt', low_eq'⟩ := bigEndian_sortableBytes later
  rw [low_eq, low_eq', add_mul_lt_iff low_lt low_lt']
  have isLess : min (earlier.seconds - sortableEpoch) (UInt32.size - 1) <
      min (later.seconds - sortableEpoch) (UInt32.size - 1) := by
    have isPositive : 0 < UInt32.size - 1 := by decide
    generalize UInt32.size - 1 = last at *
    omega
  exact .inl isLess

end Strategy

end SingleTable
