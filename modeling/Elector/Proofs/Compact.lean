import Elector.Compact
import Elector.Proofs.Bytes

/-!
# Reading compact numbers back

What the writers of the durable format put down, the readers take off again, with the bytes behind
it untouched:

* `count_encodeNat`: a count that fits eight bytes;
* `word_encodeWord`: every signed word;
* `bytes_encodeBytes`: a byte string with such a count;
* `list_encodeList`: every list of that many items, given that its items read back.

The writer of a number has four forms. Each is taken apart once, in `fixed_leBytes` and the
`encodeNat_…` equations, and both readers of numbers follow from these.
-/

namespace Elector.Compact

/-! ## The four forms of a number -/

theorem encodeNat_small {n : Nat} (h : n ≤ 250) : encodeNat n = [UInt8.ofNat n] := by
  rw [encodeNat, if_pos h]

theorem encodeNat_two {n : Nat} (h : 250 < n) (h16 : n < 0x10000) :
    encodeNat n = 251 :: leBytes 2 n := by
  rw [encodeNat, if_neg (by omega), if_pos h16]

theorem encodeNat_four {n : Nat} (h16 : 0x10000 ≤ n) (h32 : n < 0x100000000) :
    encodeNat n = 252 :: leBytes 4 n := by
  rw [encodeNat, if_neg (by omega), if_neg (by omega), if_pos h32]

theorem encodeNat_eight {n : Nat} (h32 : 0x100000000 ≤ n) : encodeNat n = 253 :: leBytes 8 n := by
  rw [encodeNat, if_neg (by omega), if_neg (by omega), if_neg (by omega)]

theorem encodeNat_ne_nil (n : Nat) : encodeNat n ≠ [] := by
  rw [encodeNat]
  split
  · simp
  · split
    · simp
    · split <;> simp

theorem toNat_ofNat_small {n : Nat} (h : n ≤ 250) : (UInt8.ofNat n).toNat = n := by
  rw [UInt8.toNat_ofNat']
  omega

theorem ofNat_le_250 {n : Nat} (h : n ≤ 250) : UInt8.ofNat n ≤ 250 := by
  rw [UInt8.le_iff_toNat_le, toNat_ofNat_small h]
  exact h

theorem fixed_leBytes (width : Nat) {n : Nat} (rest : Bytes) (h : n < 256 ^ width) :
    fixed width (leBytes width n ++ rest) = .ok (n, rest) := by
  have hlen : width ≤ (leBytes width n ++ rest).length := by simp
  have htake : (leBytes width n ++ rest).take width = leBytes width n := by
    rw [List.take_append_of_le_length (by simp), List.take_of_length_le (by simp)]
  have hdrop : (leBytes width n ++ rest).drop width = rest := by
    rw [List.drop_append_of_le_length (by simp), List.drop_of_length_le (by simp),
      List.nil_append]
  rw [fixed, take, if_pos hlen, htake, hdrop]
  simp only [leValue_leBytes width n h]

/-! ## Counts and words -/

theorem count_encodeNat {n : Nat} (rest : Bytes) (h : n < 2 ^ 64) :
    count (encodeNat n ++ rest) = .ok (n, rest) := by
  by_cases h8 : n ≤ 250
  · rw [encodeNat_small h8, List.singleton_append, count, if_pos (ofNat_le_250 h8),
      toNat_ofNat_small h8]
  · by_cases h16 : n < 0x10000
    · rw [encodeNat_two (by omega) h16, List.cons_append, count, if_neg (by decide),
        if_pos rfl, fixed_leBytes 2 rest (by omega)]
    · by_cases h32 : n < 0x100000000
      · rw [encodeNat_four (by omega) h32, List.cons_append, count, if_neg (by decide),
          if_neg (by decide), if_pos rfl, fixed_leBytes 4 rest (by omega)]
      · rw [encodeNat_eight (by omega), List.cons_append, count, if_neg (by decide),
          if_neg (by decide), if_neg (by decide), if_pos rfl, fixed_leBytes 8 rest (by omega)]

theorem fold_lt (w : Int32) : fold w.toInt < 0x100000000 := by
  have hlow := w.le_toInt
  have hhigh := w.toInt_lt
  rw [fold]
  split <;> omega

theorem word_encodeWord (w : Int32) (rest : Bytes) :
    word (encodeWord w ++ rest) = .ok (w, rest) := by
  have h := fold_lt w
  have hback : Int32.ofInt (unfold (fold w.toInt)) = w := by
    rw [unfold_fold, Int32.ofInt_toInt]
  rw [encodeWord]
  by_cases h8 : fold w.toInt ≤ 250
  · rw [encodeNat_small h8, List.singleton_append, word, if_pos (ofNat_le_250 h8),
      toNat_ofNat_small h8, hback]
  · by_cases h16 : fold w.toInt < 0x10000
    · rw [encodeNat_two (by omega) h16, List.cons_append, word, if_neg (by decide),
        if_pos rfl, fixed_leBytes 2 rest (by omega), word.ofFold, hback]
    · rw [encodeNat_four (by omega) h, List.cons_append, word, if_neg (by decide),
        if_neg (by decide), if_pos rfl, fixed_leBytes 4 rest (by omega), word.ofFold, hback]

theorem encodeWord_ne_nil (w : Int32) : encodeWord w ≠ [] := encodeNat_ne_nil _

/-! ## Byte strings and lists -/

theorem bytes_encodeBytes {bs : Bytes} (rest : Bytes) (h : bs.length < 2 ^ 64) :
    bytes (encodeBytes bs ++ rest) = .ok (bs, rest) := by
  rw [bytes, encodeBytes, List.append_assoc, count_encodeNat _ h]
  simp [take]

section Lists

variable {α : Type} {item : Reader α} {encode : α → Bytes}

theorem items_flatMap (xs : List α)
    (h : ∀ x ∈ xs, ∀ rest, item (encode x ++ rest) = .ok (x, rest)) (rest : Bytes) :
    items item xs.length (xs.flatMap encode ++ rest) = .ok (xs, rest) := by
  induction xs with
  | nil => rfl
  | cons x xs ih =>
    rw [List.flatMap_cons, List.length_cons, items, List.append_assoc, h x List.mem_cons_self]
    simp only [ih fun y hy => h y (List.mem_cons_of_mem _ hy)]

theorem list_encodeList (xs : List α)
    (h : ∀ x ∈ xs, ∀ rest, item (encode x ++ rest) = .ok (x, rest)) (rest : Bytes)
    (hlen : xs.length < 2 ^ 64) : list item (encodeList encode xs ++ rest) = .ok (xs, rest) := by
  rw [list, encodeList, List.append_assoc, count_encodeNat _ hlen]
  exact items_flatMap xs h rest

end Lists

end Elector.Compact
