/-
  An object identifier is read back from its text.

  The text is 24 hexadecimal digits, and so 24 bytes (`encode_hexPadded`).  Each byte is a digit, so
  nothing is refused (`firstOther?_hexBytes`), and the number that they stand for is the word
  (`hexNumber_hexBytes`).
-/
import Polyshell.Bson.ObjectId
import Mathlib.Algebra.Group.Nat.Defs

namespace Polyshell

namespace Text.Utf8

/-- The bytes of a byte array, listed. -/
theorem toList_toByteArray (l : List UInt8) : l.toByteArray.toList = l := by
  have hloop : ∀ (b : ByteArray) (k i : Nat) (acc : List UInt8), b.size - i = k →
      ByteArray.toList.loop b i acc = acc.reverse ++ b.data.toList.drop i := by
    intro b k
    induction k with
    | zero =>
      intro i acc hk
      rw [ByteArray.toList.loop, if_neg (by omega), List.drop_of_length_le (by
        show b.data.size ≤ i
        exact Nat.le_of_sub_eq_zero hk), List.append_nil]
    | succ k ih =>
      intro i acc hk
      have hi : i < b.data.toList.length := by
        show i < b.size
        omega
      have hget : b.get! i = b.data.toList[i] := by
        show b.data[i]! = _
        rw [getElem!_pos b.data i hi, Array.getElem_toList]
      rw [ByteArray.toList.loop, if_pos (show i < b.size from hi), ih (i + 1) _ (by omega), List.reverse_cons,
        List.append_assoc, List.drop_eq_getElem_cons hi, hget]
      rfl
  rw [ByteArray.toList, hloop _ _ 0 [] rfl, List.reverse_nil, List.nil_append, List.drop_zero,
    List.toList_data_toByteArray]

/-- The bytes of an ASCII text are the codes of its characters. -/
theorem encode_of_ascii {cs : List Char} (h : ∀ c ∈ cs, c.toNat < 128) :
    encode (String.ofList cs) = cs.map fun c => UInt8.ofNat c.toNat := by
  have hbytes : cs.flatMap String.utf8EncodeChar = cs.map fun c => UInt8.ofNat c.toNat := by
    induction cs with
    | nil => rfl
    | cons c cs ih =>
      have hc : c.utf8Size = 1 := by
        rw [Char.utf8Size_eq_one_iff, UInt32.le_iff_toNat_le]
        exact Nat.le_of_lt_succ (h c List.mem_cons_self)
      rw [List.flatMap_cons, String.utf8EncodeChar_eq_singleton hc,
        ih fun d hd => h d (List.mem_cons_of_mem c hd)]
      rfl
  show (String.ofList cs).toByteArray.toList = _
  rw [String.toByteArray_ofList, List.utf8Encode, toList_toByteArray, hbytes]

end Text.Utf8

namespace ObjectId

open Text.Utf8 (hexValue? encode encode_of_ascii)

/-- The bytes of the digits that `hexPadded` writes. -/
def hexBytes (width n : Nat) : List UInt8 :=
  (hexPadded width n).map fun c => UInt8.ofNat c.toNat

theorem hexBytes_succ (width n : Nat) : hexBytes (width + 1) n =
    hexBytes width (n / 16) ++ [UInt8.ofNat (Nat.digitChar (n % 16)).toNat] := by
  rw [hexBytes, hexPadded, List.map_append]
  rfl

/-- A digit is one byte, and its value is read back from that. -/
theorem digitChar_spec {n : Nat} (h : n < 16) : (Nat.digitChar n).toNat < 128 ∧
    hexValue? (Char.ofNat (UInt8.ofNat (Nat.digitChar n).toNat).toNat) = some n := by
  have hall : ∀ i : Fin 16, (Nat.digitChar i.val).toNat < 128 ∧
      hexValue? (Char.ofNat (UInt8.ofNat (Nat.digitChar i.val).toNat).toNat) = some i.val := by
    decide
  exact hall ⟨n, h⟩

theorem encode_hexPadded (width n : Nat) :
    encode (String.ofList (hexPadded width n)) = hexBytes width n := by
  refine encode_of_ascii ?_
  induction width generalizing n with
  | zero => exact fun _ h => absurd h List.not_mem_nil
  | succ width ih =>
    intro c hc
    rw [hexPadded] at hc
    rcases List.mem_append.mp hc with hc | hc
    · exact ih _ c hc
    · rw [List.mem_singleton.mp hc]
      exact (digitChar_spec (Nat.mod_lt n (by decide))).1

theorem length_hexBytes (width n : Nat) : (hexBytes width n).length = width := by
  induction width generalizing n with
  | zero => rfl
  | succ width ih => rw [hexBytes_succ, List.length_append, ih, List.length_singleton]

theorem firstOther?_append (s t : List UInt8) :
    ∀ i, firstOther? i s = none → firstOther? i (s ++ t) = firstOther? (i + s.length) t := by
  induction s with
  | nil => exact fun i _ => rfl
  | cons b s ih =>
    intro i h
    rw [firstOther?] at h
    rw [List.cons_append, firstOther?, List.length_cons]
    split at h
    · rename_i hv
      rw [ih _ h]
      congr 1
      omega
    · cases h

/-- All bytes are digits. -/
theorem firstOther?_hexBytes (width n : Nat) : ∀ i, firstOther? i (hexBytes width n) = none := by
  induction width generalizing n with
  | zero => exact fun i => rfl
  | succ width ih =>
    intro i
    rw [hexBytes_succ, firstOther?_append _ _ i (ih _ i), firstOther?,
      (digitChar_spec (Nat.mod_lt n (by decide))).2]
    rfl

/-- The digits stand for the number that they were written for. -/
theorem hexNumber_hexBytes (width : Nat) :
    ∀ n, n < 16 ^ width → hexNumber (hexBytes width n) = n := by
  induction width with
  | zero =>
    intro n h
    rw [Nat.pow_zero] at h
    exact (Nat.lt_one_iff.mp h).symm
  | succ width ih =>
    intro n h
    rw [Nat.pow_succ] at h
    have hdiv := ih (n / 16) (by omega)
    rw [hexNumber] at hdiv
    rw [hexBytes_succ, hexNumber, List.foldl_append, hdiv, List.foldl_cons, List.foldl_nil,
      (digitChar_spec (Nat.mod_lt n (by decide))).2, Option.getD_some]
    omega

/-- **The text of an identifier reads as that identifier.** -/
theorem ofHex_toHex (id : ObjectId) : ofHex id.toHex = .ok id := by
  have hlength := length_hexBytes 24 id.word.toNat
  have hnumber := hexNumber_hexBytes 24 id.word.toNat id.word.isLt
  rw [ofHex, toHex]
  simp only [encode_hexPadded, hlength, firstOther?_hexBytes, hnumber]
  rw [if_neg (by decide), if_pos trivial, BitVec.ofNat_toNat, BitVec.setWidth_eq]

end ObjectId
end Polyshell
