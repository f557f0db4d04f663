import Mathlib.Tactic.Ring
import Rollout.Data.FixedBytes

/-!
# Proofs/Data/Bytes — bytes tell what they were made of

Different texts have different bytes (`bytesOf_injective`), and two byte strings of known lengths
can be told apart behind one another (`FixedBytes.append_inj`).  The bytes of a number that fits give
back the number (`ofBigEndian_bigEndian`).
-/

namespace Rollout

namespace Hex

theorem toList_loop (bytes : ByteArray) (i : Nat) (read : List UInt8) :
    ByteArray.toList.loop bytes i read = read.reverse ++ bytes.data.toList.drop i := by
  fun_induction ByteArray.toList.loop bytes i read with
  | case1 i read hi ih =>
    have hlength : i < bytes.data.toList.length := hi
    have hget : bytes.get! i = bytes.data.toList[i] := getElem!_pos bytes.data i hi
    rw [ih, List.drop_eq_getElem_cons hlength, hget, List.reverse_cons, List.append_assoc]
    rfl
  | case2 i read hi =>
    have hdrop : bytes.data.toList.drop i = [] := List.drop_eq_nil_of_le (Nat.le_of_not_lt hi)
    rw [hdrop, List.append_nil]

theorem toList_eq_data (bytes : ByteArray) : bytes.toList = bytes.data.toList := by
  rw [ByteArray.toList, toList_loop]
  rfl

theorem bytesOf_injective {text other : String} (h : bytesOf text = bytesOf other) :
    text = other := by
  rw [bytesOf, bytesOf, toList_eq_data, toList_eq_data, Array.toList_inj] at h
  exact String.toByteArray_inj.1 (ByteArray.ext h)

end Hex

theorem FixedBytes.append_inj {m n : Nat} {a a' : FixedBytes m} {b b' : FixedBytes n}
    (h : a.toList ++ b.toList = a'.toList ++ b'.toList) : a = a' ∧ b = b' := by
  have hlength : a.toList.length = a'.toList.length := by rw [a.length_toList, a'.length_toList]
  obtain ⟨ha, hb⟩ := List.append_inj h hlength
  exact ⟨FixedBytes.ext ha, FixedBytes.ext hb⟩

theorem FixedBytes.ofList?_eq_some_iff {n : Nat} {bytes : List UInt8} {b : FixedBytes n} :
    ofList? n bytes = some b ↔ bytes = b.toList := by
  rw [ofList?]
  split
  · next hlength =>
    rw [Option.some_inj]
    exact ⟨fun h => congrArg FixedBytes.toList h, fun h => FixedBytes.ext h⟩
  · next hlength =>
    refine iff_of_false (Option.some_ne_none b).symm fun h => hlength ?_
    rw [h, b.length_toList]

/-! ## Numbers -/

/-- The bytes of a number continue a number that was read before. -/
theorem foldl_bigEndian (n value start : Nat) :
    (bigEndian n value).foldl (fun value b => 256 * value + b.toNat) start =
      start * 256 ^ n + value % 256 ^ n := by
  induction n generalizing start with
  | zero => simp [bigEndian, Nat.mod_one]
  | succ n ih =>
    have hbyte : (UInt8.ofNat (value >>> (8 * n))).toNat = value / 256 ^ n % 256 := by
      rw [UInt8.toNat_ofNat', Nat.shiftRight_eq_div_pow, Nat.pow_mul]
    rw [bigEndian, List.foldl_cons, ih, hbyte, Nat.mod_pow_succ]
    ring

theorem ofBigEndian_bigEndian {n value : Nat} (h : value < 256 ^ n) :
    ofBigEndian (bigEndian n value) = value := by
  rw [ofBigEndian, foldl_bigEndian, Nat.zero_mul, Nat.zero_add, Nat.mod_eq_of_lt h]

end Rollout
