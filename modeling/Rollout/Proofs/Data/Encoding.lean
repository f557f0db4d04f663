import Rollout.Data.Address
import Rollout.Proofs.Data.Bytes

/-!
# Proofs/Data/Encoding — the messages that hashes and addresses are made of

Transactions are hashed from a counter and contracts from a creator and its nonce.  Different
counters of eight bytes are different messages (`bigEndian_inj`), and so are different nonces,
whatever lengths they are written with (`encodeCreation_inj`).  The digests of two of them are then
the same only if the hash collides.
-/

namespace Rollout

/-- A number can be told from its last `n` bytes, if it has no more. -/
theorem bigEndian_inj {n value other : Nat} (hvalue : value < 256 ^ n) (hother : other < 256 ^ n)
    (h : bigEndian n value = bigEndian n other) : value = other := by
  rw [← ofBigEndian_bigEndian hvalue, h, ofBigEndian_bigEndian hother]

namespace Address

theorem ofBigEndian_minimalBytes (n : Nat) : ofBigEndian (minimalBytes n) = n := by
  fun_induction minimalBytes n with
  | case1 => rfl
  | case2 n hn ih =>
    have hbyte : (UInt8.ofNat (n % 256)).toNat = n % 256 := by
      rw [UInt8.toNat_ofNat', Nat.mod_mod]
    rw [ofBigEndian, List.foldl_append, ← ofBigEndian, ih, List.foldl_cons, List.foldl_nil, hbyte]
    exact Nat.div_add_mod n 256

theorem minimalBytes_ne_nil {n : Nat} (h : n ≠ 0) : minimalBytes n ≠ [] := by
  rw [minimalBytes, if_neg h]
  exact List.append_ne_nil_of_right_ne_nil _ (List.cons_ne_nil _ _)

/-- Reads a number as an item of a list encoding.  Zero is written as nothing but its length. -/
def decodeNat : List UInt8 → Nat
  | [] => 0
  | [b] => if b = 0x80 then 0 else b.toNat
  | _ :: bytes => ofBigEndian bytes

theorem decodeNat_encodeNat (n : Nat) : decodeNat (encodeNat n) = n := by
  rw [encodeNat]
  split
  · next hzero => exact hzero.symm
  · next hpos =>
    split
    · next hsmall =>
      have hbyte : (UInt8.ofNat n).toNat = n := by
        rw [UInt8.toNat_ofNat', Nat.mod_eq_of_lt (by omega)]
      have hmarker : UInt8.ofNat n ≠ 0x80 := by
        intro h
        have hvalue : n = 128 := hbyte.symm.trans (congrArg UInt8.toNat h)
        omega
      rw [decodeNat, if_neg hmarker, hbyte]
    · next hlarge =>
      obtain ⟨b, rest, hbytes⟩ := List.exists_cons_of_ne_nil (minimalBytes_ne_nil hpos)
      rw [hbytes, decodeNat, ← hbytes, ofBigEndian_minimalBytes]
      rintro ⟨⟩

/-- **A nonce can be told from the message** whose digest ends in the address of its contract. -/
theorem encodeCreation_inj {creator : Address} {nonce other : Nat}
    (h : encodeCreation creator nonce = encodeCreation creator other) : nonce = other := by
  rw [encodeCreation, encodeCreation] at h
  have hitems := (List.cons.inj (List.cons.inj h).2).2
  have hnonce := List.append_cancel_left hitems
  rw [← decodeNat_encodeNat nonce, hnonce, decodeNat_encodeNat]

end Address

end Rollout
