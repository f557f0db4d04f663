import Mathlib.Data.List.Lex
import Rollout.Proofs.Data.Bytes

/-!
# Proofs/Data/Order — texts in the order of their bytes

Texts are compared code point by code point, and a file system compares names byte by byte.  Both
are the same order: the first byte of a longer character is larger than that of any shorter one, and
characters of one length have their bits in the bytes from the highest to the lowest
(`byteLt_of_lt`).
-/

namespace Rollout

namespace Hex

/-- The bytes of a text as numbers. -/
def numbersOf (text : String) : List Nat :=
  (bytesOf text).map UInt8.toNat

/-- A text comes before another by its bytes: where they differ first, or because it ends there. -/
def ByteLt (text other : String) : Prop :=
  List.Lex (· < ·) (numbersOf text) (numbersOf other)

/-- The numbers of the bytes of a character. -/
def unitsOf (n : Nat) : List Nat :=
  if n < 0x80 then [n]
  else if n < 0x800 then [n / 64 + 0xC0, n % 64 + 0x80]
  else if n < 0x10000 then [n / 4096 + 0xE0, n / 64 % 64 + 0x80, n % 64 + 0x80]
  else [n / 262144 + 0xF0, n / 4096 % 64 + 0x80, n / 64 % 64 + 0x80, n % 64 + 0x80]

theorem toNat_lt (c : Char) : c.toNat < 0x110000 := by
  have hvalid : c.val.toNat < 0xD800 ∨ 0xDFFF < c.val.toNat ∧ c.val.toNat < 0x110000 := c.valid
  change c.val.toNat < 0x110000
  omega

theorem map_toNat_utf8EncodeChar (c : Char) :
    (String.utf8EncodeChar c).map UInt8.toNat = unitsOf c.toNat := by
  have hmax := toNat_lt c
  have hval : c.val.toNat = c.toNat := rfl
  simp only [String.utf8EncodeChar, unitsOf, hval]
  split_ifs <;> first | omega | (simp; omega)

theorem bytesOf_eq_flatMap (text : String) :
    bytesOf text = text.toList.flatMap String.utf8EncodeChar := by
  have hbytes : text.toUTF8 = (text.toList.flatMap String.utf8EncodeChar).toByteArray :=
    (congrArg String.toByteArray (String.ofList_toList (s := text))).symm
  rw [bytesOf, toList_eq_data, hbytes, List.toList_data_toByteArray]

theorem numbersOf_eq_flatMap (text : String) :
    numbersOf text = text.toList.flatMap fun c => unitsOf c.toNat := by
  rw [numbersOf, bytesOf_eq_flatMap, List.map_flatMap]
  simp only [map_toNat_utf8EncodeChar]

theorem unitsOf_ne_nil (n : Nat) : unitsOf n ≠ [] := by
  rw [unitsOf]
  split_ifs <;> exact List.cons_ne_nil _ _

/-- A smaller character has smaller bytes, whatever follows the two. -/
theorem lex_unitsOf {m n : Nat} (h : m < n) (hn : n < 0x110000) (more others : List Nat) :
    List.Lex (· < ·) (unitsOf m ++ more) (unitsOf n ++ others) := by
  change unitsOf m ++ more < unitsOf n ++ others
  simp only [unitsOf]
  split_ifs <;> first
    | omega
    | (simp only [List.cons_append, List.nil_append, List.cons_lt_cons_iff]; omega)

/-- **Texts are in the order of their bytes.** -/
theorem byteLt_of_lt {text other : String} (h : text < other) : ByteLt text other := by
  rw [ByteLt, numbersOf_eq_flatMap, numbersOf_eq_flatMap]
  have hchars : List.Lex (· < ·) text.toList other.toList := h
  generalize text.toList = cs, other.toList = ds at hchars
  induction hchars with
  | @nil c cs =>
    rw [List.flatMap_cons]
    obtain ⟨unit, units, hunits⟩ := List.exists_cons_of_ne_nil (unitsOf_ne_nil c.toNat)
    rw [hunits]
    exact .nil
  | @rel c cs d ds hless => exact lex_unitsOf hless (toNat_lt d) _ _
  | cons _ ih => exact ih.append_left _ _

end Hex

end Rollout
