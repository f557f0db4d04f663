import Mathlib.Data.List.Forall2
import Rollout.Data.Address
import Rollout.Data.Uint256
import Rollout.Proofs.Data.Bytes

/-!
# Proofs/Data/Hex — numbers and byte strings are read back from their digits

A digit stands for its value in either case (`IsDigit`), so the text of a byte string is read back
whether its letters are all lower case (`FixedBytes.ofText?_toHex`) or carry the checksum of an
address (`Address.parse_checksummed`).  A number of 256 bits is read back from its minimal digits
(`Uint256.ofNumeral?_toHex`).
-/

namespace Rollout

namespace Hex

variable {c : Char} {d : Nat} {cs : List Char} {bytes : List UInt8}

/-! ## Texts as bytes -/

/-- Characters of seven bits are their own bytes. -/
theorem bytesOf_ofList (h : ∀ c ∈ cs, c.toNat < 128) :
    bytesOf (String.ofList cs) = cs.map fun c => UInt8.ofNat c.toNat := by
  have hencode : ∀ cs : List Char, (∀ c ∈ cs, c.toNat < 128) →
      cs.flatMap String.utf8EncodeChar = cs.map fun c => UInt8.ofNat c.toNat := by
    intro cs h
    induction cs with
    | nil => rfl
    | cons c cs ih =>
      obtain ⟨hc, hcs⟩ := List.forall_mem_cons.1 h
      have hsize : c.utf8Size = 1 := Char.utf8Size_eq_one_iff.2 (by
        rw [UInt32.le_iff_toNat_le]
        exact Nat.le_of_lt_succ hc)
      rw [List.flatMap_cons, String.utf8EncodeChar_eq_singleton hsize, ih hcs]
      rfl
  rw [bytesOf, toList_eq_data, String.toUTF8_eq_toByteArray, String.toByteArray_ofList,
    List.utf8Encode, List.toList_data_toByteArray, hencode cs h]

/-! ## Digits -/

/-- **The character is a digit with the value**, in either case. -/
structure IsDigit (c : Char) (d : Nat) : Prop where
  ascii : c.toNat < 128
  value : digitValue? (UInt8.ofNat c.toNat) = some d

theorem isDigit_caseDigit (h : d < 16) (k : Nat) : IsDigit (Address.caseDigit (digit d) k) d := by
  have hdigits : ∀ d < 16, (digit d).toNat < 128 ∧
      digitValue? (UInt8.ofNat (digit d).toNat) = some d ∧ (digit d).toUpper.toNat < 128 ∧
        digitValue? (UInt8.ofNat (digit d).toUpper.toNat) = some d := by decide
  obtain ⟨hascii, hvalue, hupper, hvalue'⟩ := hdigits d h
  rw [Address.caseDigit]
  split
  · exact ⟨hupper, hvalue'⟩
  · exact ⟨hascii, hvalue⟩

theorem isDigit_digit (h : d < 16) : IsDigit (digit d) d :=
  isDigit_caseDigit h 0

theorem encode_eq (bytes : List UInt8) :
    encode bytes = (Address.digitValues bytes).map digit := by
  rw [encode, Address.digitValues, List.map_flatMap]
  rfl

theorem lt_of_mem_digitValues (h : d ∈ Address.digitValues bytes) : d < 16 := by
  obtain ⟨b, -, hd⟩ := List.mem_flatMap.1 h
  have hb := b.toNat_lt
  simp only [List.mem_cons, List.not_mem_nil, or_false] at hd
  omega

theorem length_digitValues (bytes : List UInt8) :
    (Address.digitValues bytes).length = 2 * bytes.length := by
  rw [← length_encode, encode_eq, List.length_map]

theorem digitValues_cons (b : UInt8) (bytes : List UInt8) :
    Address.digitValues (b :: bytes) =
      b.toNat / 16 :: b.toNat % 16 :: Address.digitValues bytes :=
  rfl

/-- The digits of the `i`-th byte are its halves. -/
theorem getElem?_digitValues (bytes : List UInt8) (i : Nat) :
    (Address.digitValues bytes)[2 * i]? = bytes[i]?.map (·.toNat / 16) ∧
      (Address.digitValues bytes)[2 * i + 1]? = bytes[i]?.map (·.toNat % 16) := by
  induction bytes generalizing i with
  | nil => exact ⟨rfl, rfl⟩
  | cons b bytes ih =>
    cases i with
    | zero => exact ⟨rfl, rfl⟩
    | succ i => exact ih i

/-- Bytes with the same halves are the same. -/
theorem getElem?_eq_of_digitValues {other : List UInt8} {i k : Nat}
    (hhigh : (Address.digitValues bytes)[2 * i]? = (Address.digitValues other)[2 * k]?)
    (hlow : (Address.digitValues bytes)[2 * i + 1]? = (Address.digitValues other)[2 * k + 1]?) :
    bytes[i]? = other[k]? := by
  rw [(getElem?_digitValues _ _).1, (getElem?_digitValues _ _).1] at hhigh
  rw [(getElem?_digitValues _ _).2, (getElem?_digitValues _ _).2] at hlow
  generalize bytes[i]? = x at hhigh hlow ⊢
  generalize other[k]? = y at hhigh hlow ⊢
  rcases x with - | b <;> rcases y with - | b' <;> simp only [Option.map_none, Option.map_some,
    Option.some.injEq, reduceCtorEq] at hhigh hlow ⊢
  exact UInt8.toNat_inj.1 (by omega)

theorem ascii_of_digits {ds : List Nat} (h : List.Forall₂ IsDigit cs ds) :
    ∀ c ∈ cs, c.toNat < 128 := by
  induction h with
  | nil => nofun
  | cons hc h ih => exact List.forall_mem_cons.2 ⟨hc.ascii, ih⟩

/-- Characters that are digits have the values of the digits. -/
theorem values_of_digits {ds : List Nat} (h : List.Forall₂ IsDigit cs ds) :
    (cs.map fun c => UInt8.ofNat c.toNat).map digitValue? = ds.map some := by
  induction h with
  | nil => rfl
  | cons hc h ih => rw [List.map_cons, List.map_cons, List.map_cons, hc.value, ih]

/-! ## What a text decodes to -/

theorem lt_of_digitValue? {b : UInt8} (h : digitValue? b = some d) : d < 16 := by
  simp only [digitValue?] at h
  grind

/-- Two digits make a byte exactly when they are its halves. -/
theorem ofNat_eq_iff {high low : Nat} {b : UInt8} (hhigh : high < 16) (hlow : low < 16) :
    UInt8.ofNat (16 * high + low) = b ↔ high = b.toNat / 16 ∧ low = b.toNat % 16 := by
  have hvalue : (UInt8.ofNat (16 * high + low)).toNat = 16 * high + low :=
    UInt8.toNat_ofNat_of_lt' (Nat.lt_of_lt_of_le (by omega) (Nat.le_refl 256))
  rw [← UInt8.toNat_inj, hvalue]
  omega

/-- A text reads as a byte and more when its first two digits are the halves of the byte. -/
theorem decodeFrom_cons_iff {high low b : UInt8} {text : List UInt8} {position : Nat} :
    decodeFrom position (high :: low :: text) = .ok (b :: bytes) ↔
      digitValue? high = some (b.toNat / 16) ∧ digitValue? low = some (b.toNat % 16) ∧
        decodeFrom (position + 2) text = .ok bytes := by
  rw [decodeFrom]
  rcases hhigh : digitValue? high with - | h
  · simp
  rcases hlow : digitValue? low with - | l
  · simp
  rcases decodeFrom (position + 2) text with fault | decoded
  · simp
  simp only [Except.ok.injEq, List.cons.injEq, Option.some.injEq, and_assoc,
    ofNat_eq_iff (lt_of_digitValue? hhigh) (lt_of_digitValue? hlow)]

theorem decodeFrom_ne_nil {high low : UInt8} {text : List UInt8} {position : Nat} :
    decodeFrom position (high :: low :: text) ≠ .ok [] := by
  rw [decodeFrom]
  grind

/-- **A text reads as the bytes whose halves its digits are**, and as no others. -/
theorem decodeFrom_ok_iff : ∀ {text bytes : List UInt8} {position : Nat},
    decodeFrom position text = .ok bytes ↔
      text.map digitValue? = (Address.digitValues bytes).map some
  | [], [], _ => by simp [decodeFrom, Address.digitValues]
  | [], b :: bytes, _ => by simp [decodeFrom, digitValues_cons]
  | [_], [], _ => by simp [decodeFrom, Address.digitValues]
  | [_], b :: bytes, _ => by simp [decodeFrom, digitValues_cons]
  | high :: low :: text, [], _ => by simp [decodeFrom_ne_nil, Address.digitValues]
  | high :: low :: text, b :: bytes, position => by
    rw [decodeFrom_cons_iff, @decodeFrom_ok_iff text]
    simp [digitValues_cons]

theorem decode_ok_iff {text : List UInt8} :
    decode text = .ok bytes ↔ text.map digitValue? = (Address.digitValues bytes).map some := by
  rw [← @decodeFrom_ok_iff text bytes 0, decode]
  split
  · next hodd =>
    refine iff_of_false nofun fun h => ?_
    have hlength := congrArg List.length (decodeFrom_ok_iff.1 h)
    rw [List.length_map, List.length_map, length_digitValues] at hlength
    omega
  · exact Iff.rfl

/-- Texts and their digits go place by place. -/
theorem getElem?_of_values {text : List UInt8} {ds : List Nat}
    (h : text.map digitValue? = ds.map some) (j : Nat) : ds[j]? = text[j]?.bind digitValue? := by
  have hget := congrArg (·[j]?) h
  simp only [List.getElem?_map] at hget
  cases htext : text[j]? <;> cases hds : ds[j]? <;> simp_all

theorem exists_digitValues : ∀ {text : List UInt8}, text.length % 2 = 0 →
    (∀ b ∈ text, (digitValue? b).isSome) →
      ∃ bytes, text.map digitValue? = (Address.digitValues bytes).map some
  | [], _, _ => ⟨[], rfl⟩
  | [_], h, _ => by simp at h
  | high :: low :: text, heven, hdigits => by
    obtain ⟨hhigh, hdigits⟩ := List.forall_mem_cons.1 hdigits
    obtain ⟨hlow, hdigits⟩ := List.forall_mem_cons.1 hdigits
    obtain ⟨h, hh⟩ := Option.isSome_iff_exists.1 hhigh
    obtain ⟨l, hl⟩ := Option.isSome_iff_exists.1 hlow
    obtain ⟨bytes, hbytes⟩ := @exists_digitValues text (by simp at heven; omega) hdigits
    obtain ⟨hb, hb'⟩ := (ofNat_eq_iff (lt_of_digitValue? hh) (lt_of_digitValue? hl)).1 rfl
    refine ⟨UInt8.ofNat (16 * h + l) :: bytes, ?_⟩
    rw [digitValues_cons, ← hb, ← hb', List.map_cons, List.map_cons, hh, hl, hbytes]
    rfl

/-- **Every text of digits that has an even length is read.** -/
theorem exists_decode_iff {text : List UInt8} :
    (∃ bytes, decode text = .ok bytes) ↔
      text.length % 2 = 0 ∧ ∀ b ∈ text, (digitValue? b).isSome := by
  constructor
  · rintro ⟨bytes, h⟩
    have hvalues := decode_ok_iff.1 h
    have hlength := congrArg List.length hvalues
    rw [List.length_map, List.length_map, length_digitValues] at hlength
    refine ⟨by omega, fun b hb => ?_⟩
    have hmem : digitValue? b ∈ text.map digitValue? := List.mem_map_of_mem hb
    rw [hvalues] at hmem
    obtain ⟨d, -, hd⟩ := List.mem_map.1 hmem
    exact hd ▸ rfl
  · rintro ⟨heven, hdigits⟩
    obtain ⟨bytes, h⟩ := exists_digitValues heven hdigits
    exact ⟨bytes, decode_ok_iff.2 h⟩

/-- **The digits of a byte string are read back**, whatever their cases. -/
theorem decode_of_digits (h : List.Forall₂ IsDigit cs (Address.digitValues bytes)) :
    decode (cs.map fun c => UInt8.ofNat c.toNat) = .ok bytes :=
  decode_ok_iff.2 (values_of_digits h)

/-! ## Digits of byte strings -/

/-- The bytes of digits behind a marker. -/
theorem stripMarker_of_digits {ds : List Nat} (h : List.Forall₂ IsDigit cs ds) :
    stripMarker (bytesOf (String.ofList ('0' :: 'x' :: cs))) =
      cs.map fun c => UInt8.ofNat c.toNat := by
  have hascii : ∀ c ∈ '0' :: 'x' :: cs, c.toNat < 128 :=
    List.forall_mem_cons.2 ⟨by decide, List.forall_mem_cons.2 ⟨by decide, ascii_of_digits h⟩⟩
  rw [bytesOf_ofList hascii]
  rfl

theorem digits_encode (bytes : List UInt8) :
    List.Forall₂ IsDigit (encode bytes) (Address.digitValues bytes) := by
  rw [encode_eq, List.forall₂_map_left_iff, List.forall₂_same]
  exact fun d hd => isDigit_digit (lt_of_mem_digitValues hd)

/-- Digits keep their values in letters of either case. -/
theorem digits_zipWith_caseDigit {ds ks : List Nat} (hds : ∀ d ∈ ds, d < 16)
    (hlength : ds.length ≤ ks.length) :
    List.Forall₂ IsDigit (List.zipWith Address.caseDigit (ds.map digit) ks) ds := by
  induction ds generalizing ks with
  | nil => exact .nil
  | cons d ds ih =>
    obtain ⟨hd, hds⟩ := List.forall_mem_cons.1 hds
    cases ks with
    | nil => cases hlength
    | cons k ks => exact .cons (isDigit_caseDigit hd k) (ih hds (Nat.le_of_succ_le_succ hlength))

end Hex

/-! ## Byte strings -/

theorem FixedBytes.ofList?_toList {n : Nat} (b : FixedBytes n) : ofList? n b.toList = some b :=
  dif_pos b.length_toList

/-- **A byte string is read back from its lower-case digits.** -/
theorem FixedBytes.ofText?_toHex {n : Nat} (b : FixedBytes n) : ofText? n b.toHex = some b := by
  have hdigits := Hex.digits_encode b.toList
  rw [ofText?, toHex, Hex.stripMarker_of_digits hdigits, Hex.decode_of_digits hdigits]
  exact b.ofList?_toList

theorem Address.digits_checksummed (a : Address) :
    ∃ cs, a.checksummed = String.ofList ('0' :: 'x' :: cs) ∧
      List.Forall₂ Hex.IsDigit cs (digitValues a.toList) := by
  refine ⟨_, rfl, ?_⟩
  rw [Hex.encode_eq]
  refine Hex.digits_zipWith_caseDigit (fun d => Hex.lt_of_mem_digitValues) ?_
  rw [Hex.length_digitValues, Hex.length_digitValues, a.length_toList, FixedBytes.length_toList]
  decide

/-- **An address is read back from its digits with their checksum.** -/
theorem Address.parse_checksummed (a : Address) : parse a.checksummed = .ok a := by
  obtain ⟨cs, htext, hdigits⟩ := digits_checksummed a
  have hlength : (cs.map fun c => UInt8.ofNat c.toNat).length = 40 := by
    rw [List.length_map, hdigits.length_eq, Hex.length_digitValues, a.length_toList]
  rw [parse, htext, Hex.stripMarker_of_digits hdigits, if_neg (by rw [hlength]; decide),
    if_neg (not_not_intro hlength), Hex.decode_of_digits hdigits]
  simp only [a.ofList?_toList]

/-! ## Numbers -/

namespace Uint256

theorem readDigits_cons {c : Char} {d : Nat} (h : Hex.IsDigit c d) (hd : d < 16) (value : Nat)
    (rest : List Char) : readDigits 16 value (c :: rest) = readDigits 16 (16 * value + d) rest := by
  have hvalue : digitValue? 16 c = some d := by
    rw [digitValue?, if_pos h.ascii, h.value]
    exact Option.filter_some_pos (by simpa using hd)
  rw [readDigits, hvalue]
  -- a separator has no value
  rintro rfl
  cases h.value

/-- **The digits of a number continue to the number.** -/
theorem readDigits_hexDigits (n : Nat) (rest : List Char) :
    readDigits 16 0 (hexDigits n ++ rest) = readDigits 16 n rest := by
  induction n using hexDigits.induct generalizing rest with
  | case1 => rw [hexDigits, if_pos rfl, List.nil_append]
  | case2 n hn ih =>
    have hdigit : n % 16 < 16 := Nat.mod_lt n (by decide)
    rw [hexDigits, if_neg hn, List.append_assoc, ih, List.singleton_append,
      readDigits_cons (Hex.isDigit_digit hdigit) hdigit, Nat.div_add_mod]

/-- **A number is read back from its digits.** -/
theorem ofNumeral?_toHex (u : Uint256) : ofNumeral? u.toHex = some u := by
  have hvalue : numeralValue? u.toHex.toList = some u.toNat := by
    rw [toHex, String.toList_ofList, numeralValue?]
    split
    · next hzero => rw [hzero]; rfl
    · simpa [readDigits] using readDigits_hexDigits u.toNat []
  rw [ofNumeral?, hvalue, Option.bind_some, ofNat?_toNat]

end Uint256

end Rollout
