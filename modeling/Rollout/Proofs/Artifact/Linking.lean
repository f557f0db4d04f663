import Rollout.Artifact
import Rollout.Proofs.Data.Hex
import Rollout.Proofs.Data.Value

/-!
# Proofs/Artifact/Linking — what linking writes, byte for byte

`Artifact.link` goes through the libraries of an artifact, writes the digits of an address over
every reference to a library, and decodes what it then has.  References may overlap, so a later one
writes over what an earlier one wrote.

`link_exact` has the two sides of it.  Linking succeeds exactly when every library is given, every
reference is as long as an address and ends inside the code, the code has an even number of
characters, and those that no reference covers are digits (`Linkable`).  A byte of the result then
belongs to the address of the last reference over it, or is the byte that the artifact had there
(`Linked`).
-/

namespace Rollout

/-! ## References -/

namespace LinkReference

/-- The reference covers the byte `i` of the code, which has the digits `2 * i` and `2 * i + 1`. -/
def Covers (r : LinkReference) (i : Nat) : Prop :=
  r.start ≤ i ∧ i < r.start + r.length

instance (r : LinkReference) (i : Nat) : Decidable (r.Covers i) :=
  inferInstanceAs (Decidable (r.start ≤ i ∧ i < r.start + r.length))

/-- An address fits the reference, and the reference ends inside code of `n` digits. -/
structure Fits (r : LinkReference) (n : Nat) : Prop where
  length : r.length = 20
  inside : 2 * r.start + 40 ≤ n

theorem fits_iff (r : LinkReference) (n : Nat) :
    r.Fits n ↔ ¬(r.length ≠ 20 ∨ n < 2 * r.start + 2 * r.length) :=
  ⟨fun ⟨hlength, hinside⟩ => by omega, fun h => ⟨by omega, by omega⟩⟩

end LinkReference

namespace Artifact

variable {libraries : List (String × Address)} {library : String} {address : Address}
  {code patched : List UInt8} {r : LinkReference}

/-- The references with the names of their libraries, one after the other. -/
def positionsOf (places : List (String × List LinkReference)) : List (String × LinkReference) :=
  places.flatMap fun entry => entry.2.map (Prod.mk entry.1)

/-- All references of an artifact, in the order in which they are written: by source file, by
library and by place in the list. -/
def positions (a : Artifact) : List (String × LinkReference) :=
  positionsOf a.placements

/-- Some reference covers the byte `i`. -/
def Covered (a : Artifact) (i : Nat) : Prop :=
  ∃ p ∈ a.positions, p.2.Covers i

/-- The last one of some positions that covers the byte `i`. -/
def lastOver? (positions : List (String × LinkReference)) (i : Nat) :
    Option (String × LinkReference) :=
  positions.reverse.find? fun p => p.2.Covers i

theorem lastOver?_eq_none_iff {a : Artifact} {i : Nat} :
    lastOver? a.positions i = none ↔ ¬a.Covered i := by
  simp [lastOver?, Covered]

theorem covers_of_lastOver? {ps : List (String × LinkReference)} {i : Nat}
    {p : String × LinkReference} (h : lastOver? ps i = some p) : p ∈ ps ∧ p.2.Covers i := by
  have hcovers := List.find?_some h
  exact ⟨List.mem_reverse.1 (List.mem_of_find?_eq_some h), of_decide_eq_true hcovers⟩

/-! ## Writing one address -/

theorem length_addressDigits (address : Address) : (addressDigits address).length = 40 := by
  rw [addressDigits, List.length_map, Hex.length_encode, address.length_toList]

theorem values_addressDigits (address : Address) :
    (addressDigits address).map Hex.digitValue? = (Address.digitValues address.toList).map some :=
  Hex.values_of_digits (Hex.digits_encode address.toList)

/-- The code with an address written over a reference. -/
def place (address : Address) (code : List UInt8) (r : LinkReference) : List UInt8 :=
  overwrite code (2 * r.start) (addressDigits address)

theorem length_place (h : r.Fits code.length) : (place address code r).length = code.length := by
  have hinside := h.inside
  simp only [place, overwrite, List.length_append, List.length_take, List.length_drop,
    length_addressDigits]
  omega

/-- **Writing an address changes the digits of the bytes that the reference covers**, and no
others. -/
theorem getElem?_place (h : r.Fits code.length) (j : Nat) :
    (place address code r)[j]? =
      if r.Covers (j / 2) then (addressDigits address)[j - 2 * r.start]? else code[j]? := by
  obtain ⟨hlength, hinside⟩ := h
  have hdigits := length_addressDigits address
  rw [place, overwrite]
  split
  · next hcovers =>
    obtain ⟨hstart, hend⟩ := hcovers
    grind
  · next hcovers =>
    rw [LinkReference.Covers] at hcovers
    grind

/-! ## Writing all addresses -/

theorem libraryAddress?_eq_lookup (libraries : List (String × Address)) (library : String) :
    libraryAddress? libraries library = libraries.lookup library := by
  induction libraries with
  | nil => rfl
  | cons entry libraries ih =>
    rw [libraryAddress?] at ih ⊢
    rw [List.find?_cons, List.lookup_cons, BEq.comm]
    cases library == entry.1
    · exact ih
    · rfl

/-- The address of a library that is given. -/
def addressOf (libraries : List (String × Address)) (library : String) : Address :=
  (libraries.lookup library).getD default

theorem addressOf_of_lookup (h : libraries.lookup library = some address) :
    addressOf libraries library = address := by
  rw [addressOf, h, Option.getD_some]

/-- The code with the addresses of their libraries written over some positions. -/
def placeAll (libraries : List (String × Address)) (positions : List (String × LinkReference))
    (code : List UInt8) : List UInt8 :=
  positions.foldl (fun code p => place (addressOf libraries p.1) code p.2) code

theorem positionsOf_cons (entry : String × List LinkReference)
    (places : List (String × List LinkReference)) :
    positionsOf (entry :: places) = entry.2.map (Prod.mk entry.1) ++ positionsOf places :=
  List.flatMap_cons

theorem placeAll_append (ps qs : List (String × LinkReference)) :
    placeAll libraries (ps ++ qs) code = placeAll libraries qs (placeAll libraries ps code) :=
  List.foldl_append

theorem length_placeAll {ps : List (String × LinkReference)}
    (h : ∀ p ∈ ps, p.2.Fits code.length) : (placeAll libraries ps code).length = code.length := by
  induction ps generalizing code with
  | nil => rfl
  | cons p ps ih =>
    obtain ⟨hp, hps⟩ := List.forall_mem_cons.1 h
    have hlength : (place (addressOf libraries p.1) code p.2).length = code.length :=
      length_place hp
    exact (ih (hlength ▸ hps)).trans hlength

theorem patchAll_ok_iff {references : List LinkReference}
    (haddress : addressOf libraries library = address) :
    patchAll library address references code = .ok patched ↔
      (∀ p ∈ references.map (Prod.mk library), p.2.Fits code.length) ∧
        patched = placeAll libraries (references.map (Prod.mk library)) code := by
  induction references generalizing code with
  | nil => simpa [patchAll, placeAll] using eq_comm
  | cons r references ih =>
    rw [patchAll, List.map_cons, List.forall_mem_cons, r.fits_iff]
    split
    · next h => simp [h]
    · next h =>
      have hlength : (place address code r).length = code.length :=
        length_place ((r.fits_iff _).2 h)
      rw [← place, ih, hlength, placeAll, placeAll, List.foldl_cons, haddress]
      simp only [h, not_false_eq_true, true_and]

/-- One library after the other: it is looked up, and its references are written. -/
theorem patchLibraries_cons_iff {entry : String × List LinkReference}
    {places : List (String × List LinkReference)} :
    patchLibraries libraries (entry :: places) code = .ok patched ↔
      ∃ address first, libraries.lookup entry.1 = some address ∧
        patchAll entry.1 address entry.2 code = .ok first ∧
          patchLibraries libraries places first = .ok patched := by
  rw [patchLibraries, libraryAddress?_eq_lookup]
  rcases libraries.lookup entry.1 with - | address
  · simp
  · rcases hfirst : patchAll entry.1 address entry.2 code with fault | first <;> simp [hfirst]

/-- **Writing the addresses of all libraries** needs every one of them and room for all
references. -/
theorem patchLibraries_ok_iff {places : List (String × List LinkReference)} :
    patchLibraries libraries places code = .ok patched ↔
      (∀ entry ∈ places, (libraries.lookup entry.1).isSome) ∧
        (∀ p ∈ positionsOf places, p.2.Fits code.length) ∧
          patched = placeAll libraries (positionsOf places) code := by
  induction places generalizing code with
  | nil => simpa [patchLibraries, positionsOf, placeAll] using eq_comm
  | cons entry places ih =>
    rw [patchLibraries_cons_iff, List.forall_mem_cons, positionsOf_cons, List.forall_mem_append,
      placeAll_append]
    constructor
    · rintro ⟨address, first, hlookup, hfirst, hrest⟩
      obtain ⟨hfits, rfl⟩ := (patchAll_ok_iff (addressOf_of_lookup hlookup)).1 hfirst
      obtain ⟨hgiven, hfits', hpatched⟩ := ih.1 hrest
      rw [length_placeAll hfits] at hfits'
      exact ⟨⟨Option.isSome_of_eq_some hlookup, hgiven⟩, ⟨hfits, hfits'⟩, hpatched⟩
    · rintro ⟨⟨hlookup, hgiven⟩, ⟨hfits, hfits'⟩, hpatched⟩
      obtain ⟨address, hlookup⟩ := Option.isSome_iff_exists.1 hlookup
      refine ⟨address, _, hlookup, (patchAll_ok_iff (addressOf_of_lookup hlookup)).2 ⟨hfits, rfl⟩,
        ih.2 ⟨hgiven, ?_, hpatched⟩⟩
      rwa [length_placeAll hfits]

theorem lastOver?_cons (p : String × LinkReference) (ps : List (String × LinkReference)) (i : Nat) :
    lastOver? (p :: ps) i = (lastOver? ps i).or (if p.2.Covers i then some p else none) := by
  rw [lastOver?, lastOver?, List.reverse_cons, List.find?_append, List.find?_singleton]
  simp only [decide_eq_true_eq]

/-- **The last reference over a byte has its digits**, and the artifact has the others. -/
theorem getElem?_placeAll {ps : List (String × LinkReference)}
    (h : ∀ p ∈ ps, p.2.Fits code.length) (j : Nat) :
    (placeAll libraries ps code)[j]? =
      match lastOver? ps (j / 2) with
      | some p => (addressDigits (addressOf libraries p.1))[j - 2 * p.2.start]?
      | none => code[j]? := by
  induction ps generalizing code with
  | nil => rfl
  | cons p ps ih =>
    obtain ⟨hp, hps⟩ := List.forall_mem_cons.1 h
    have hlength : (place (addressOf libraries p.1) code p.2).length = code.length :=
      length_place hp
    rw [placeAll, List.foldl_cons, ← placeAll, ih (hlength.symm ▸ hps), lastOver?_cons]
    rcases lastOver? ps (j / 2) with - | q
    · dsimp only
      rw [getElem?_place hp]
      split <;> rfl
    · rfl

/-! ## Linking -/

variable {a : Artifact} {linked : List UInt8}

/-- **What linking needs.** -/
structure Linkable (a : Artifact) (libraries : List (String × Address)) : Prop where
  /-- Every library is given, also one without references. -/
  given : ∀ library ∈ a.requiredLibraries, ∃ address, (library, address) ∈ libraries
  fits : ∀ p ∈ a.positions, p.2.Fits a.digits.length
  even : a.digits.length % 2 = 0
  digit : ∀ j b, a.digits[j]? = some b → ¬a.Covered (j / 2) → (Hex.digitValue? b).isSome

/-- **What linking gives.** -/
structure Linked (a : Artifact) (libraries : List (String × Address)) (linked : List UInt8) :
    Prop where
  length : 2 * linked.length = a.digits.length
  /-- A byte that references cover belongs to the address of the library of the last of them. -/
  covered : ∀ i p, lastOver? a.positions i = some p →
    ∃ address b, libraries.lookup p.1 = some address ∧
      address.toList[i - p.2.start]? = some b ∧ linked[i]? = some b
  /-- The halves of the other bytes are the digits that the artifact has there. -/
  kept : ∀ i b, linked[i]? = some b → ¬a.Covered i →
    a.digits[2 * i]?.bind Hex.digitValue? = some (b.toNat / 16) ∧
      a.digits[2 * i + 1]?.bind Hex.digitValue? = some (b.toNat % 16)

theorem linkedCode_ok_iff :
    a.linkedCode libraries = .ok linked ↔
      ∃ patched, patchLibraries libraries a.placements a.digits = .ok patched ∧
        Hex.decode patched = .ok linked := by
  rw [linkedCode]
  rcases patchLibraries libraries a.placements a.digits with fault | patched
  · simp
  · simp only [Except.ok.injEq, exists_eq_left']
    rcases Hex.decode patched with fault | bytes <;> simp

theorem link_ok_iff :
    a.link libraries = .ok linked ↔
      (∀ entry ∈ a.placements, (libraries.lookup entry.1).isSome) ∧
        (∀ p ∈ a.positions, p.2.Fits a.digits.length) ∧
          Hex.decode (placeAll libraries a.positions a.digits) = .ok linked := by
  have hlink : a.link libraries = .ok linked ↔ a.linkedCode libraries = .ok linked := by
    rw [link]
    cases a.linkedCode libraries <;> simp [Except.mapError]
  simp only [hlink, linkedCode_ok_iff, patchLibraries_ok_iff, and_assoc, exists_and_left,
    exists_eq_left, positions]

theorem isSome_lookup_iff :
    (libraries.lookup library).isSome ↔ ∃ address, (library, address) ∈ libraries := by
  simp [List.lookup_eq_findSome?]

theorem isSome_of_mem_addressDigits {b : UInt8} (h : b ∈ addressDigits address) :
    (Hex.digitValue? b).isSome := by
  have hmem : Hex.digitValue? b ∈ (addressDigits address).map Hex.digitValue? :=
    List.mem_map_of_mem h
  rw [values_addressDigits] at hmem
  obtain ⟨d, -, hd⟩ := List.mem_map.1 hmem
  exact hd ▸ rfl

/-- Only the digits that no reference covers can be none. -/
theorem digits_placeAll_iff (hfits : ∀ p ∈ a.positions, p.2.Fits a.digits.length) :
    (∀ b ∈ placeAll libraries a.positions a.digits, (Hex.digitValue? b).isSome) ↔
      ∀ j b, a.digits[j]? = some b → ¬a.Covered (j / 2) → (Hex.digitValue? b).isSome := by
  have hget : ∀ j, (placeAll libraries a.positions a.digits)[j]? = _ := getElem?_placeAll hfits
  constructor
  · intro h j b hb huncovered
    refine h b (List.mem_iff_getElem?.2 ⟨j, ?_⟩)
    rw [hget, lastOver?_eq_none_iff.2 huncovered, hb]
  · intro h b hb
    obtain ⟨j, hj⟩ := List.mem_iff_getElem?.1 hb
    rw [hget] at hj
    rcases hlast : lastOver? a.positions (j / 2) with - | p <;> rw [hlast] at hj
    · exact h j b hj (lastOver?_eq_none_iff.1 hlast)
    · exact isSome_of_mem_addressDigits (List.mem_of_getElem? hj)

/-- **Linking succeeds exactly when it has what it needs.** -/
theorem exists_link_iff : (∃ linked, a.link libraries = .ok linked) ↔ Linkable a libraries := by
  simp only [link_ok_iff, exists_and_left, Hex.exists_decode_iff]
  constructor
  · rintro ⟨hgiven, hfits, heven, hdigits⟩
    rw [length_placeAll hfits] at heven
    refine ⟨fun library hlibrary => ?_, hfits, heven, (digits_placeAll_iff hfits).1 hdigits⟩
    obtain ⟨entry, hentry, rfl⟩ := List.mem_map.1 hlibrary
    exact isSome_lookup_iff.1 (hgiven entry hentry)
  · rintro ⟨hgiven, hfits, heven, hdigits⟩
    refine ⟨fun entry hentry => ?_, hfits, ?_, (digits_placeAll_iff hfits).2 hdigits⟩
    · exact isSome_lookup_iff.2 (hgiven _ (List.mem_map_of_mem hentry))
    · rwa [length_placeAll hfits]

/-- The digits of the result are the digits that were written or left. -/
theorem getElem?_digitValues_linked (h : a.link libraries = .ok linked) (j : Nat) :
    (Address.digitValues linked)[j]? =
      match lastOver? a.positions (j / 2) with
      | some p => (Address.digitValues (addressOf libraries p.1).toList)[j - 2 * p.2.start]?
      | none => a.digits[j]?.bind Hex.digitValue? := by
  obtain ⟨-, hfits, hdecode⟩ := link_ok_iff.1 h
  rw [Hex.getElem?_of_values (Hex.decode_ok_iff.1 hdecode), getElem?_placeAll hfits]
  rcases lastOver? a.positions (j / 2) with - | p
  · rfl
  · exact (Hex.getElem?_of_values (values_addressDigits _) _).symm

theorem length_of_link (h : a.link libraries = .ok linked) :
    2 * linked.length = a.digits.length := by
  obtain ⟨-, hfits, hdecode⟩ := link_ok_iff.1 h
  have hlength := congrArg List.length (Hex.decode_ok_iff.1 hdecode)
  rw [List.length_map, List.length_map, Hex.length_digitValues, length_placeAll hfits] at hlength
  exact hlength.symm

/-- A covered byte is the byte of the address that was written last. -/
theorem getElem?_of_lastOver? (h : a.link libraries = .ok linked) {i : Nat}
    {p : String × LinkReference} (hlast : lastOver? a.positions i = some p)
    (hstart : p.2.start ≤ i) :
    linked[i]? = (addressOf libraries p.1).toList[i - p.2.start]? := by
  have hhigh := getElem?_digitValues_linked h (2 * i)
  have hlow := getElem?_digitValues_linked h (2 * i + 1)
  rw [show 2 * i / 2 = i by omega, hlast] at hhigh
  rw [show (2 * i + 1) / 2 = i by omega, hlast] at hlow
  refine Hex.getElem?_eq_of_digitValues (hhigh.trans ?_) (hlow.trans ?_)
  · rw [Nat.mul_sub]
  · dsimp only
    rw [Nat.mul_sub, Nat.sub_add_comm (by omega)]

/-- A byte that no reference covers has the digits of the artifact. -/
theorem digits_of_not_covered (h : a.link libraries = .ok linked) {i : Nat} {b : UInt8}
    (hb : linked[i]? = some b) (huncovered : ¬a.Covered i) :
    a.digits[2 * i]?.bind Hex.digitValue? = some (b.toNat / 16) ∧
      a.digits[2 * i + 1]?.bind Hex.digitValue? = some (b.toNat % 16) := by
  have hlast := lastOver?_eq_none_iff.2 huncovered
  obtain ⟨hhigh, hlow⟩ := Hex.getElem?_digitValues linked i
  rw [getElem?_digitValues_linked h, show 2 * i / 2 = i by omega, hlast, hb] at hhigh
  rw [getElem?_digitValues_linked h, show (2 * i + 1) / 2 = i by omega, hlast, hb] at hlow
  exact ⟨hhigh, hlow⟩

/-- Every reference belongs to a library that is given. -/
theorem lookup_of_mem_positions {p : String × LinkReference}
    (hgiven : ∀ entry ∈ a.placements, (libraries.lookup entry.1).isSome) (hp : p ∈ a.positions) :
    libraries.lookup p.1 = some (addressOf libraries p.1) := by
  obtain ⟨entry, hentry, hmem⟩ := List.mem_flatMap.1 hp
  obtain ⟨r, -, rfl⟩ := List.mem_map.1 hmem
  obtain ⟨address, haddress⟩ := Option.isSome_iff_exists.1 (hgiven entry hentry)
  rw [addressOf_of_lookup haddress, haddress]

theorem linked_of_link (h : a.link libraries = .ok linked) : Linked a libraries linked := by
  obtain ⟨hgiven, hfits, -⟩ := link_ok_iff.1 h
  refine ⟨length_of_link h, fun i p hlast => ?_, fun i b => digits_of_not_covered h⟩
  obtain ⟨hp, hstart, hend⟩ := covers_of_lastOver? hlast
  have hlength := (hfits p hp).length
  have hinside : i - p.2.start < (addressOf libraries p.1).toList.length := by
    rw [FixedBytes.length_toList]
    omega
  refine ⟨_, _, lookup_of_mem_positions hgiven hp, List.getElem?_eq_getElem hinside, ?_⟩
  rw [getElem?_of_lastOver? h hlast hstart, List.getElem?_eq_getElem hinside]

/-- **An artifact that is read has its sources in the order of their names**, and each source has
its libraries so. -/
theorem sorted_of_ofValue? {d : Dialect} {v : Value} {a : Artifact} (h : ofValue? d v = some a) :
    a.references.Pairwise (·.1 < ·.1) ∧
      ∀ source ∈ a.references, source.2.Pairwise (·.1 < ·.1) := by
  rw [ofValue?] at h
  split at h
  · next contractName bytecode references hrecord =>
    simp only [Option.bind_eq_bind, Option.bind_eq_some_iff, Option.pure_def,
      Option.some.injEq] at h
    obtain ⟨contractName, -, bytecode, -, sources, hsources, rfl⟩ := h
    rcases references with - | references
    · cases hsources
      exact ⟨.nil, nofun⟩
    · obtain ⟨hsorted, hread⟩ := Value.dictionary?_eq_some hsources
      refine ⟨hsorted, fun source hsource => ?_⟩
      obtain ⟨w, hw⟩ := hread source hsource
      exact (Value.dictionary?_eq_some hw).1
  · cases h

end Artifact

end Rollout
