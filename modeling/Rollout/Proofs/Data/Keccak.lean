import Mathlib.Data.List.Nodup
import Rollout.Data.Address
import Rollout.Naming.Path

/-!
# Proofs/Data/Keccak — the digest of a short message, lane by lane

The permutation is written with lanes that are looked up by their index, and the look-ups are most of
the work when a digest is computed in a proof.  Here a round names its twenty-five lanes instead
(`roundLanes`), which are the same lanes (`lanes_round`).  A message shorter than the rate is one
block, so its digest is that of one permutation (`toList_digest`).
-/

namespace Rollout

namespace Keccak

/-! ## Lanes by index -/

/-- The lanes in order. -/
def lanes (s : State) : List UInt64 :=
  (List.range 25).map (lane s)

theorem lane_ofFn (f : Fin 25 → UInt64) {i : Nat} (h : i < 25) :
    lane (Vector.ofFn f) i = f ⟨i, h⟩ := by
  simp [lane, h]

/-- The parity of a column. -/
def parity (s : State) (x : Nat) : UInt64 :=
  lane s x ^^^ lane s (x + 5) ^^^ lane s (x + 10) ^^^ lane s (x + 15) ^^^ lane s (x + 20)

/-- A lane and the next two of its row. -/
def combine (a b c : UInt64) : UInt64 :=
  a ^^^ ((b ^^^ 0xFFFFFFFFFFFFFFFF) &&& c)

section Steps

variable (s : State) (constant : UInt64) {i : Nat}

theorem lane_theta (h : i < 25) :
    lane (theta s) i =
      lane s i ^^^ (parity s ((i + 4) % 5) ^^^ rotateLeft (parity s ((i + 1) % 5)) 1) := by
  have hcolumn : ∀ x, x % 5 < 5 := fun x => Nat.mod_lt x (by decide)
  rw [theta, lane_ofFn _ h]
  simp [hcolumn, parity]

theorem lane_rhoPi (h : i < 25) :
    lane (rhoPi s) i = rotateLeft (lane s ((i % 5 + 3 * (i / 5)) % 5 + 5 * (i % 5)))
      (offsets.getD ((i % 5 + 3 * (i / 5)) % 5 + 5 * (i % 5)) 0) := by
  -- the source is computed among the twenty-five places, where it stays below their number
  have hsource : ∀ j : Fin 25, ((j % 5 + 3 * (j / 5)) % 5 + 5 * (j % 5)).val =
      (j.val % 5 + 3 * (j.val / 5)) % 5 + 5 * (j.val % 5) := by decide
  rw [rhoPi, lane_ofFn _ h]
  dsimp only
  rw [hsource]

theorem lane_chi (h : i < 25) :
    lane (chi s) i = combine (lane s i) (lane s (5 * (i / 5) + (i + 1) % 5))
      (lane s (5 * (i / 5) + (i + 2) % 5)) := by
  rw [chi, lane_ofFn _ h, combine]

theorem lane_round (h : i < 25) :
    lane (round s constant) i =
      if i = 0 then lane (chi (rhoPi (theta s))) i ^^^ constant
      else lane (chi (rhoPi (theta s))) i := by
  rw [round, lane]
  by_cases hi : i = 0
  · simp [hi]
  · simp [hi, Ne.symm hi, lane, h]

end Steps

/-! ## Lanes by name -/

/-- A round of the permutation.  The letters are the rows. -/
def roundLanes : List UInt64 → UInt64 → List UInt64
  | [a0, a1, a2, a3, a4,
      b0, b1, b2, b3, b4,
      c0, c1, c2, c3, c4,
      d0, d1, d2, d3, d4,
      e0, e1, e2, e3, e4], constant =>
    let parity0 := a0 ^^^ b0 ^^^ c0 ^^^ d0 ^^^ e0
    let parity1 := a1 ^^^ b1 ^^^ c1 ^^^ d1 ^^^ e1
    let parity2 := a2 ^^^ b2 ^^^ c2 ^^^ d2 ^^^ e2
    let parity3 := a3 ^^^ b3 ^^^ c3 ^^^ d3 ^^^ e3
    let parity4 := a4 ^^^ b4 ^^^ c4 ^^^ d4 ^^^ e4
    let change0 := parity4 ^^^ rotateLeft parity1 1
    let change1 := parity0 ^^^ rotateLeft parity2 1
    let change2 := parity1 ^^^ rotateLeft parity3 1
    let change3 := parity2 ^^^ rotateLeft parity4 1
    let change4 := parity3 ^^^ rotateLeft parity0 1
    let a0' := rotateLeft (a0 ^^^ change0) 0
    let a1' := rotateLeft (b1 ^^^ change1) 44
    let a2' := rotateLeft (c2 ^^^ change2) 43
    let a3' := rotateLeft (d3 ^^^ change3) 21
    let a4' := rotateLeft (e4 ^^^ change4) 14
    let b0' := rotateLeft (a3 ^^^ change3) 28
    let b1' := rotateLeft (b4 ^^^ change4) 20
    let b2' := rotateLeft (c0 ^^^ change0) 3
    let b3' := rotateLeft (d1 ^^^ change1) 45
    let b4' := rotateLeft (e2 ^^^ change2) 61
    let c0' := rotateLeft (a1 ^^^ change1) 1
    let c1' := rotateLeft (b2 ^^^ change2) 6
    let c2' := rotateLeft (c3 ^^^ change3) 25
    let c3' := rotateLeft (d4 ^^^ change4) 8
    let c4' := rotateLeft (e0 ^^^ change0) 18
    let d0' := rotateLeft (a4 ^^^ change4) 27
    let d1' := rotateLeft (b0 ^^^ change0) 36
    let d2' := rotateLeft (c1 ^^^ change1) 10
    let d3' := rotateLeft (d2 ^^^ change2) 15
    let d4' := rotateLeft (e3 ^^^ change3) 56
    let e0' := rotateLeft (a2 ^^^ change2) 62
    let e1' := rotateLeft (b3 ^^^ change3) 55
    let e2' := rotateLeft (c4 ^^^ change4) 39
    let e3' := rotateLeft (d0 ^^^ change0) 41
    let e4' := rotateLeft (e1 ^^^ change1) 2
    [ combine a0' a1' a2' ^^^ constant, combine a1' a2' a3', combine a2' a3' a4',
        combine a3' a4' a0', combine a4' a0' a1',
      combine b0' b1' b2', combine b1' b2' b3', combine b2' b3' b4',
        combine b3' b4' b0', combine b4' b0' b1',
      combine c0' c1' c2', combine c1' c2' c3', combine c2' c3' c4',
        combine c3' c4' c0', combine c4' c0' c1',
      combine d0' d1' d2', combine d1' d2' d3', combine d2' d3' d4',
        combine d3' d4' d0', combine d4' d0' d1',
      combine e0' e1' e2', combine e1' e2' e3', combine e2' e3' e4',
        combine e3' e4' e0', combine e4' e0' e1' ]
  | others, _ => others

theorem lanes_round (s : State) (constant : UInt64) :
    lanes (round s constant) = roundLanes (lanes s) constant := by
  have hlanes : ∀ s : State, lanes s =
      [lane s 0, lane s 1, lane s 2, lane s 3, lane s 4,
        lane s 5, lane s 6, lane s 7, lane s 8, lane s 9,
        lane s 10, lane s 11, lane s 12, lane s 13, lane s 14,
        lane s 15, lane s 16, lane s 17, lane s 18, lane s 19,
        lane s 20, lane s 21, lane s 22, lane s 23, lane s 24] :=
    fun _ => rfl
  simp only [hlanes, roundLanes, lane_round, lane_chi, lane_rhoPi, lane_theta, parity,
    Nat.reduceLT, Nat.reduceAdd, Nat.reduceMul, Nat.reduceDiv, Nat.reduceMod, Nat.zero_add,
    Nat.add_zero]
  simp [offsets]

/-- The permutation. -/
def permuteLanes (lanes : List UInt64) : List UInt64 :=
  roundConstants.foldl roundLanes lanes

theorem lanes_permute (s : State) : lanes (permute s) = permuteLanes (lanes s) :=
  (List.foldl_hom lanes fun s constant => (lanes_round s constant).symm).symm

/-! ## Short messages -/

/-- The lanes that the first block is. -/
def blockLanes (block : List UInt8) : List UInt64 :=
  (List.range 25).map fun i => littleEndian ((block.drop (8 * i)).take 8)

theorem lanes_addBlock (block : List UInt8) :
    lanes (addBlock (Vector.replicate 25 0) block) = blockLanes block := by
  refine List.map_congr_left fun i hi => ?_
  have hi := List.mem_range.1 hi
  rw [addBlock, lane_ofFn _ hi]
  simp [lane, hi]

theorem length_pad {message : List UInt8} (h : message.length < rate) :
    (pad message).length = rate := by
  have hmod : message.length % rate = message.length := Nat.mod_eq_of_lt h
  simp only [pad, hmod]
  split
  · rw [List.length_append, List.length_singleton]
    omega
  · rw [List.length_append, List.length_cons, List.length_append, List.length_replicate,
      List.length_singleton]
    omega

/-- A block is absorbed by one permutation. -/
theorem absorb_of_length {block : List UInt8} (s : State) (h : block.length = rate) :
    absorb s block = permute (addBlock s block) := by
  have hne : block.length ≠ 0 := by
    rw [h]
    decide
  have hrest : (block.drop rate).length = 0 := by rw [List.length_drop, h, Nat.sub_self]
  rw [absorb, if_neg hne, List.take_of_length_le (Nat.le_of_eq h), absorb, if_pos hrest]

/-- The digest of a message of one block. -/
def shortDigest (message : List UInt8) : List UInt8 :=
  ((permuteLanes (blockLanes (pad message))).take 4).flatMap laneBytes

/-- **The digest of a short message.** -/
theorem toList_digest {message : List UInt8} (h : message.length < rate) :
    (digest message).toList = shortDigest message := by
  rw [shortDigest, ← lanes_addBlock, ← lanes_permute, ← absorb_of_length _ (length_pad h), digest]
  rfl

/-- Short messages have different digests, if the digests tell. -/
theorem digest_inj_of_nodup {messages : List (List UInt8)} (hlength : ∀ x ∈ messages, x.length < rate)
    (hnodup : (messages.map shortDigest).Nodup) :
    ∀ x ∈ messages, ∀ y ∈ messages, digest x = digest y → x = y := by
  intro x hx y hy hsame
  refine List.inj_on_of_nodup_map hnodup hx hy ?_
  rw [← toList_digest (hlength x hx), ← toList_digest (hlength y hy), hsame]

end Keccak

/-! ## Labels and contracts -/

open Keccak (rate shortDigest toList_digest)

theorem Naming.toList_labelHash {label : String} (h : (Hex.bytesOf label).length < rate) :
    (Naming.labelHash label).toList = shortDigest (Hex.bytesOf label) :=
  toList_digest h

theorem Naming.toList_child (parent : Node) {label : String}
    (h : (Hex.bytesOf label).length < rate) :
    (Naming.child parent label).toList =
      shortDigest (parent.toList ++ shortDigest (Hex.bytesOf label)) := by
  have hlength : (parent.toList ++ (Naming.labelHash label).toList).length < rate := by
    rw [List.length_append, parent.length_toList, (Naming.labelHash label).length_toList]
    decide
  rw [← toList_labelHash h]
  exact toList_digest hlength

theorem Naming.child_ne_of_digest {parent node : Node} {label : String}
    (h : (Hex.bytesOf label).length < rate)
    (hne : shortDigest (parent.toList ++ shortDigest (Hex.bytesOf label)) ≠ node.toList) :
    Naming.child parent label ≠ node := by
  intro hsame
  rw [← toList_child parent h, hsame] at hne
  exact hne rfl

namespace Address

variable {deployer : Address}

theorem toList_ofCreation {nonce : Nat} (h : (encodeCreation deployer nonce).length < rate) :
    (deployer.ofCreation nonce).toList = (shortDigest (encodeCreation deployer nonce)).drop 12 := by
  rw [← toList_digest h]
  rfl

/-- The first contracts of an account have different addresses, if the digests tell. -/
theorem ofCreation_inj_of_nodup {n : Nat}
    (hlength : ∀ i < n, (encodeCreation deployer i).length < rate)
    (hnodup : ((List.range n).map fun i =>
      (shortDigest (encodeCreation deployer i)).drop 12).Nodup) :
    ∀ i j, i < n → j < n → deployer.ofCreation i = deployer.ofCreation j → i = j := by
  intro i j hi hj hsame
  refine List.inj_on_of_nodup_map hnodup (List.mem_range.2 hi) (List.mem_range.2 hj) ?_
  rw [← toList_ofCreation (hlength i hi), ← toList_ofCreation (hlength j hj), hsame]

/-- The first eight contracts of the default deployer have different addresses. -/
theorem ofCreation_inj_defaultDeployer :
    ∀ i j, i < 8 → j < 8 → defaultDeployer.ofCreation i = defaultDeployer.ofCreation j → i = j :=
  ofCreation_inj_of_nodup (by decide +kernel) (by decide +kernel)

end Address

end Rollout
