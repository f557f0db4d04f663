import Rollout.Ledger.Call
import Rollout.Proofs.Data.Bytes
import Rollout.Proofs.Data.Keccak

/-!
# Proofs/Ledger/CallData — call data tells the call

Call data is read back strictly: the first four bytes have to be those of a known signature, the rest
as many words as it has parameters, and every word has to be filled with zeros.  So reading accepts
exactly what writing produces (`decode?_eq_some_iff`), and no two calls share their data.  That the
four signatures can be told apart by the first bytes of their digests is computed
(`nodup_selectors`).
-/

namespace Rollout

/-! ## Words -/

namespace AbiValue

/-- **How a value fills a word**: a number as its digits, bytes as they are or before zeros, and an
address behind zeros. -/
def Fills : AbiValue → List UInt8 → Prop
  | uint value, word => ofBigEndian word = value.toNat
  | address value, word => word.take 12 = List.replicate 12 0 ∧ word.drop 12 = value.toList
  | bytes32 value, word => word = value.toList
  | bytes4 value, word => word.take 4 = value.toList ∧ word.drop 4 = List.replicate 28 0

theorem fills_word (value : AbiValue) : value.Fills value.word := by
  cases value with
  | uint value => exact ofBigEndian_bigEndian (by simpa [Uint256.size] using value.isLt)
  | address value => exact ⟨List.take_left' (by simp), List.drop_left' (by simp)⟩
  | bytes32 value => rfl
  | bytes4 value =>
    exact ⟨List.take_left' value.length_toList, List.drop_left' value.length_toList⟩

theorem encode_eq_flatten (values : List AbiValue) : encode values = (values.map word).flatten :=
  List.flatMap_def ..

end AbiValue

namespace Call

variable {data : List UInt8} {values : List AbiValue} {signature : String}

/-! ## Reading words -/

/-- A word that holds four bytes and zeros. -/
def leadingBytes? (word : List UInt8) : Option InterfaceId :=
  if word.drop 4 = List.replicate 28 0 then FixedBytes.ofList? 4 (word.take 4) else none

theorem leadingBytes?_eq_some_iff {word : List UInt8} {id : InterfaceId} :
    leadingBytes? word = some id ↔ word = (AbiValue.bytes4 id).word := by
  rw [leadingBytes?, AbiValue.word]
  constructor
  · intro h
    obtain ⟨hzeros, hbytes⟩ := Option.ite_none_right_eq_some.1 h
    rw [← FixedBytes.ofList?_eq_some_iff.1 hbytes, ← hzeros, List.take_append_drop]
  · rintro rfl
    rw [List.drop_left' id.length_toList, if_pos rfl, List.take_left' id.length_toList]
    exact FixedBytes.ofList?_eq_some_iff.2 rfl

/-- A word that holds zeros and twenty bytes. -/
def trailingAddress? (word : List UInt8) : Option Address :=
  if word.take 12 = List.replicate 12 0 then FixedBytes.ofList? 20 (word.drop 12) else none

theorem trailingAddress?_eq_some_iff {word : List UInt8} {a : Address} :
    trailingAddress? word = some a ↔ word = (AbiValue.address a).word := by
  rw [trailingAddress?, AbiValue.word]
  constructor
  · intro h
    obtain ⟨hzeros, hbytes⟩ := Option.ite_none_right_eq_some.1 h
    rw [← FixedBytes.ofList?_eq_some_iff.1 hbytes, ← hzeros, List.take_append_drop]
  · rintro rfl
    rw [List.take_left' List.length_replicate, if_pos rfl, List.drop_left' List.length_replicate]
    exact FixedBytes.ofList?_eq_some_iff.2 rfl

/-- Splits data into words; none if the last one is cut short. -/
def words? : Nat → List UInt8 → Option (List (List UInt8))
  | 0, [] => some []
  | 0, _ :: _ => none
  | count + 1, data =>
    if data.length < 32 then none
    else (words? count (data.drop 32)).map (data.take 32 :: ·)

/-- Data splits into words exactly if it is made of them. -/
theorem words?_eq_some_iff {count : Nat} {words : List (List UInt8)} :
    words? count data = some words ↔
      words.length = count ∧ (∀ word ∈ words, word.length = 32) ∧ data = words.flatten := by
  induction count generalizing data words with
  | zero =>
    cases data with
    | nil => simp +contextual [words?, eq_comm]
    | cons b data => simp +contextual [words?]
  | succ count ih =>
    rw [words?]
    constructor
    · intro h
      split at h
      · cases h
      · next hlong =>
        obtain ⟨rest, hrest, rfl⟩ := Option.map_eq_some_iff.1 h
        obtain ⟨hcount, hwords, hdata⟩ := ih.1 hrest
        refine ⟨congrArg (· + 1) hcount, List.forall_mem_cons.2 ⟨?_, hwords⟩, ?_⟩
        · rw [List.length_take]
          omega
        · rw [List.flatten_cons, ← hdata, List.take_append_drop]
    · rintro ⟨hcount, hwords, rfl⟩
      cases words with
      | nil => cases hcount
      | cons word words =>
        obtain ⟨hword, hwords⟩ := List.forall_mem_cons.1 hwords
        have hlong : ¬ (word ++ words.flatten).length < 32 := by
          rw [List.length_append]
          omega
        rw [List.flatten_cons, if_neg hlong, List.take_left' hword, List.drop_left' hword,
          ih.2 ⟨Nat.succ.inj hcount, hwords, rfl⟩]
        rfl

theorem words?_encode (values : List AbiValue) :
    words? values.length (AbiValue.encode values) = some (values.map AbiValue.word) := by
  refine words?_eq_some_iff.2 ⟨List.length_map .., fun word hword => ?_,
    AbiValue.encode_eq_flatten values⟩
  obtain ⟨value, -, rfl⟩ := List.mem_map.1 hword
  exact value.length_word

/-! ## Selectors -/

theorem length_selector (signature : String) : (selector signature).length = 4 := by
  rw [selector, List.length_take, FixedBytes.length_toList]
  rfl

theorem take_callData (signature : String) (values : List AbiValue) :
    (callData signature values).take 4 = selector signature :=
  List.take_left' (length_selector signature)

theorem drop_callData (signature : String) (values : List AbiValue) :
    (callData signature values).drop 4 = AbiValue.encode values :=
  List.drop_left' (length_selector signature)

/-- The signatures of all calls, in the reverse of the order in which they are tried. -/
def signatures : List String :=
  ["addController(address)", "setInterface(bytes32,bytes4,address)",
    "setResolver(bytes32,address)", "setSubnodeOwner(bytes32,bytes32,address)"]

/-- **The first bytes of their digests tell the signatures apart.** -/
theorem nodup_selectors : (signatures.map selector).Nodup := by
  have hshort : ∀ s ∈ signatures, (Hex.bytesOf s).length < Keccak.rate := by decide +kernel
  have hselectors : signatures.map selector =
      signatures.map fun s => (Keccak.shortDigest (Hex.bytesOf s)).take 4 :=
    List.map_congr_left fun s hs => by rw [selector, Keccak.toList_digest (hshort s hs)]
  rw [hselectors]
  decide +kernel

/-! ## Reading calls -/

/-- The call whose data is given. -/
def decode? (data : List UInt8) : Option Call :=
  let head := data.take 4
  let body := data.drop 4
  if head = selector "setSubnodeOwner(bytes32,bytes32,address)" then do
    match ← words? 3 body with
    | [node, label, owner] =>
      pure (setSubnodeOwner (← FixedBytes.ofList? 32 node) (← FixedBytes.ofList? 32 label)
        (← trailingAddress? owner))
    | _ => none
  else if head = selector "setResolver(bytes32,address)" then do
    match ← words? 2 body with
    | [node, resolver] =>
      pure (setResolver (← FixedBytes.ofList? 32 node) (← trailingAddress? resolver))
    | _ => none
  else if head = selector "setInterface(bytes32,bytes4,address)" then do
    match ← words? 3 body with
    | [node, interfaceId, implementer] =>
      pure (setInterface (← FixedBytes.ofList? 32 node) (← leadingBytes? interfaceId)
        (← trailingAddress? implementer))
    | _ => none
  else if head = selector "addController(address)" then do
    match ← words? 1 body with
    | [controller] => pure (addController (← trailingAddress? controller))
    | _ => none
  else none

section Written

variable (node label : Digest) (a : Address) (id : InterfaceId)

theorem readWord_digest : FixedBytes.ofList? 32 (AbiValue.bytes32 node).word = some node :=
  FixedBytes.ofList?_eq_some_iff.2 rfl

theorem readWord_address : trailingAddress? (AbiValue.address a).word = some a :=
  trailingAddress?_eq_some_iff.2 rfl

theorem readWord_id : leadingBytes? (AbiValue.bytes4 id).word = some id :=
  leadingBytes?_eq_some_iff.2 rfl

end Written

/-- Every call is read back from its data. -/
theorem decode?_encode (c : Call) : decode? c.encode = some c := by
  -- the signatures are tried one after the other, and none before that of the call fits
  have hothers := nodup_selectors
  simp only [signatures, List.map_cons, List.map_nil, List.nodup_cons, List.mem_cons,
    List.not_mem_nil, or_false, not_or] at hothers
  rw [encode, decode?, take_callData, drop_callData]
  cases c with
  | setSubnodeOwner node label owner =>
    have hwords : words? 3 _ = some _ :=
      words?_encode [.bytes32 node, .bytes32 label, .address owner]
    simp [signature, parameters, hwords, readWord_digest, readWord_address]
  | setResolver node resolver =>
    have hwords : words? 2 _ = some _ := words?_encode [.bytes32 node, .address resolver]
    simp [signature, parameters, hothers, hwords, readWord_digest, readWord_address]
  | setInterface node interfaceId implementer =>
    have hwords : words? 3 _ = some _ :=
      words?_encode [.bytes32 node, .bytes4 interfaceId, .address implementer]
    simp [signature, parameters, hothers, hwords, readWord_digest, readWord_id, readWord_address]
  | addController controller =>
    have hwords : words? 1 _ = some _ := words?_encode [.address controller]
    simp [signature, parameters, hothers, hwords, readWord_address]

/-- Data from whose words a call is read is the data of the call, if the words are. -/
theorem eq_encode_of_read {count : Nat} {read : List (List UInt8) → Option Call} {c : Call}
    (hhead : data.take 4 = selector signature)
    (h : (words? count (data.drop 4) >>= read) = some c)
    (hread : ∀ words, read words = some c →
      c.signature = signature ∧ words = c.parameters.map AbiValue.word) : data = c.encode := by
  obtain ⟨words, hwords, hcall⟩ := Option.bind_eq_some_iff.1 h
  obtain ⟨rfl, rfl⟩ := hread words hcall
  rw [encode, callData, ← hhead, AbiValue.encode_eq_flatten, ← (words?_eq_some_iff.1 hwords).2.2,
    List.take_append_drop]

/-- Only the data of a call is read as the call. -/
theorem eq_encode_of_decode? {c : Call} (h : decode? data = some c) : data = c.encode := by
  rw [decode?] at h
  split at h
  · next hhead =>
    refine eq_encode_of_read hhead h fun words hread => ?_
    split at hread
    · simp only [Option.bind_eq_bind, Option.bind_eq_some_iff] at hread
      obtain ⟨node, hnode, label, hlabel, owner, howner, hcall⟩ := hread
      cases hcall
      rw [FixedBytes.ofList?_eq_some_iff.1 hnode, FixedBytes.ofList?_eq_some_iff.1 hlabel,
        trailingAddress?_eq_some_iff.1 howner]
      exact ⟨rfl, rfl⟩
    · cases hread
  split at h
  · next hhead =>
    refine eq_encode_of_read hhead h fun words hread => ?_
    split at hread
    · simp only [Option.bind_eq_bind, Option.bind_eq_some_iff] at hread
      obtain ⟨node, hnode, resolver, hresolver, hcall⟩ := hread
      cases hcall
      rw [FixedBytes.ofList?_eq_some_iff.1 hnode, trailingAddress?_eq_some_iff.1 hresolver]
      exact ⟨rfl, rfl⟩
    · cases hread
  split at h
  · next hhead =>
    refine eq_encode_of_read hhead h fun words hread => ?_
    split at hread
    · simp only [Option.bind_eq_bind, Option.bind_eq_some_iff] at hread
      obtain ⟨node, hnode, id, hid, implementer, himplementer, hcall⟩ := hread
      cases hcall
      rw [FixedBytes.ofList?_eq_some_iff.1 hnode, leadingBytes?_eq_some_iff.1 hid,
        trailingAddress?_eq_some_iff.1 himplementer]
      exact ⟨rfl, rfl⟩
    · cases hread
  split at h
  · next hhead =>
    refine eq_encode_of_read hhead h fun words hread => ?_
    split at hread
    · simp only [Option.bind_eq_bind, Option.bind_eq_some_iff] at hread
      obtain ⟨controller, hcontroller, hcall⟩ := hread
      cases hcall
      rw [trailingAddress?_eq_some_iff.1 hcontroller]
      exact ⟨rfl, rfl⟩
    · cases hread
  · cases h

theorem decode?_eq_some_iff {c : Call} : decode? data = some c ↔ data = c.encode :=
  ⟨eq_encode_of_decode?, fun h => h ▸ decode?_encode c⟩

/-- The data of a call is the selector of its signature, and a word for each of its parameters. -/
theorem encode_eq_flatten (c : Call) :
    c.encode = selector c.signature ++ (c.parameters.map AbiValue.word).flatten := by
  rw [encode, callData, AbiValue.encode_eq_flatten]

/-- **Call data tells the call.**  It is the first four bytes of the digest of the call's signature,
followed by a word of thirty-two bytes for each parameter, filled as its kind asks; a reader gets the
call back from it, and from nothing else; so different calls have different data. -/
theorem encode_faithful :
    (∀ c : Call, ∃ words : List (List UInt8),
      c.encode = (Keccak.digest (Hex.bytesOf c.signature)).toList.take 4 ++ words.flatten ∧
        List.Forall₂ (fun value word => word.length = 32 ∧ AbiValue.Fills value word)
          c.parameters words) ∧
      (∀ data c, decode? data = some c ↔ data = Call.encode c) ∧
      Function.Injective Call.encode := by
  refine ⟨fun c => ⟨c.parameters.map AbiValue.word, encode_eq_flatten c, ?_⟩,
    fun data c => decode?_eq_some_iff, fun c c' h => ?_⟩
  · rw [List.forall₂_map_right_iff, List.forall₂_same]
    exact fun value _ => ⟨value.length_word, value.fills_word⟩
  · have hread := decode?_encode c
    rw [h, decode?_encode c'] at hread
    exact (Option.some_inj.1 hread).symm

end Call

end Rollout
