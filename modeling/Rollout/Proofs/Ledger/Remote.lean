import Rollout.Ledger.Remote
import Rollout.Proofs.Data.Value
import Rollout.Proofs.Run.Waiting

/-!
# Proofs/Ledger/Remote — what a node is asked

A node may reply anything.  Still, a submission is one message to it at most, with the account, the
target and the data that the request says, and succeeds if the one reply holds a hash
(`submitted_of_submit`).  Whatever else the ledger asks, it asks by repetitions of one message that
sends no transaction (`Asks`).
-/

namespace Rollout.Remote

open Run (stateAfter)

variable {α : Type} {c : Connection} {read : Value → Option α} {m : Message} {n n' n'' : Node}

/-! ## Exchanges -/

/-- The reply to the next message. -/
def Node.next (n : Node) : Reply :=
  n.replies.head?.getD n.afterwards

theorem exchange_fst (n : Node) (m : Message) : (n.exchange m).1 = n.next := by
  rw [Node.exchange, Node.next]
  cases n.replies <;> rfl

@[simp] theorem received_exchange (n : Node) (m : Message) :
    (n.exchange m).2.received = n.received ++ [m] := by
  rw [Node.exchange]
  cases n.replies <;> rfl

@[simp] theorem replies_exchange (n : Node) (m : Message) :
    (n.exchange m).2.replies = n.replies.tail := by
  rw [Node.exchange]
  cases n.replies <;> rfl

theorem ask_eq (c : Connection) (read : Value → Option α) (m : Message) (n : Node) :
    ask c read m n = (resultOf c.url m.method read n.next, (n.exchange m).2) := by
  rw [← exchange_fst n m]
  rfl

/-! ## Reads -/

/-- The method that sends a transaction. -/
def sending : String := "eth_sendTransaction"

/-- Between the two, the node only received repetitions of a message that sends nothing. -/
structure Asks (m : Message) (n n' : Node) : Prop where
  received : ∃ count, n'.received = n.received ++ List.replicate count m
  harmless : m.method ≠ sending

namespace Asks

theorem refl (hm : m.method ≠ sending) (n : Node) : Asks m n n :=
  ⟨⟨0, (List.append_nil _).symm⟩, hm⟩

theorem trans (h : Asks m n n') (h' : Asks m n' n'') : Asks m n n'' := by
  obtain ⟨count, hcount⟩ := h.received
  obtain ⟨count', hcount'⟩ := h'.received
  refine ⟨⟨count + count', ?_⟩, h.harmless⟩
  rw [hcount', hcount, List.append_assoc, List.replicate_append_replicate]

theorem ask (hm : m.method ≠ sending) (n : Node) : Asks m n (ask c read m n).2 :=
  ⟨⟨1, received_exchange n m⟩, hm⟩

end Asks

section Reads

variable (hm : m.method ≠ sending)
include hm

theorem asks_retry (c : Connection) (read : Value → Option α) (limit : Option Nat)
    (delays : List Nat) (instant : Nat) (n : Node) :
    Asks m n (retry c read m limit delays instant n).2 := by
  induction delays generalizing instant n with
  | nil =>
    have hask : Asks m n (ask c read m n).2 := .ask hm n
    rw [retry]
    split
    · next hasked => rwa [hasked] at hask
    · next hasked => rwa [hasked] at hask
  | cons delay delays ih =>
    have hask : Asks m n (ask c read m n).2 := .ask hm n
    rw [retry]
    split
    · next hasked => rwa [hasked] at hask
    · next causes n' hasked =>
      rw [hasked] at hask
      dsimp only
      split
      · exact hask.trans (ih _ n')
      · exact hask

theorem asks_ask4 (c : Connection) (read : Value → Option α) (n : Node) :
    Asks m n (ask4 c read m n).2.2 := by
  have hretry := asks_retry hm c read none retryDelays 0 n
  rw [ask4]
  split
  · next hretried => rwa [hretried] at hretry
  · next hretried => rwa [hretried] at hretry

end Reads

section Questions

variable (c : Connection) (transaction : Digest) (n : Node)

theorem asks_pollReceipt (limit : Option Nat) (fuel instant : Nat) :
    Asks (receiptMessage transaction) n
      (stateAfter (pollReceipt c transaction limit fuel instant n)) := by
  have hm : (receiptMessage transaction).method ≠ sending := by simp [receiptMessage, sending]
  induction fuel generalizing instant n with
  | zero => exact .refl hm n
  | succ fuel ih =>
    have hretry := asks_retry hm c (Value.optional? receiptOf?) limit retryDelays instant n
    rw [pollReceipt]
    split
    · next hretried => rwa [hretried] at hretry
    · next hretried => rwa [hretried] at hretry
    · next hretried => rwa [hretried] at hretry
    · next instant n' hretried =>
      rw [hretried] at hretry
      split
      · exact hretry.trans (ih n' _)
      · exact hretry

theorem asks_await (limit : Nat) :
    Asks (receiptMessage transaction) n (stateAfter (await c transaction limit n)) :=
  asks_pollReceipt ..

theorem asks_owner (registry : Address) (node : Digest) :
    Asks (ownerMessage registry node) n (owner c registry node n).state := by
  have hm : (ownerMessage registry node).method ≠ sending := by simp [ownerMessage, sending]
  have hasks := asks_ask4 hm c bytes? n
  rw [owner]
  split
  · next hasked => rwa [hasked] at hasks
  · next hasked =>
    rw [hasked] at hasks
    split <;> exact hasks

theorem asks_chainId : Asks ⟨"eth_chainId", []⟩ n (chainId c n).2.2 := by
  have hasks := asks_ask4 (m := ⟨"eth_chainId", []⟩) (by decide) c Value.string? n
  rw [chainId]
  split
  · next hasked => rwa [hasked] at hasks
  · next hasked =>
    rw [hasked] at hasks
    split <;> exact hasks

end Questions

/-! ## Messages of requests -/

/-- **The message that sends a request**: from the account of the ledger, with the data of the call
to its target, or with the linked code of the contract and one word for each of its arguments. -/
inductive Written (c : Connection) : Request → Message → Prop where
  | create {creation : Creation} {artifact : Artifact} {code : List UInt8}
      {words : List (List UInt8)} (hload : c.artifacts.load creation.contract = .ok artifact)
      (hlink : artifact.link creation.libraries = .ok code)
      (hwords : words = creation.args.map AbiValue.word) (hlength : ∀ word ∈ words, word.length = 32) :
      Written c (.create creation) ⟨sending,
        [.object [("from", .string c.deployer.toHex), ("data", hexText (code ++ words.flatten))]]⟩
  | call {target : Address} {call : Call} :
      Written c (.call target call) ⟨sending,
        [.object [("from", .string c.deployer.toHex), ("to", .string target.toHex),
          ("data", hexText call.encode)]]⟩

/-- **A creation without a message**: the artifact of its contract cannot be loaded or linked. -/
inductive Unlinkable (c : Connection) : Request → LedgerError → Prop where
  | unloaded {creation : Creation} {error : LedgerError}
      (hload : c.artifacts.load creation.contract = .error error) :
      Unlinkable c (.create creation) error
  | unlinked {creation : Creation} {artifact : Artifact} {error : LedgerError}
      (hload : c.artifacts.load creation.contract = .ok artifact)
      (hlink : artifact.link creation.libraries = .error error) :
      Unlinkable c (.create creation) error

theorem Written.method {request : Request} (h : Written c request m) : m.method = sending := by
  cases h <;> rfl

theorem creationData_cases (c : Connection) (creation : Creation) :
    (∃ error, creationData c creation = .error error ∧ Unlinkable c (.create creation) error) ∨
      ∃ artifact code, creationData c creation = .ok (code ++ AbiValue.encode creation.args) ∧
        c.artifacts.load creation.contract = .ok artifact ∧
        artifact.link creation.libraries = .ok code := by
  cases hload : c.artifacts.load creation.contract with
  | error error =>
    have hdata : creationData c creation = .error error := by
      rw [creationData, hload]
      rfl
    exact .inl ⟨error, hdata, .unloaded hload⟩
  | ok artifact =>
    have hdata : creationData c creation =
        (artifact.link creation.libraries).map (· ++ AbiValue.encode creation.args) := by
      rw [creationData, hload]
      rfl
    cases hlink : artifact.link creation.libraries with
    | error error =>
      rw [hlink] at hdata
      exact .inl ⟨error, hdata, .unlinked hload hlink⟩
    | ok code =>
      rw [hlink] at hdata
      exact .inr ⟨artifact, code, hdata, rfl, hlink⟩

theorem transactionMessage_cases (c : Connection) (request : Request) :
    (∃ error, transactionMessage c request = .error error ∧ Unlinkable c request error) ∨
      ∃ m, transactionMessage c request = .ok m ∧ Written c request m := by
  cases request with
  | call target call => exact .inr ⟨_, rfl, .call⟩
  | create creation =>
    rw [transactionMessage]
    rcases creationData_cases c creation with ⟨error, hdata, hunlinkable⟩ |
      ⟨artifact, code, hdata, hload, hlink⟩
    · rw [hdata]
      exact .inl ⟨error, rfl, hunlinkable⟩
    · have hlength : ∀ word ∈ creation.args.map AbiValue.word, word.length = 32 := by
        intro word hword
        obtain ⟨arg, -, rfl⟩ := List.mem_map.1 hword
        exact arg.length_word
      rw [hdata]
      exact .inr ⟨_, rfl, .create hload hlink rfl hlength⟩

/-! ## Replies with a hash -/

/-- **A reply that accepts a transaction**: a response that reports no error, and the hash as its
result. -/
inductive Accepts (transaction : Digest) : Reply → Prop where
  | intro {text : String} {response result : Value} {error : Option Value}
      (hparse : Json.parse text = some response)
      (hfields : complete? ["result", "error"] response = some [some result, error])
      (herror : error = none ∨ error = some .null)
      (hhash : Value.fixedBytes? .json 32 result = some transaction) :
      Accepts transaction (.body text)

/-- A field that may be null reads as nothing exactly if it is absent or null. -/
theorem default?_optional? {read : Value → Option α} {entry : Option Value} :
    Value.default? (Value.optional? read) none entry = some none ↔
      entry = none ∨ entry = some .null := by
  cases entry with
  | none => simp [Value.default?]
  | some v => cases v <;> simp [Value.default?, Value.optional?]

theorem responseOf?_of_complete? {response : Value} {entry error : Option Value}
    (h : complete? ["result", "error"] response = some [entry, error]) :
    responseOf? response = (Value.default? (Value.optional? NodeError.ofValue?) none error).map
      fun reported => match reported with
        | some error => .inl error
        | none => .inr (entry.getD .null).canonical := by
  rw [responseOf?, h]
  dsimp only
  cases Value.default? (Value.optional? NodeError.ofValue?) none error with
  | none => rfl
  | some reported => cases reported <;> rfl

/-- A response has a result if it reports no error; an absent result is null, and only the last
values of a repeated key count. -/
theorem responseOf?_eq_inr {response result : Value} :
    responseOf? response = some (.inr result) ↔
      ∃ entry error, complete? ["result", "error"] response = some [entry, error] ∧
        (error = none ∨ error = some .null) ∧ (entry.getD .null).canonical = result := by
  constructor
  · intro h
    have hfields : ∃ entry error, complete? ["result", "error"] response = some [entry, error] := by
      rw [responseOf?] at h
      split at h
      · next entry error hfields => exact ⟨entry, error, hfields⟩
      · cases h
    obtain ⟨entry, error, hfields⟩ := hfields
    rw [responseOf?_of_complete? hfields, Option.map_eq_some_iff] at h
    obtain ⟨reported, hreported, hresult⟩ := h
    cases reported with
    | some _ => cases hresult
    | none => exact ⟨entry, error, hfields, default?_optional?.1 hreported, Sum.inr.inj hresult⟩
  · rintro ⟨entry, error, hfields, herror, rfl⟩
    rw [responseOf?_of_complete? hfields, default?_optional?.2 herror]
    rfl

/-- A request has a result if the reply is a response that reports no error, and its result reads. -/
theorem resultOf_eq_ok {url method : String} {reply : Reply} {a : α} :
    resultOf url method read reply = .ok a ↔ ∃ text response result, reply = .body text ∧
      Json.parse text = some response ∧ responseOf? response = some (.inr result) ∧
      read result = some a := by
  constructor
  · intro h
    cases reply with
    | unreachable causes => cases h
    | body text =>
      rw [resultOf] at h
      split at h
      · cases h
      · cases h
      · next result hresponse =>
        obtain ⟨response, hparse, hread⟩ := Option.bind_eq_some_iff.1 hresponse
        split at h
        · next hresult =>
          cases h
          exact ⟨text, response, result, rfl, hparse, hread, hresult⟩
        · cases h
  · rintro ⟨text, response, result, rfl, hparse, hresponse, hresult⟩
    simp [resultOf, hparse, hresponse, hresult]

theorem resultOf_hash (url method : String) {reply : Reply} {transaction : Digest} :
    resultOf url method (Value.fixedBytes? .json 32) reply = .ok transaction ↔
      Accepts transaction reply := by
  rw [resultOf_eq_ok]
  constructor
  · rintro ⟨text, response, result, rfl, hparse, hresponse, hhash⟩
    obtain ⟨entry, error, hfields, herror, rfl⟩ := responseOf?_eq_inr.1 hresponse
    cases entry with
    | none => cases hhash
    | some result =>
      exact .intro hparse hfields herror ((Value.fixedBytes?_canonical ..).symm.trans hhash)
  · rintro ⟨hparse, hfields, herror, hhash⟩
    exact ⟨_, _, _, rfl, hparse, responseOf?_eq_inr.2 ⟨_, _, hfields, herror, rfl⟩,
      (Value.fixedBytes?_canonical ..).trans hhash⟩

/-! ## Submissions -/

section Submissions

variable (c : Connection) {request : Request} (n : Node)

theorem submit_of_error {error : LedgerError} (h : transactionMessage c request = .error error) :
    submit c request n = (.error error, n) := by
  rw [submit, h]

theorem submit_snd_of_ok (h : transactionMessage c request = .ok m) :
    (submit c request n).2 = (n.exchange m).2 := by
  rw [submit, h]
  dsimp only
  rw [ask_eq]
  cases resultOf c.url m.method (Value.fixedBytes? .json 32) n.next <;> rfl

/-- A request that has a message succeeds exactly if the reply to the message accepts it. -/
theorem submit_fst_of_ok (h : transactionMessage c request = .ok m) (transaction : Digest) :
    (submit c request n).1 = .ok transaction ↔ Accepts transaction n.next := by
  rw [submit, h, ← resultOf_hash c.url m.method]
  dsimp only
  rw [ask_eq]
  cases resultOf c.url m.method (Value.fixedBytes? .json 32) n.next <;> simp

end Submissions

/-- **What a submission is**: no message at all if there is none for the request, or one message,
whose one reply decides whether it succeeds. -/
inductive Submitted (c : Connection) (request : Request) (n : Node) :
    Except LedgerError Digest → Node → Prop where
  | unlinkable {error : LedgerError} (hunlinkable : Unlinkable c request error) :
      Submitted c request n (.error error) n
  | sent {m : Message} {answer : Except LedgerError Digest} {n' : Node}
      (hwritten : Written c request m) (hreceived : n'.received = n.received ++ [m])
      (hreplies : n'.replies = n.replies.tail)
      (hanswer : ∀ transaction, answer = .ok transaction ↔ Accepts transaction n.next) :
      Submitted c request n answer n'

theorem submitted_of_submit (c : Connection) (request : Request) (n : Node) :
    Submitted c request n (submit c request n).1 (submit c request n).2 := by
  rcases transactionMessage_cases c request with ⟨error, hmessage, hunlinkable⟩ |
    ⟨m, hmessage, hwritten⟩
  · rw [submit_of_error c n hmessage]
    exact .unlinkable hunlinkable
  · have hnode := submit_snd_of_ok c n hmessage
    refine .sent hwritten ?_ ?_ (submit_fst_of_ok c n hmessage)
    · rw [hnode, received_exchange]
    · rw [hnode, replies_exchange]

/-! ## Transactions -/

/-- The transactions that a node received. -/
def transactions (n : Node) : List Message :=
  n.received.filter (·.method = sending)

/-- The message that sends a request, if there is one. -/
def message? (c : Connection) (request : Request) : Option Message :=
  (transactionMessage c request).toOption

theorem written_of_message? {request : Request} (h : message? c request = some m) :
    Written c request m := by
  rcases transactionMessage_cases c request with ⟨error, hmessage, -⟩ | ⟨m', hmessage, hwritten⟩
  · rw [message?, hmessage] at h
    cases h
  · rw [message?, hmessage] at h
    cases h
    exact hwritten

/-- Reads send no transactions. -/
theorem Asks.transactions (h : Asks m n n') : transactions n' = transactions n := by
  obtain ⟨count, hcount⟩ := h.received
  have hnone : (List.replicate count m).filter (·.method = sending) = [] := by
    rw [List.filter_eq_nil_iff]
    intro m' hm'
    rw [List.eq_of_mem_replicate hm']
    simpa using h.harmless
  rw [Remote.transactions, hcount, List.filter_append, hnone, List.append_nil]
  rfl

/-- A submission sends the message of its request, if there is one. -/
theorem transactions_submit (c : Connection) (request : Request) (n : Node) :
    transactions (submit c request n).2 = transactions n ++ (message? c request).toList := by
  rcases transactionMessage_cases c request with ⟨error, hmessage, -⟩ | ⟨m, hmessage, hwritten⟩
  · rw [submit_of_error c n hmessage, message?, hmessage]
    exact (List.append_nil _).symm
  · have hsending : [m].filter (·.method = sending) = [m] := by simp [hwritten.method]
    rw [submit_snd_of_ok c n hmessage, transactions, received_exchange, List.filter_append, hsending,
      message?, hmessage]
    rfl

end Rollout.Remote
