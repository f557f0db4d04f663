import Rollout.Proofs.Ledger.Remote

/-!
# Proofs/Ledger/Receipts — which reply ends the wait for a receipt

A node may answer the looks for a receipt in any order with a receipt, with nothing yet or with a
failure.  Four failures in a row end the wait, and nothing yet makes the next failure the first one
again.  So looks and their repetitions together read one row of replies: they go on while it is
`Undecided`, and end at its first receipt or at the last of its first four failures in a row, with
no reply read beyond (`receipt_await`).

Without a limit the wait itself never ends while the row is undecided.  A node repeats its last
reply for ever, so a number of looks beyond its replies shows whether it is (`polled_pollReceipt`).
-/

namespace Rollout.Remote

variable {α : Type} {c : Connection} {read : Value → Option α} {m : Message} {n n' : Node}
  {reply : Reply} {replies : Nat → Reply}

/-! ## Replies in a row -/

/-- The reply to the message with the given place, counted from zero. -/
def Node.replyAt (n : Node) (i : Nat) : Reply :=
  n.replies[i]?.getD n.afterwards

/-- The node after so many messages that are all the same. -/
def Node.asked (n : Node) (m : Message) (count : Nat) : Node :=
  { n with
    replies := n.replies.drop count
    received := n.received ++ List.replicate count m }

@[simp] theorem asked_zero (n : Node) (m : Message) : n.asked m 0 = n := by
  simp [Node.asked]

@[simp] theorem asked_asked (n : Node) (m : Message) (count count' : Nat) :
    (n.asked m count).asked m count' = n.asked m (count + count') := by
  simp [Node.asked, List.replicate_append_replicate]

@[simp] theorem replyAt_asked (n : Node) (m : Message) (count : Nat) :
    (n.asked m count).replyAt = fun i => n.replyAt (count + i) := by
  funext i
  simp [Node.asked, Node.replyAt]

/-- Beyond its replies a node repeats itself. -/
theorem replyAt_of_le {i : Nat} (h : n.replies.length ≤ i) : n.replyAt i = n.afterwards := by
  simp [Node.replyAt, List.getElem?_eq_none h]

theorem ask_eq_asked (c : Connection) (read : Value → Option α) (m : Message) (n : Node) :
    ask c read m n = (resultOf c.url m.method read (n.replyAt 0), n.asked m 1) := by
  rw [ask_eq, Node.exchange, Node.next, Node.asked, Node.replyAt]
  cases n.replies <;> rfl

/-! ## Repetitions -/

/-- **What repetitions come to**: the first result, or the last failure if there is no result before
the repetitions are used up. -/
inductive Repeated (answers : Nat → Except (List String) α) (left : Nat) :
    Except (List String) α → Nat → Prop where
  | result {k : Nat} {a : α} (hleft : k ≤ left)
      (hfailed : ∀ i < k, ∃ causes, answers i = .error causes) (hresult : answers k = .ok a) :
      Repeated answers left (.ok a) (k + 1)
  | failed {causes : List String} (hfailed : ∀ i < left, ∃ causes, answers i = .error causes)
      (hlast : answers left = .error causes) : Repeated answers left (.error causes) (left + 1)

theorem Repeated.first {answers : Nat → Except (List String) α} {a : α}
    (hfirst : answers 0 = .ok a) (left : Nat) : Repeated answers left (.ok a) 1 :=
  .result (Nat.zero_le left) (fun i hi => absurd hi i.not_lt_zero) hfirst

/-- One failure more at the front, and one repetition more for it. -/
theorem Repeated.succ {answers : Nat → Except (List String) α} {left count : Nat}
    {result : Except (List String) α} {causes : List String} (hfirst : answers 0 = .error causes)
    (h : Repeated (fun i => answers (1 + i)) left result count) :
    Repeated answers (left + 1) result (1 + count) := by
  have hfailed {k : Nat} (hlater : ∀ i < k, ∃ causes, answers (1 + i) = .error causes) :
      ∀ i < k + 1, ∃ causes, answers i = .error causes := by
    intro i hi
    cases i with
    | zero => exact ⟨causes, hfirst⟩
    | succ i => exact Nat.add_comm 1 i ▸ hlater i (Nat.lt_of_succ_lt_succ hi)
  cases h with
  | @result k a hleft hlater hresult =>
    rw [Nat.add_comm 1 (k + 1)]
    exact .result (Nat.succ_le_succ hleft) (hfailed hlater) (Nat.add_comm 1 k ▸ hresult)
  | failed hlater hlast =>
    rw [Nat.add_comm 1 (left + 1)]
    exact .failed (hfailed hlater) (Nat.add_comm 1 left ▸ hlast)

/-- A read without a limit reads the row of replies up to its result or its last failure. -/
theorem repeated_retry (c : Connection) (read : Value → Option α) (m : Message)
    (delays : List Nat) (instant : Nat) (n : Node) :
    ∃ result elapsed count,
      retry c read m none delays instant n = (some (result, elapsed), n.asked m count) ∧
        Repeated (fun i => resultOf c.url m.method read (n.replyAt i)) delays.length result count := by
  induction delays generalizing instant n with
  | nil =>
    rw [retry, ask_eq_asked]
    cases hfirst : resultOf c.url m.method read (n.replyAt 0) with
    | ok a => exact ⟨_, _, _, rfl, .first hfirst _⟩
    | error causes =>
      exact ⟨_, _, _, rfl, .failed (fun i hi => absurd hi i.not_lt_zero) hfirst⟩
  | cons delay delays ih =>
    rw [retry, ask_eq_asked]
    cases hfirst : resultOf c.url m.method read (n.replyAt 0) with
    | ok a => exact ⟨_, _, _, rfl, .first hfirst _⟩
    | error causes =>
      obtain ⟨result, elapsed, count, hretry, hrepeated⟩ := ih (instant + delay) (n.asked m 1)
      rw [asked_asked] at hretry
      rw [replyAt_asked] at hrepeated
      exact ⟨result, elapsed, 1 + count, hretry, hrepeated.succ hfirst⟩

/-! ## Three kinds of replies -/

/-- **A reply that carries a result**: a response that reports no error, with the given entry as its
result, if there is any. -/
inductive Carries (entry : Option Value) : Reply → Prop where
  | intro {text : String} {response : Value} {error : Option Value}
      (hparse : Json.parse text = some response)
      (hfields : complete? ["result", "error"] response = some [entry, error])
      (herror : error = none ∨ error = some .null) : Carries entry (.body text)

/-- A request has a result exactly if the reply carries one that reads; an absent result is null, and
of a key that is repeated in it the last value counts. -/
theorem resultOf_eq_ok_iff_carries {url method : String} {a : α} :
    resultOf url method read reply = .ok a ↔
      ∃ entry, Carries entry reply ∧ read (entry.getD .null).canonical = some a := by
  rw [resultOf_eq_ok]
  constructor
  · rintro ⟨text, response, result, rfl, hparse, hresponse, hread⟩
    obtain ⟨entry, error, hfields, herror, rfl⟩ := responseOf?_eq_inr.1 hresponse
    exact ⟨entry, .intro hparse hfields herror, hread⟩
  · rintro ⟨entry, ⟨hparse, hfields, herror⟩, hread⟩
    exact ⟨_, _, _, rfl, hparse, responseOf?_eq_inr.2 ⟨entry, _, hfields, herror, rfl⟩, hread⟩

theorem Carries.unique {entry entry' : Option Value} (h : Carries entry reply)
    (h' : Carries entry' reply) : entry = entry' := by
  obtain ⟨hparse, hfields, -⟩ := h
  obtain ⟨hparse', hfields', -⟩ := h'
  cases hparse.symm.trans hparse'
  cases hfields.symm.trans hfields'
  rfl

/-- The fields of a receipt as the node reports it. -/
structure RawReceipt where
  transaction : Digest
  block : Nat
  status : Nat
  contractAddress : Option Address

namespace RawReceipt

/-- **A value that reports a receipt**: the address may be absent or null, the other fields may
not. -/
inductive ReportedBy (raw : RawReceipt) (v : Value) : Prop where
  | intro {transaction block status : Value} {address : Option Value}
      (hfields : complete? ["transactionHash", "blockNumber", "status", "contractAddress"] v =
        some [some transaction, some block, some status, address])
      (htransaction : Value.fixedBytes? .json 32 transaction = some raw.transaction)
      (hblock : quantity? block = some raw.block)
      (hstatus : quantity? status = some raw.status)
      (haddress : Value.default? (Value.optional? (Value.fixedBytes? .json 20)) none address =
        some raw.contractAddress)

/-- The outcome that is read off a reported receipt. -/
def toReceipt (raw : RawReceipt) : Receipt where
  transaction := raw.transaction
  block := raw.block
  success := raw.status = 1
  contractAddress := raw.contractAddress
  revertReason := if raw.status = 1 then none else some "transaction reverted"

/-- **The outcome of a reported receipt**: successful exactly if the status is one, and with a
reason for the revert exactly if it is not. -/
structure Outcome (raw : RawReceipt) (receipt : Receipt) : Prop where
  transaction : receipt.transaction = raw.transaction
  block : receipt.block = raw.block
  contractAddress : receipt.contractAddress = raw.contractAddress
  success : receipt.success = true ↔ raw.status = 1
  revertReason : receipt.revertReason.isSome = true ↔ raw.status ≠ 1

theorem outcome_toReceipt (raw : RawReceipt) : raw.Outcome raw.toReceipt where
  transaction := rfl
  block := rfl
  contractAddress := rfl
  success := by simp [toReceipt]
  revertReason := by simp [toReceipt]

end RawReceipt

/-- A reply with a receipt, as the last values of its keys report it. -/
def Confirms (raw : RawReceipt) (reply : Reply) : Prop :=
  ∃ result, Carries (some result) reply ∧ raw.ReportedBy result.canonical

/-- A reply without an error and without a receipt yet. -/
def Pends (reply : Reply) : Prop :=
  Carries none reply ∨ Carries (some .null) reply

/-- **A failure**: a reply that is neither of the two. -/
structure Fails (reply : Reply) : Prop where
  unconfirmed : ∀ raw, ¬ Confirms raw reply
  notPending : ¬ Pends reply

theorem receiptOf?_eq_some_iff {v : Value} {receipt : Receipt} :
    receiptOf? v = some receipt ↔ ∃ raw : RawReceipt, raw.ReportedBy v ∧ receipt = raw.toReceipt := by
  constructor
  · intro h
    rw [receiptOf?] at h
    split at h
    · next transaction? block? status? address hfields =>
      obtain ⟨transaction, htransaction, h⟩ := Option.bind_eq_some_iff.1 h
      obtain ⟨block, hblock, h⟩ := Option.bind_eq_some_iff.1 h
      obtain ⟨status, hstatus, h⟩ := Option.bind_eq_some_iff.1 h
      obtain ⟨contractAddress, haddress, hreceipt⟩ := Option.bind_eq_some_iff.1 h
      obtain ⟨_, rfl, htransaction⟩ := Option.bind_eq_some_iff.1 htransaction
      obtain ⟨_, rfl, hblock⟩ := Option.bind_eq_some_iff.1 hblock
      obtain ⟨_, rfl, hstatus⟩ := Option.bind_eq_some_iff.1 hstatus
      exact ⟨⟨transaction, block, status, contractAddress⟩,
        .intro hfields htransaction hblock hstatus haddress, (Option.some.inj hreceipt).symm⟩
    · cases h
  · rintro ⟨raw, ⟨hfields, htransaction, hblock, hstatus, haddress⟩, rfl⟩
    rw [receiptOf?, hfields]
    simp [Value.required?, htransaction, hblock, hstatus, haddress, RawReceipt.toReceipt]

theorem not_reportedBy_null (raw : RawReceipt) : ¬ raw.ReportedBy .null := by
  rintro ⟨hfields⟩
  cases hfields

/-- What a look finds in a reply. -/
def found (c : Connection) (reply : Reply) : Except (List String) (Option Receipt) :=
  resultOf c.url "eth_getTransactionReceipt" (Value.optional? receiptOf?) reply

theorem optional?_eq_some_none {v : Value} : Value.optional? read v = some none ↔ v = .null := by
  cases v <;> simp [Value.optional?]

theorem optional?_eq_some_some {v : Value} {a : α} :
    Value.optional? read v = some (some a) ↔ v ≠ .null ∧ read v = some a := by
  cases v <;> simp [Value.optional?]

theorem found_eq_receipt {receipt : Receipt} :
    found c reply = .ok (some receipt) ↔ ∃ raw, Confirms raw reply ∧ receipt = raw.toReceipt := by
  rw [found, resultOf_eq_ok_iff_carries]
  constructor
  · rintro ⟨entry, hcarries, hread⟩
    obtain ⟨hresult, hreceipt⟩ := optional?_eq_some_some.1 hread
    obtain ⟨raw, hreported, rfl⟩ := receiptOf?_eq_some_iff.1 hreceipt
    cases entry with
    | none => exact absurd rfl hresult
    | some result => exact ⟨raw, ⟨result, hcarries, hreported⟩, rfl⟩
  · rintro ⟨raw, ⟨result, hcarries, hreported⟩, rfl⟩
    have hresult : result.canonical ≠ .null := by
      intro hnull
      exact not_reportedBy_null raw (hnull ▸ hreported)
    exact ⟨some result, hcarries,
      optional?_eq_some_some.2 ⟨hresult, receiptOf?_eq_some_iff.2 ⟨raw, hreported, rfl⟩⟩⟩

theorem found_eq_none : found c reply = .ok none ↔ Pends reply := by
  rw [found, resultOf_eq_ok_iff_carries]
  constructor
  · rintro ⟨entry, hcarries, hread⟩
    cases entry with
    | none => exact .inl hcarries
    | some result =>
      obtain rfl : result = .null := Value.canonical_eq_null_iff.1 (optional?_eq_some_none.1 hread)
      exact .inr hcarries
  · rintro (hcarries | hcarries)
    · exact ⟨none, hcarries, rfl⟩
    · exact ⟨some .null, hcarries, rfl⟩

/-- A look fails exactly at the failures. -/
theorem found_eq_error (c : Connection) (reply : Reply) :
    (∃ causes, found c reply = .error causes) ↔ Fails reply := by
  constructor
  · rintro ⟨causes, hfound⟩
    refine ⟨fun raw hconfirms => ?_, fun hpends => ?_⟩
    · cases hfound.symm.trans (found_eq_receipt.2 ⟨raw, hconfirms, rfl⟩)
    · cases hfound.symm.trans (found_eq_none.2 hpends)
  · intro hfails
    match hfound : found c reply with
    | .error causes => exact ⟨causes, rfl⟩
    | .ok none => exact absurd (found_eq_none.1 hfound) hfails.notPending
    | .ok (some receipt) =>
      obtain ⟨raw, hconfirms, -⟩ := found_eq_receipt.1 hfound
      exact absurd hconfirms (hfails.unconfirmed raw)

/-- No reply is pending and has a receipt. -/
theorem Pends.unconfirmed (h : Pends reply) (raw : RawReceipt) : ¬ Confirms raw reply := by
  rintro ⟨result, hcarries, hreported⟩
  rcases h with hnone | hnull
  · cases hcarries.unique hnone
  · cases hcarries.unique hnull
    exact not_reportedBy_null raw hreported

/-- A reply fails if a look finds nothing in it, not even that there is nothing yet. -/
theorem fails_of_found (c : Connection) (h : (found c reply).toOption = none) : Fails reply := by
  refine (found_eq_error c reply).1 ?_
  cases hfound : found c reply with
  | error causes => exact ⟨causes, rfl⟩
  | ok receipt =>
    rw [hfound] at h
    cases h

/-! ## The row of replies -/

/-- Four failures in a row, from the given place on. -/
def FailsFrom (replies : Nat → Reply) (j : Nat) : Prop :=
  ∀ i, j ≤ i → i < j + 4 → Fails (replies i)

/-- **So many replies decide nothing**: no receipt is among them, and no four failures in a row. -/
structure Undecided (replies : Nat → Reply) (count : Nat) : Prop where
  unconfirmed : ∀ i < count, ∀ raw, ¬ Confirms raw (replies i)
  unfailed : ∀ j, j + 4 ≤ count → ¬ FailsFrom replies j

theorem Undecided.mono {count count' : Nat} (h : Undecided replies count') (hle : count ≤ count') :
    Undecided replies count where
  unconfirmed i hi := h.unconfirmed i (Nat.lt_of_lt_of_le hi hle)
  unfailed j hj := h.unfailed j (Nat.le_trans hj hle)

/-- Fewer than four failures decide nothing. -/
theorem undecided_of_fails {count : Nat} (hcount : count < 4) (h : ∀ i < count, Fails (replies i)) :
    Undecided replies count where
  unconfirmed i hi := (h i hi).unconfirmed
  unfailed j hj := by omega

theorem undecided_zero (replies : Nat → Reply) : Undecided replies 0 :=
  undecided_of_fails (by omega) fun i hi => absurd hi i.not_lt_zero

/-- Failures before a pending reply decide nothing, neither alone nor together with later ones. -/
theorem Undecided.after_pends {k count : Nat} (hk : k < 4) (hfails : ∀ i < k, Fails (replies i))
    (hpends : Pends (replies k)) (h : Undecided (fun i => replies (k + 1 + i)) count) :
    Undecided replies (k + 1 + count) where
  unconfirmed i hi := by
    rcases Nat.lt_trichotomy i k with hlt | rfl | hgt
    · exact (hfails i hlt).unconfirmed
    · exact hpends.unconfirmed
    · obtain ⟨i, rfl⟩ := Nat.exists_eq_add_of_le hgt
      exact h.unconfirmed i (by omega)
  unfailed j hj hfour := by
    rcases Nat.lt_or_ge k j with hlt | hge
    · -- all four are later replies
      obtain ⟨j, rfl⟩ := Nat.exists_eq_add_of_le hlt
      exact h.unfailed j (by omega) fun i hi hi' => hfour _ (by omega) (by omega)
    · -- the pending reply is one of the four
      exact (hfour k hge (by omega)).notPending hpends

/-- Pending replies alone never decide. -/
theorem Undecided.of_pends {count : Nat} (h : Undecided replies count)
    (hpends : ∀ i, count ≤ i → Pends (replies i)) (count' : Nat) : Undecided replies count' where
  unconfirmed i _ := by
    rcases Nat.lt_or_ge i count with hlt | hge
    · exact h.unconfirmed i hlt
    · exact (hpends i hge).unconfirmed
  unfailed j _ hfour := by
    rcases Nat.lt_or_ge count (j + 4) with hlt | hge
    · exact (hfour (j + 3) (by omega) (by omega)).notPending (hpends (j + 3) (by omega))
    · exact h.unfailed j hge hfour

/-- **What decides**: the first receipt, or the last of the first four failures in a row.  With the
answer comes how many replies it takes. -/
inductive Concluded (c : Connection) (t : Digest) (replies : Nat → Reply) :
    Nat → Except LedgerError Receipt → Prop where
  | receipt {i : Nat} {raw : RawReceipt} (hundecided : Undecided replies i)
      (hconfirms : Confirms raw (replies i)) : Concluded c t replies (i + 1) (.ok raw.toReceipt)
  | failures {j : Nat} {causes : List String} (hundecided : Undecided replies (j + 3))
      (hfails : FailsFrom replies j) (hlast : found c (replies (j + 3)) = .error causes) :
      Concluded c t replies (j + 4)
        (.error (.transport (s!"Failed to fetch receipt of {t}" :: causes)))

namespace Concluded

variable {t : Digest} {count count' : Nat} {answer answer' : Except LedgerError Receipt}

/-- The replies before the last one do not decide. -/
theorem undecided_before (h : Concluded c t replies count answer) :
    ∃ last, count = last + 1 ∧ Undecided replies last := by
  cases h with
  | receipt hundecided => exact ⟨_, rfl, hundecided⟩
  | failures hundecided => exact ⟨_, rfl, hundecided⟩

/-- The last one does. -/
theorem not_undecided (h : Concluded c t replies count answer) : ¬ Undecided replies count := by
  intro hundecided
  cases h with
  | @receipt i raw _ hconfirms => exact hundecided.unconfirmed i (Nat.lt_succ_self i) raw hconfirms
  | @failures j _ _ hfails _ => exact hundecided.unfailed j (Nat.le_refl _) hfails

theorem count_le (h : Concluded c t replies count answer)
    (h' : Concluded c t replies count' answer') : count ≤ count' := by
  obtain ⟨last, rfl, hundecided⟩ := h.undecided_before
  exact Nat.le_of_not_lt fun hlt =>
    h'.not_undecided (hundecided.mono (Nat.le_of_lt_succ hlt))

/-- A row of replies decides one thing. -/
theorem unique (h : Concluded c t replies count answer)
    (h' : Concluded c t replies count' answer') : count = count' ∧ answer = answer' := by
  obtain rfl : count = count' := Nat.le_antisymm (h.count_le h') (h'.count_le h)
  refine ⟨rfl, ?_⟩
  cases h with
  | @receipt i raw _ hconfirms =>
    have hfound : found c (replies i) = .ok (some raw.toReceipt) :=
      found_eq_receipt.2 ⟨raw, hconfirms, rfl⟩
    cases h' with
    | @receipt _ raw' _ hconfirms' =>
      have hfound' : found c (replies i) = .ok (some raw'.toReceipt) :=
        found_eq_receipt.2 ⟨raw', hconfirms', rfl⟩
      exact congrArg Except.ok (Option.some.inj (Except.ok.inj (hfound.symm.trans hfound')))
    | failures _ _ hlast => cases hfound.symm.trans hlast
  | @failures j causes _ _ hlast =>
    cases h' with
    | @receipt _ raw' _ hconfirms' =>
      cases hlast.symm.trans (found_eq_receipt.2 ⟨raw', hconfirms', rfl⟩)
    | failures _ _ hlast' =>
      cases hlast.symm.trans hlast'
      rfl

theorem after_pends {k : Nat} (hk : k < 4) (hfails : ∀ i < k, Fails (replies i))
    (hpends : Pends (replies k)) (h : Concluded c t (fun i => replies (k + 1 + i)) count answer) :
    Concluded c t replies (k + 1 + count) answer := by
  cases h with
  | receipt hundecided hconfirms =>
    exact .receipt (hundecided.after_pends hk hfails hpends) hconfirms
  | @failures j causes hundecided hlater hlast =>
    have hfour : FailsFrom replies (k + 1 + j) := by
      intro i hi hi'
      obtain ⟨i, rfl⟩ := Nat.exists_eq_add_of_le (Nat.le_trans (Nat.le_add_right (k + 1) j) hi)
      exact hlater i (by omega) (by omega)
    exact .failures (hundecided.after_pends hk hfails hpends) hfour hlast

end Concluded

/-- Every row of replies stays undecided for ever, or has a receipt or four failures in a row that
come first. -/
theorem undecided_or_decided (replies : Nat → Reply) :
    (∀ count, Undecided replies count) ∨
      (∃ i raw, Undecided replies i ∧ Confirms raw (replies i)) ∨
      ∃ j, Undecided replies (j + 3) ∧ FailsFrom replies j := by
  refine Classical.or_iff_not_imp_right.2 fun hnever count => ?_
  obtain ⟨hconfirms, hfails⟩ := not_or.1 hnever
  induction count with
  | zero => exact undecided_zero replies
  | succ count ih =>
    constructor
    · intro i hi raw hraw
      exact hconfirms ⟨i, raw, ih.mono (Nat.le_of_lt_succ hi), hraw⟩
    · intro j hj hfour
      exact hfails ⟨j, ih.mono (Nat.le_of_succ_le_succ hj), hfour⟩

/-! ## Looks -/

/-- **What looks without a limit come to**: an answer as soon as the replies decide, or at least so
many replies that do not, the last of them pending. -/
inductive Polled (c : Connection) (t : Digest) (fuel : Nat) (n : Node) :
    Confirmation Node → Prop where
  | settled {elapsed count : Nat} {answer : Except LedgerError Receipt}
      (hconcluded : Concluded c t n.replyAt count answer) :
      Polled c t fuel n (.settled elapsed answer (n.asked (receiptMessage t) count))
  | unsettled {count : Nat} (hfuel : fuel ≤ count) (hundecided : Undecided n.replyAt count)
      (hlast : ∀ i, i + 1 = count → Pends (n.replyAt i)) :
      Polled c t fuel n (.unsettled (n.asked (receiptMessage t) count))

section Looks

variable (c : Connection) (t : Digest)

/-- The looks before the last one. -/
theorem Polled.after_pends {k fuel : Nat} {confirmation : Confirmation Node} (hk : k < 4)
    (hfails : ∀ i < k, Fails (n.replyAt i)) (hpends : Pends (n.replyAt k))
    (h : Polled c t fuel (n.asked (receiptMessage t) (k + 1)) confirmation) :
    Polled c t (fuel + 1) n confirmation := by
  cases h with
  | settled hconcluded =>
    rw [replyAt_asked] at hconcluded
    rw [asked_asked]
    exact .settled (hconcluded.after_pends hk hfails hpends)
  | @unsettled count hfuel hundecided hlast =>
    rw [replyAt_asked] at hundecided hlast
    rw [asked_asked]
    refine .unsettled (by omega) (hundecided.after_pends hk hfails hpends) fun i hi => ?_
    rcases Nat.eq_zero_or_pos count with rfl | hpos
    · obtain rfl : i = k := by omega
      exact hpends
    · obtain ⟨i, rfl⟩ := Nat.exists_eq_add_of_le (show k + 1 ≤ i by omega)
      exact hlast i (by omega)

/-- Looks go through the replies until these decide. -/
theorem polled_pollReceipt (fuel instant : Nat) (n : Node) :
    Polled c t fuel n (pollReceipt c t none fuel instant n) := by
  induction fuel generalizing instant n with
  | zero =>
    have hunsettled : Polled c t 0 n (.unsettled (n.asked (receiptMessage t) 0)) :=
      .unsettled (Nat.le_refl 0) (undecided_zero _) fun i hi => absurd hi i.succ_ne_zero
    rwa [asked_zero] at hunsettled
  | succ fuel ih =>
    obtain ⟨result, elapsed, count, hretry, hrepeated⟩ :=
      repeated_retry c (Value.optional? receiptOf?) (receiptMessage t) retryDelays instant n
    have hfails {k : Nat} (hfailed : ∀ i < k, ∃ causes, found c (n.replyAt i) = .error causes) :
        ∀ i < k, Fails (n.replyAt i) :=
      fun i hi => (found_eq_error c _).1 (hfailed i hi)
    rw [pollReceipt, hretry]
    cases hrepeated with
    | @failed causes hfailed hlast =>
      have hfour : FailsFrom n.replyAt 0 := by
        intro i _ hi
        rcases Nat.lt_or_ge i 3 with hlt | hge
        · exact hfails hfailed i hlt
        · obtain rfl : i = 3 := by omega
          exact (found_eq_error c _).1 ⟨causes, hlast⟩
      have hundecided : Undecided n.replyAt 3 := undecided_of_fails (by omega) (hfails hfailed)
      exact .settled (.failures (j := 0) hundecided hfour hlast)
    | @result k a hleft hfailed hresult =>
      have hk : k < 4 := Nat.lt_succ_of_le hleft
      cases a with
      | none => exact (ih _ _).after_pends c t hk (hfails hfailed) (found_eq_none.1 hresult)
      | some receipt =>
        obtain ⟨raw, hconfirms, rfl⟩ := found_eq_receipt.1 hresult
        exact .settled (.receipt (undecided_of_fails hk (hfails hfailed)) hconfirms)

/-- As many looks as there are replies show that the replies decide, if they do. -/
theorem settled_of_concluded {count : Nat} {answer : Except LedgerError Receipt}
    (h : Concluded c t n.replyAt count answer) {fuel : Nat} (hfuel : n.replies.length < fuel)
    (instant : Nat) :
    ∃ elapsed, pollReceipt c t none fuel instant n =
      .settled elapsed answer (n.asked (receiptMessage t) count) := by
  have hpolled := polled_pollReceipt c t fuel instant n
  revert hpolled
  generalize pollReceipt c t none fuel instant n = confirmation
  rintro (hconcluded | @⟨count', hle, hundecided, hlast⟩)
  · obtain ⟨rfl, rfl⟩ := h.unique hconcluded
    exact ⟨_, rfl⟩
  · obtain ⟨last, rfl⟩ : ∃ last, count' = last + 1 := ⟨count' - 1, by omega⟩
    have hlater (i : Nat) (hi : last + 1 ≤ i) : Pends (n.replyAt i) := by
      rw [replyAt_of_le (by omega), ← replyAt_of_le (n := n) (i := last) (by omega)]
      exact hlast last rfl
    exact absurd (hundecided.of_pends hlater count) h.not_undecided

end Looks

/-! ## Limits -/

section Limits

variable {t : Digest} {limit : Option Nat} {delays : List Nat} {fuel instant elapsed : Nat}
  {result : Except (List String) α} {answer : Except LedgerError Receipt}

theorem le_of_retry
    (h : retry c read m limit delays instant n = (some (result, elapsed), n')) :
    instant ≤ elapsed := by
  induction delays generalizing instant n with
  | nil =>
    rw [retry] at h
    split at h <;> (cases h; exact Nat.le_refl _)
  | cons delay delays ih =>
    rw [retry] at h
    split at h
    · cases h
      exact Nat.le_refl _
    · dsimp only at h
      split at h
      · exact Nat.le_trans (Nat.le_add_right ..) (ih h)
      · cases h

theorem within_of_le {earlier later : Nat} (hle : earlier ≤ later)
    (h : within limit later = true) : within limit earlier = true := by
  cases limit with
  | none => rfl
  | some limit => exact decide_eq_true (Nat.le_trans hle (of_decide_eq_true h))

/-- A limit that a read keeps does not matter to it. -/
theorem retry_of_within (h : retry c read m none delays instant n = (some (result, elapsed), n'))
    (hlimit : within limit elapsed = true) :
    retry c read m limit delays instant n = (some (result, elapsed), n') := by
  induction delays generalizing instant n with
  | nil =>
    rw [retry] at h ⊢
    exact h
  | cons delay delays ih =>
    rw [retry] at h ⊢
    split at h
    · exact h
    · have hread := (if_pos rfl).symm.trans h
      dsimp only
      rw [if_pos (within_of_le (le_of_retry hread) hlimit)]
      exact ih hread

theorem le_of_pollReceipt
    (h : pollReceipt c t limit fuel instant n = .settled elapsed answer n') : instant ≤ elapsed := by
  induction fuel generalizing instant n with
  | zero => cases h
  | succ fuel ih =>
    rw [pollReceipt] at h
    split at h
    · cases h
    · next hretry =>
      cases h
      exact le_of_retry hretry
    · next hretry =>
      cases h
      exact le_of_retry hretry
    · next hretry =>
      split at h
      · exact Nat.le_trans (le_of_retry hretry) (Nat.le_trans (Nat.le_add_right ..) (ih h))
      · cases h

/-- A limit that a wait keeps does not matter to it, and neither does fuel that it does not need. -/
theorem pollReceipt_of_within {fuel' : Nat}
    (h : pollReceipt c t none fuel instant n = .settled elapsed answer n')
    (hlimit : within limit elapsed = true) (hfuel : fuel ≤ fuel') :
    pollReceipt c t limit fuel' instant n = .settled elapsed answer n' := by
  induction fuel generalizing fuel' instant n with
  | zero => cases h
  | succ fuel ih =>
    obtain ⟨fuel', rfl⟩ : ∃ fuel'', fuel' = fuel'' + 1 := ⟨fuel' - 1, by omega⟩
    rw [pollReceipt] at h ⊢
    split at h
    · cases h
    · next hretry =>
      cases h
      rw [retry_of_within hretry hlimit]
    · next hretry =>
      cases h
      rw [retry_of_within hretry hlimit]
    · next instant' n'' hretry =>
      have hlater := (if_pos rfl).symm.trans h
      have hle : instant' + c.pollIntervalMs ≤ elapsed := le_of_pollReceipt hlater
      rw [retry_of_within hretry (within_of_le (by omega) hlimit)]
      dsimp only
      rw [if_pos (within_of_le hle hlimit)]
      exact ih hlater (Nat.le_of_succ_le_succ hfuel)

end Limits

/-! ## The wait for a receipt -/

/-- **A wait comes to an end** with an answer after so many messages, whatever the number of looks
it could make at most, and under every limit that leaves it the time. -/
def Ends (c : Connection) (t : Digest) (n : Node) (count : Nat)
    (answer : Except LedgerError Receipt) : Prop :=
  ∃ elapsed,
    (∀ fuel, n.replies.length < fuel →
      pollReceipt c t none fuel 0 n = .settled elapsed answer (n.asked (receiptMessage t) count)) ∧
    ∀ limit, elapsed ≤ limit →
      await c t limit n = .settled elapsed answer (n.asked (receiptMessage t) count)

theorem ends_of_concluded {t : Digest} {count : Nat} {answer : Except LedgerError Receipt}
    (h : Concluded c t n.replyAt count answer) : Ends c t n count answer := by
  obtain ⟨elapsed, hpoll⟩ := settled_of_concluded c t h (Nat.lt_succ_self n.replies.length) 0
  refine ⟨elapsed, fun fuel hfuel => pollReceipt_of_within hpoll rfl hfuel, fun limit hlimit => ?_⟩
  have hfuel : n.replies.length + 1 ≤ looksWithin c limit n := by
    rw [looksWithin, Nat.add_assoc]
    exact Nat.add_le_add_left (Nat.le_add_left 1 _) _
  exact pollReceipt_of_within hpoll (decide_eq_true hlimit) hfuel

/-- **A row of replies tells how the wait for a receipt ends.**  It ends at the first receipt, with
the outcome that this reports, or at the last of the first four failures in a row, with an error of
the transport, and up to there the node received one message a reply.  If neither of the two ever
comes, no number of looks ends it. -/
theorem receipt_await (c : Connection) (t : Digest) (n : Node) :
    (∀ i raw, Undecided n.replyAt i → Confirms raw (n.replyAt i) →
      ∃ receipt, Ends c t n (i + 1) (.ok receipt) ∧ raw.Outcome receipt) ∧
    (∀ j, Undecided n.replyAt (j + 3) → FailsFrom n.replyAt j →
      ∃ causes, Ends c t n (j + 4)
        (.error (.transport (s!"Failed to fetch receipt of {t}" :: causes)))) ∧
    ((∀ count, Undecided n.replyAt count) → ∀ fuel, ∃ count ≥ fuel,
      pollReceipt c t none fuel 0 n = .unsettled (n.asked (receiptMessage t) count)) ∧
    ((∀ count, Undecided n.replyAt count) ∨
      (∃ i raw, Undecided n.replyAt i ∧ Confirms raw (n.replyAt i)) ∨
      ∃ j, Undecided n.replyAt (j + 3) ∧ FailsFrom n.replyAt j) := by
  refine ⟨fun i raw hundecided hconfirms => ?_, fun j hundecided hfails => ?_,
    fun hundecided fuel => ?_, undecided_or_decided n.replyAt⟩
  · exact ⟨raw.toReceipt, ends_of_concluded (.receipt hundecided hconfirms),
      raw.outcome_toReceipt⟩
  · obtain ⟨causes, hlast⟩ :=
      (found_eq_error c _).2 (hfails (j + 3) (by omega) (by omega))
    exact ⟨causes, ends_of_concluded (.failures hundecided hfails hlast)⟩
  · have hpolled := polled_pollReceipt c t fuel 0 n
    revert hpolled
    generalize pollReceipt c t none fuel 0 n = confirmation
    rintro (hconcluded | ⟨hfuel, -, -⟩)
    · exact absurd (hundecided _) hconcluded.not_undecided
    · exact ⟨_, hfuel, rfl⟩

/-- A reverted transaction. -/
def reverted : RawReceipt :=
  ⟨.ofNat 32 7, 2, 0, none⟩

/-- The response with its receipt. The block that is named last counts. -/
def revertedText : String :=
  "\x7b\"result\":\x7b\"blockNumber\":\"0x1\",\"transactionHash\":" ++
    "\"0x0000000000000000000000000000000000000000000000000000000000000007\"," ++
    "\"blockNumber\":\"0x2\",\"status\":\"0x0\"\x7d\x7d"

/-- The fields of the receipt, in the order of the text. -/
def revertedFields : List (String × Value) :=
  [("blockNumber", .string "0x1"),
    ("transactionHash",
      .string "0x0000000000000000000000000000000000000000000000000000000000000007"),
    ("blockNumber", .string "0x2"), ("status", .string "0x0")]

theorem confirms_reverted : Confirms reverted (.body revertedText) := by
  have hparse : Json.parse revertedText = some (.object [("result", .object revertedFields)]) := by
    cbv
  have hfields : complete? ["transactionHash", "blockNumber", "status", "contractAddress"]
      (Value.object revertedFields).canonical =
        some [some (.string "0x0000000000000000000000000000000000000000000000000000000000000007"),
          some (.string "0x2"), some (.string "0x0"), none] :=
    Value.record?_canonical .json _ revertedFields
  exact ⟨_, .intro hparse rfl (.inl rfl),
    .intro hfields (by decide +kernel) (by decide +kernel) (by decide +kernel) rfl⟩

/-- A node that fails five times, but in between has nothing yet, and then reports the revert. -/
def flaky : Node where
  replies :=
    [.unreachable [], .body "busy", .body "\x7b\"error\":[1,\"busy\",null]\x7d", .body "\x7b\x7d",
      .body "\x7b\"result\":7\x7d", .unreachable []]
  afterwards := .body revertedText

/-- A node on the same machine, and no artifacts. -/
def nearby : Connection where
  url := "http://127.0.0.1:8545/"
  deployer := .zero 20
  artifacts := ⟨"out", none⟩

theorem receipt_await_flaky :
    ∃ receipt, Ends nearby reverted.transaction flaky 7 (.ok receipt) ∧
      reverted.Outcome receipt := by
  have hempty : Json.parse "\x7b\x7d" = some (.object []) := by cbv
  have hbefore : ∀ i < 3, (found nearby (flaky.replyAt i)).toOption = none := by decide +kernel
  have hafter : ∀ i < 2, (found nearby (flaky.replyAt (3 + 1 + i))).toOption = none := by
    decide +kernel
  have hpending : Pends (flaky.replyAt 3) := .inl (.intro hempty rfl (.inl rfl))
  have hundecided : Undecided flaky.replyAt (3 + 1 + 2) :=
    (undecided_of_fails (by decide) fun i hi => fails_of_found nearby (hafter i hi)).after_pends
      (by decide) (fun i hi => fails_of_found nearby (hbefore i hi)) hpending
  exact (receipt_await nearby reverted.transaction flaky).1 6 reverted hundecided confirms_reverted

end Rollout.Remote
