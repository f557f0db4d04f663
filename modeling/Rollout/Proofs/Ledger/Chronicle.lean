import Mathlib.Data.List.Nodup
import Rollout.Proofs.Data.Encoding
import Rollout.Proofs.Data.Keccak
import Rollout.Proofs.Ledger.Frame

/-!
# Proofs/Ledger/Chronicle — what the ledger was told, it still knows

The chronicle of a history has the submissions that were accepted, in order, each with the handle
that was returned for it and the receipt that the ledger had then (`World.chronicle`).  The counters
of the ledger are lengths of its chronicle, and every receipt and every contract of it is where it
was put, under the hash of its number or the address of its nonce (`KeepsReceipts`,
`KeepsContracts`).

An accepted submission adds one receipt, and one contract if it makes one, under numbers that were
not used before.  The keys are new as well: the messages that hashes and addresses are made of
differ, so two of them are the same only if the hash collides (`CollisionFree`).
-/

namespace Rollout

theorem Assoc.length_put {K V : Type} [DecidableEq K] {key : K} (value : V) :
    ∀ {entries : List (K × V)}, Assoc.lookup key entries = none →
      (Assoc.put key value entries).length = entries.length + 1
  | [], _ => rfl
  | (k, v) :: rest, h => by
      rw [Assoc.lookup] at h
      split at h
      · cases h
      · next hother =>
        rw [Assoc.put, if_neg hother, List.length_cons, Assoc.length_put value h, List.length_cons]

/-- A new key adds an entry. -/
theorem Assoc.size_insert {K V : Type} [DecidableEq K] {m : Assoc K V} {key : K} (value : V)
    (h : m.get? key = none) : (m.insert key value).size = m.size + 1 :=
  Assoc.length_put value h

namespace Simulated

variable {deployer : Address} {request : Request} {receipt : Receipt} {lag : Nat} {s s' : State}
  {w w' : World} {e : Event}

/-! ## Chronicles -/

/-- A submission that was accepted, with the handle that was returned for it, and the receipt that
the ledger had for it then. -/
structure Accepted where
  request : Request
  transaction : Digest
  receipt? : Option Receipt

/-- A contract that was made, with the address that its receipt tells. -/
structure Making where
  creation : Creation
  address? : Option Address

/-- The contract that a request made, if its receipt tells of success. -/
def making? (receipt : Receipt) (request : Request) : Option Making :=
  (made? receipt request).map (⟨·, receipt.contractAddress⟩)

def Accepted.making? (x : Accepted) : Option Making :=
  x.receipt?.bind (Simulated.making? · x.request)

/-- The successful creations of a chronicle. -/
def makings (log : List Accepted) : List Making :=
  log.filterMap Accepted.making?

namespace World

/-- What an event adds to the chronicle. -/
def added? (deployer : Address) (w : World) : Event → Option Accepted
  | .submit request =>
    match submit deployer request w with
    | (.ok transaction, w') => some ⟨request, transaction, w'.state.receipts.get? transaction⟩
    | (.error _, _) => none
  | .await .. | .read .. | .set _ => none

/-- The accepted submissions of a history, in order. -/
def chronicle (deployer : Address) : World → List Event → List Accepted
  | _, [] => []
  | w, e :: later => (w.added? deployer e).toList ++ chronicle deployer (w.step deployer e) later

/-- A chronicle is never changed, only continued. -/
theorem chronicle_append (deployer : Address) (w : World) (earlier later : List Event) :
    w.chronicle deployer (earlier ++ later) =
      w.chronicle deployer earlier ++ (w.play deployer earlier).chronicle deployer later := by
  induction earlier generalizing w with
  | nil => rfl
  | cons e earlier ih =>
    rw [List.cons_append, chronicle, chronicle, ih, List.append_assoc]
    rfl

theorem chronicle_concat (deployer : Address) (w : World) (earlier : List Event) (e : Event) :
    w.chronicle deployer (earlier ++ [e]) =
      w.chronicle deployer earlier ++ ((w.play deployer earlier).added? deployer e).toList := by
  rw [chronicle_append, chronicle, chronicle, List.append_nil]

end World

/-- What is added is what the ledger took. -/
theorem Turn.added? (h : Turn deployer w w' e) :
    (w.added? deployer e = none ∧ w'.state.settled = w.state.settled) ∨
      ∃ request receipt, w.added? deployer e = some ⟨request, receipt.transaction, some receipt⟩ ∧
        Recorded deployer w.faults.lag request w.state w'.state receipt := by
  cases h with
  | still hrefused hsettled =>
    refine .inl ⟨?_, hsettled⟩
    cases e with
    | submit request =>
      obtain ⟨error, hsubmit⟩ := hrefused request rfl
      rw [World.added?, hsubmit]
    | _ => rfl
  | @recorded request receipt hsubmit hrecorded =>
    obtain ⟨-, -, hreceipts⟩ := hrecorded.account
    refine .inr ⟨request, receipt, ?_, hrecorded⟩
    rw [World.added?, hsubmit]
    dsimp only
    rw [hreceipts, Assoc.get?_insert, if_pos rfl]

/-! ## Distinct keys -/

/-- **No collisions**: among the messages that so many submissions and contracts take, different
ones have different hashes, or different addresses. -/
structure CollisionFree (deployer : Address) (submissions creations : Nat) : Prop where
  counters : ∀ m n, m < submissions → n < submissions →
    bigEndian 8 (m + 1) ≠ bigEndian 8 (n + 1) → transactionHash (m + 1) ≠ transactionHash (n + 1)
  creations : ∀ i j, i < creations → j < creations →
    Address.encodeCreation deployer i ≠ Address.encodeCreation deployer j →
    deployer.ofCreation i ≠ deployer.ofCreation j

namespace CollisionFree

variable {submissions submissions' creations creations' : Nat}

theorem mono (h : CollisionFree deployer submissions' creations')
    (hsubmissions : submissions ≤ submissions') (hcreations : creations ≤ creations') :
    CollisionFree deployer submissions creations where
  counters m n hm hn := h.counters m n (by omega) (by omega)
  creations i j hi hj := h.creations i j (by omega) (by omega)

/-- The hashes differ of all numbers that fit the counter. -/
theorem transactionHash_ne (h : CollisionFree deployer submissions creations)
    (hfits : submissions < 2 ^ 64) {m n : Nat} (hm : m < submissions) (hn : n < submissions)
    (hne : m ≠ n) : transactionHash (m + 1) ≠ transactionHash (n + 1) := by
  refine h.counters m n hm hn fun hsame => hne ?_
  have hnumber : m + 1 = n + 1 := bigEndian_inj (by omega) (by omega) hsame
  omega

theorem ofCreation_ne (h : CollisionFree deployer submissions creations) {i j : Nat}
    (hi : i < creations) (hj : j < creations) (hne : i ≠ j) :
    deployer.ofCreation i ≠ deployer.ofCreation j :=
  h.creations i j hi hj fun hsame => hne (Address.encodeCreation_inj hsame)

end CollisionFree

/-- There are no collisions among the first messages, if their digests tell. -/
theorem collisionFree_of_nodup {submissions creations : Nat}
    (hcounters : ((List.range submissions).map fun n =>
      Keccak.shortDigest (bigEndian 8 (n + 1))).Nodup)
    (hlength : ∀ i < creations, (Address.encodeCreation deployer i).length < Keccak.rate)
    (hcreations : ((List.range creations).map fun i =>
      (Keccak.shortDigest (Address.encodeCreation deployer i)).drop 12).Nodup) :
    CollisionFree deployer submissions creations where
  counters m n hm hn hne hsame := by
    have hshort (n : Nat) : (transactionHash (n + 1)).toList =
        Keccak.shortDigest (bigEndian 8 (n + 1)) :=
      Keccak.toList_digest (by rw [length_bigEndian]; decide)
    have hdigest : Keccak.shortDigest (bigEndian 8 (m + 1)) =
        Keccak.shortDigest (bigEndian 8 (n + 1)) := by
      rw [← hshort, ← hshort, hsame]
    have hnumber : m = n :=
      List.inj_on_of_nodup_map hcounters (List.mem_range.2 hm) (List.mem_range.2 hn) hdigest
    exact hne (by rw [hnumber])
  creations i j hi hj hne hsame := by
    have hnonce := Address.ofCreation_inj_of_nodup hlength hcreations i j hi hj hsame
    exact hne (by rw [hnonce])

/-! ## Receipts -/

/-- Every accepted submission has a block and a number of its own, and its receipt is kept under the
hash of that number. -/
structure KeepsReceipts (log : List Accepted) (s : State) : Prop where
  submissions : s.submissions = log.length
  block : s.block = log.length
  receipts : ∀ k x, log[k]? = some x → ∃ receipt, x.receipt? = some receipt ∧
    receipt.transaction = x.transaction ∧ x.transaction = transactionHash (k + 1) ∧
    receipt.block = k + 1 ∧ s.receipts.get? x.transaction = some receipt

/-- An entry of a list with one more element is an entry of the list, or that element. -/
theorem getElem?_concat_cases {α : Type} {l : List α} {a x : α} {k : Nat}
    (h : (l ++ [a])[k]? = some x) : l[k]? = some x ∨ (k = l.length ∧ x = a) := by
  rw [List.getElem?_append] at h
  split at h
  · exact .inl h
  · rw [List.getElem?_singleton] at h
    split at h
    · cases h
      exact .inr ⟨by omega, rfl⟩
    · cases h

/-- Elements that are told apart by their places are different. -/
theorem nodup_map_of_getElem? {α β : Type} {l : List α} {f : α → β} {g : Nat → β}
    (h : ∀ k x, l[k]? = some x → f x = g k)
    (hdistinct : ∀ i j, i < l.length → j < l.length → i ≠ j → g i ≠ g j) : (l.map f).Nodup := by
  rw [List.Nodup, List.pairwise_map, List.pairwise_iff_getElem]
  intro i j hi hj hij
  rw [h i _ (List.getElem?_eq_getElem hi), h j _ (List.getElem?_eq_getElem hj)]
  exact hdistinct i j hi hj (Nat.ne_of_lt hij)

/-- A receipt under a new number is kept beside all others. -/
theorem Recorded.keepsReceipts {log : List Accepted}
    (h : Recorded deployer lag request s s' receipt) (hkeeps : KeepsReceipts log s)
    (hnew : ∀ k < log.length, transactionHash (k + 1) ≠ transactionHash (log.length + 1)) :
    KeepsReceipts (log ++ [⟨request, receipt.transaction, some receipt⟩]) s' := by
  obtain ⟨hsubmissions, hblock, hreceipts⟩ := h.account
  have htransaction := h.transaction
  have hnumber := h.block
  rw [hkeeps.submissions] at hsubmissions htransaction
  rw [hkeeps.block] at hblock hnumber
  constructor
  case submissions => rw [hsubmissions, List.length_append, List.length_singleton]
  case block => rw [hblock, List.length_append, List.length_singleton]
  case receipts =>
    intro k x hx
    rw [hreceipts, Assoc.get?_insert]
    rcases getElem?_concat_cases hx with hold | ⟨rfl, rfl⟩
    · obtain ⟨kept, hkept, hsame, hhash, hk, hget⟩ := hkeeps.receipts k x hold
      obtain ⟨hlt, -⟩ := List.getElem?_eq_some_iff.1 hold
      have hother : receipt.transaction ≠ x.transaction := by
        rw [htransaction, hhash]
        exact (hnew k hlt).symm
      rw [if_neg hother]
      exact ⟨kept, hkept, hsame, hhash, hk, hget⟩
    · exact ⟨receipt, rfl, rfl, htransaction, hnumber, if_pos rfl⟩

/-! ## Contracts -/

/-- Every contract that was made is kept at the address of its nonce. -/
structure KeepsContracts (deployer : Address) (made : List Making) (s : State) : Prop where
  nonce : s.nonce = made.length
  size : s.contracts.size = made.length
  contracts : ∀ j m, made[j]? = some m → m.address? = some (deployer.ofCreation j) ∧
    s.contracts.get? (deployer.ofCreation j) = some ⟨m.creation.contract, deployer, m.creation.args⟩

theorem makings_concat (log : List Accepted) (request : Request) (transaction : Digest)
    (receipt : Receipt) :
    makings (log ++ [⟨request, transaction, some receipt⟩]) =
      makings log ++ (making? receipt request).toList := by
  have hlast : makings [⟨request, transaction, some receipt⟩] =
      (making? receipt request).toList := by
    have hentry : Accepted.making? ⟨request, transaction, some receipt⟩ =
      making? receipt request := rfl
    cases hmaking : making? receipt request with
    | none => exact List.filterMap_cons_none (hentry.trans hmaking)
    | some m => exact List.filterMap_cons_some (hentry.trans hmaking)
  rw [← hlast]
  exact List.filterMap_append

/-- A contract at a new address is kept beside all others. -/
theorem Recorded.keepsContracts {made : List Making}
    (h : Recorded deployer lag request s s' receipt) (hkeyed : Keyed deployer s)
    (hkeeps : KeepsContracts deployer made s)
    (hnew : made? receipt request ≠ none →
      ∀ j < made.length, deployer.ofCreation j ≠ deployer.ofCreation made.length) :
    KeepsContracts deployer (made ++ (making? receipt request).toList) s' := by
  have hcontracts := h.contracts
  rw [making?]
  cases hmade : made? receipt request with
  | none =>
    rw [hmade] at hcontracts
    obtain ⟨hnonce, hsame⟩ := hcontracts
    rw [Option.map_none, Option.toList_none, List.append_nil]
    refine ⟨hnonce.trans hkeeps.nonce, ?_, ?_⟩
    · rw [hsame, hkeeps.size]
    · rw [hsame]
      exact hkeeps.contracts
  | some c =>
    rw [hmade] at hcontracts hnew
    obtain ⟨hnonce, hinsert⟩ := hcontracts
    rw [hkeeps.nonce] at hnonce hinsert
    have hdistinct := hnew (Option.some_ne_none c)
    have hfree : s.contracts.get? (deployer.ofCreation made.length) = none :=
      hkeyed.contract_eq_none (hkeeps.nonce ▸ hdistinct)
    constructor
    case nonce => exact hnonce.trans (by simp)
    case size =>
      rw [hinsert, Assoc.size_insert _ hfree, hkeeps.size]
      simp
    case contracts =>
      intro j m hm
      rw [hinsert, Assoc.get?_insert]
      rcases getElem?_concat_cases hm with hold | ⟨rfl, rfl⟩
      · obtain ⟨haddress, hget⟩ := hkeeps.contracts j m hold
        obtain ⟨hlt, -⟩ := List.getElem?_eq_some_iff.1 hold
        rw [if_neg (hdistinct j hlt).symm]
        exact ⟨haddress, hget⟩
      · obtain ⟨hrequest, hsuccess⟩ := made?_eq_some hmade
        have haddress := h.address c hrequest hsuccess
        rw [hkeeps.nonce] at haddress
        exact ⟨haddress, if_pos rfl⟩

/-! ## The run of a history -/

/-- What a state keeps, it keeps whatever reads show. -/
theorem KeepsReceipts.of_settled {log : List Accepted} (h : KeepsReceipts log s)
    (hsettled : s'.settled = s.settled) : KeepsReceipts log s' := by
  have hkept : KeepsReceipts log s'.settled := hsettled ▸ ⟨h.submissions, h.block, h.receipts⟩
  exact ⟨hkept.submissions, hkept.block, hkept.receipts⟩

theorem KeepsContracts.of_settled {made : List Making} (h : KeepsContracts deployer made s)
    (hsettled : s'.settled = s.settled) : KeepsContracts deployer made s' := by
  have hkept : KeepsContracts deployer made s'.settled := hsettled ▸ ⟨h.nonce, h.size, h.contracts⟩
  exact ⟨hkept.nonce, hkept.size, hkept.contracts⟩

/-- **What an empty ledger was told, it keeps**, if no keys collide. -/
theorem keeps_play {history : List Event}
    (hfits : (World.chronicle deployer {} history).length < 2 ^ 64)
    (hfree : CollisionFree deployer (World.chronicle deployer {} history).length
      (makings (World.chronicle deployer {} history)).length) :
    KeepsReceipts (World.chronicle deployer {} history) (World.play deployer {} history).state ∧
      KeepsContracts deployer (makings (World.chronicle deployer {} history))
        (World.play deployer {} history).state := by
  induction history using List.reverseRecOn with
  | nil =>
    exact ⟨⟨rfl, rfl, fun _ _ h => by cases h⟩, ⟨rfl, rfl, fun _ _ h => by cases h⟩⟩
  | append_singleton earlier e ih =>
    have hkeyed := keyed_play deployer earlier
    rw [World.chronicle_concat] at hfits hfree ⊢
    rw [World.play_append, World.play_singleton]
    rcases (turn_of_step deployer (World.play deployer {} earlier) e).added? with
      ⟨hnone, hsettled⟩ | ⟨request, receipt, hsome, hrecorded⟩
    · rw [hnone, Option.toList_none, List.append_nil] at hfits hfree ⊢
      obtain ⟨hreceipts, hcontracts⟩ := ih hfits hfree
      exact ⟨hreceipts.of_settled hsettled, hcontracts.of_settled hsettled⟩
    · rw [hsome, Option.toList_some] at hfits hfree ⊢
      rw [makings_concat] at hfree ⊢
      simp only [List.length_append, List.length_singleton] at hfits hfree
      obtain ⟨hreceipts, hcontracts⟩ :=
        ih (by omega) (hfree.mono (Nat.le_add_right ..) (Nat.le_add_right ..))
      refine ⟨hrecorded.keepsReceipts hreceipts fun k hk => ?_,
        hrecorded.keepsContracts hkeyed hcontracts fun hmade j hj => ?_⟩
      · exact hfree.transactionHash_ne hfits (by omega) (by omega) (by omega)
      · -- the last nonce counts because a contract was made
        have hone : (making? receipt request).toList.length = 1 := by
          rw [making?]
          cases hc : made? receipt request with
          | none => exact absurd hc hmade
          | some c => rfl
        rw [hone] at hfree
        exact hfree.ofCreation_ne (by omega) (by omega) (by omega)

/-- **Nothing that was told to the ledger is lost or overwritten.**  `log` is the chronicle of a
history, and `w` the world after it. -/
structure Lasting (deployer : Address) (history : List Event) (log : List Accepted) (w : World) :
    Prop where
  /-- The chronicle only grows. -/
  continued : ∀ n, World.chronicle deployer {} (history.take n) <+: log
  /-- The submissions have blocks in order, and the receipt that was produced at the submission is
  what every wait is answered with. -/
  receipts : ∀ k x, log[k]? = some x → ∃ receipt, x.receipt? = some receipt ∧
    receipt.transaction = x.transaction ∧ receipt.block = k + 1 ∧
    ∀ limit, await x.transaction limit w =
      if w.faults.stalled then .unsettled w else .settled 0 (.ok receipt) w
  transactions : (log.map (·.transaction)).Nodup
  /-- The successful creations have addresses in order, and their contracts are there as they were
  made. -/
  contracts : ∀ j m, (makings log)[j]? = some m → m.address? = some (deployer.ofCreation j) ∧
    w.state.contracts.get? (deployer.ofCreation j) =
      some ⟨m.creation.contract, deployer, m.creation.args⟩
  addresses : ((makings log).map (·.address?)).Nodup
  count : w.state.contracts.size = (makings log).length

/-- The counter of submissions has sixty-four bits, so no ledger takes more than it can count. -/
theorem lasting_play {history : List Event}
    (hfits : (World.chronicle deployer {} history).length < 2 ^ 64)
    (hfree : CollisionFree deployer (World.chronicle deployer {} history).length
      (makings (World.chronicle deployer {} history)).length) :
    Lasting deployer history (World.chronicle deployer {} history)
      (World.play deployer {} history) := by
  obtain ⟨hreceipts, hcontracts⟩ := keeps_play hfits hfree
  constructor
  case continued =>
    intro n
    have hsplit := World.chronicle_append deployer {} (history.take n) (history.drop n)
    rw [List.take_append_drop] at hsplit
    exact ⟨_, hsplit.symm⟩
  case receipts =>
    intro k x hx
    obtain ⟨receipt, hreceipt, htransaction, -, hblock, hget⟩ := hreceipts.receipts k x hx
    exact ⟨receipt, hreceipt, htransaction, hblock, fun limit => await_of_receipt limit hget⟩
  case transactions =>
    refine nodup_map_of_getElem? (fun k x hx => ?_)
      fun i j hi hj hne => hfree.transactionHash_ne hfits hi hj hne
    obtain ⟨receipt, -, -, hhash, -⟩ := hreceipts.receipts k x hx
    exact hhash
  case contracts => exact hcontracts.contracts
  case addresses =>
    refine nodup_map_of_getElem? (fun j m hm => (hcontracts.contracts j m hm).1)
      fun i j hi hj hne hsame => ?_
    exact hfree.ofCreation_ne hi hj hne (Option.some.inj hsame)
  case count => exact hcontracts.size

/-! ## An eventful history -/

/-- The creation of a contract without arguments. -/
def plainCreation (name : String) : Event :=
  .submit (.create { name, contract := name, args := [], libraries := [] })

/-- The address of the first contract. -/
def firstContract : Address := Address.defaultDeployer.ofCreation 0

/-- Two contracts are made, with a refused creation, one that reverts and a call in between. -/
def eventful : List Event :=
  [plainCreation "Root", .set (.refuse "Lost"), plainCreation "Lost", .set (.fail "Broken"),
    plainCreation "Broken", .submit (.call firstContract (.addController .defaultDeployer)),
    plainCreation "Resolver", .read firstContract Naming.root]

theorem length_eventful : (World.chronicle .defaultDeployer {} eventful).length = 4 := rfl

theorem collisionFree_eventful :
    CollisionFree .defaultDeployer (World.chronicle .defaultDeployer {} eventful).length
      (makings (World.chronicle .defaultDeployer {} eventful)).length := by
  have hfree : CollisionFree .defaultDeployer 4 4 :=
    collisionFree_of_nodup (by decide +kernel) (by decide +kernel) (by decide +kernel)
  rw [length_eventful]
  exact hfree.mono (Nat.le_refl 4) (length_eventful ▸ List.length_filterMap_le ..)

theorem lasting_play_eventful :
    (World.chronicle .defaultDeployer {} eventful).length < 2 ^ 64 ∧
      CollisionFree .defaultDeployer (World.chronicle .defaultDeployer {} eventful).length
        (makings (World.chronicle .defaultDeployer {} eventful)).length ∧
      Lasting .defaultDeployer eventful (World.chronicle .defaultDeployer {} eventful)
        (World.play .defaultDeployer {} eventful) := by
  have hfits : (World.chronicle .defaultDeployer {} eventful).length < 2 ^ 64 := by
    rw [length_eventful]
    decide
  exact ⟨hfits, collisionFree_eventful, lasting_play hfits collisionFree_eventful⟩

end Simulated

end Rollout
