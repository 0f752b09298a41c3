/-
  The verifier against whole ledgers, as the RPC server serves them.

  A `History` is what the network has closed: ledgers of transactions, each with the contract
  events it emitted, of any contracts. `getTransaction` and `getEvents` are the two methods
  of the RPC server on it. `getEvents` gives the events that match the filter in ledger
  order, at most `limit` of them; the cursor for the next page is left out, since the
  verifier does not read it.

  So the verifier sees a prefix of the ledger's escrow events. It is exact for a transaction
  as long as an event it looks for is in that prefix (`verifyEvent_exact_iff`).
-/
import PovDeposit.Joint.Chain

namespace PovDeposit.Joint

open PovDeposit.Contract (ContractEvent)
open PovDeposit.Api (TransactionAnswer EventInfo Topic)
open PovDeposit.Api.Workflow (Verification)

structure EmittedEvent where
  contractId : String
  inSuccessfulContractCall : Bool
  topics : List Topic
  deriving DecidableEq, Repr

structure SubmittedTransaction where
  hash : String
  successful : Bool
  events : List EmittedEvent
  deriving DecidableEq, Repr

/-- A closed ledger; `closeTime` in seconds. -/
structure ClosedLedger where
  sequence : Nat
  closeTime : Int
  transactions : List SubmittedTransaction
  deriving DecidableEq, Repr

/-- The transactions with the ledgers they are in. -/
def submittedIn (ledgers : List ClosedLedger) : List (ClosedLedger × SubmittedTransaction) :=
  ledgers.flatMap fun l => l.transactions.map fun t => (l, t)

/-- What the network has closed: sequence numbers and transaction hashes are unique. -/
structure History where
  ledgers : List ClosedLedger
  sequences : (ledgers.map ClosedLedger.sequence).Nodup
  hashes : ((submittedIn ledgers).map fun p => p.2.hash).Nodup

/-- The events of a contract in a ledger, in ledger order. -/
def ClosedLedger.eventInfos (l : ClosedLedger) (contractId : String) : List EventInfo :=
  l.transactions.flatMap fun t =>
    (t.events.filter fun e => e.contractId = contractId).map fun e =>
      ⟨e.inSuccessfulContractCall, t.hash, e.topics⟩

/-- `getTransaction`; the server knows hashes in lowercase. -/
def History.getTransaction (h : History) (hash : String) : TransactionAnswer :=
  match (submittedIn h.ledgers).find? fun p => p.2.hash.toList = hash.toList.map Char.toLower with
  | none => .notFound
  | some (l, t) => if t.successful then .success l.sequence l.closeTime else .failed

/-- The first page of `getEvents`. -/
def History.getEvents (h : History) (limit startLedger endLedger : Nat) (contractId : String) :
    List EventInfo :=
  let range := h.ledgers.filter fun l => startLedger ≤ l.sequence && l.sequence < endLedger
  (range.flatMap fun l => l.eventInfos contractId).take limit

/-- `verifyEvent`, asking the RPC server. -/
def History.verifyEvent (h : History) (limit : Nat) (contractId transactionHash bookingId
    expectedEvent : String) : Except String Verification :=
  let transaction := h.getTransaction transactionHash
  let events := match transaction with
    | .success ledger _ => h.getEvents limit ledger (ledger + 1) contractId
    | _ => []
  Api.verifyEvent contractId transaction events transactionHash bookingId expectedEvent

/-! ## What there is to be verified -/

/-- The topics the escrow publishes an event under. -/
def eventTopics (e : ContractEvent) : List Topic :=
  [.string (eventName e), .integer e.bookingId.toNat]

/-- The configured contract is the escrow: it emits the events of the escrow and no others. -/
def History.EscrowAt (h : History) (contractId : String) : Prop :=
  ∀ p ∈ submittedIn h.ledgers, ∀ e ∈ p.2.events, e.contractId = contractId →
    ∃ event : ContractEvent, e.topics = eventTopics event

/-- The topics name an event of a booking, given by its `u64` id in decimal. -/
def NamesBooking (topics : List Topic) (name bookingId : String) : Prop :=
  topics[0]? = some (.string name) ∧
    ∃ n : UInt64, topics[1]? = some (.integer n.toNat) ∧ idText n = bookingId

/-- The transaction succeeded, with such an event of the contract in a successful call; its
    ledger and close time are `v`. -/
def History.Emitted (h : History) (contractId hash bookingId name : String) (v : Verification) :
    Prop :=
  ∃ l t, (l, t) ∈ submittedIn h.ledgers ∧ t.hash = hash ∧ t.successful = true ∧
    (∃ e ∈ t.events, e.contractId = contractId ∧ e.inSuccessfulContractCall = true ∧
      NamesBooking e.topics name bookingId) ∧
    v = ⟨l.sequence, l.closeTime * 1000⟩

/-- If the transaction has such an event at all, then one is among the first `limit` events
    of the contract in its ledger. -/
def History.OnFirstPage (h : History) (limit : Nat) (contractId hash bookingId name : String) : Prop :=
  ∀ l t, (l, t) ∈ submittedIn h.ledgers → t.hash = hash → t.successful = true →
    (∃ e ∈ l.eventInfos contractId, e.matches hash bookingId name = true) →
    ∃ e ∈ (l.eventInfos contractId).take limit, e.matches hash bookingId name = true

/-! ## The two methods of the server -/

/-- A key that no two members of a list share picks one of them out. -/
theorem filter_key_of_nodup {α κ : Type*} [DecidableEq κ] (f : α → κ) {l : List α} {x : α}
    (h : (l.map f).Nodup) (hx : x ∈ l) : l.filter (fun y => f y = f x) = [x] := by
  induction l with
  | nil => cases hx
  | cons y l ih =>
    obtain ⟨hnot, hl⟩ := List.nodup_cons.mp h
    rcases List.mem_cons.mp hx with rfl | hmem
    · have hnone : l.filter (fun y => f y = f x) = [] := by
        rw [List.filter_eq_nil_iff]
        intro z hz
        have hne : f z ≠ f x := fun heq => hnot (heq ▸ List.mem_map_of_mem hz)
        simpa using hne
      simp [hnone]
    · have hne : f y ≠ f x := fun heq => hnot (heq ▸ List.mem_map_of_mem hmem)
      simp [hne, ih hl hmem]

section Server

variable (h : History) {l : ClosedLedger} {t : SubmittedTransaction}

theorem getTransaction_of_mem (hmem : (l, t) ∈ submittedIn h.ledgers)
    (hlower : t.hash.toList.map Char.toLower = t.hash.toList) :
    h.getTransaction t.hash = if t.successful then .success l.sequence l.closeTime else .failed := by
  have hfilter := filter_key_of_nodup (fun p => p.2.hash) h.hashes hmem
  have hfind : (submittedIn h.ledgers).find?
      (fun p => p.2.hash.toList = t.hash.toList.map Char.toLower) = some (l, t) := by
    rw [hlower, ← List.head?_filter]
    simp only [String.toList_inj]
    rw [hfilter]
    rfl
  unfold History.getTransaction
  rw [hfind]

/-- A transaction that is reported as successful is recorded so. -/
theorem mem_of_getTransaction {hash : String} (hlower : hash.toList.map Char.toLower = hash.toList)
    {ledger : Nat} {createdAt : Int} (hget : h.getTransaction hash = .success ledger createdAt) :
    ∃ l t, (l, t) ∈ submittedIn h.ledgers ∧ t.hash = hash ∧ t.successful = true ∧
      l.sequence = ledger ∧ l.closeTime = createdAt := by
  unfold History.getTransaction at hget
  split at hget
  · cases hget
  · rename_i l t hfind
    have hmem := List.mem_of_find?_eq_some hfind
    have hhash := List.find?_some hfind
    rw [hlower, decide_eq_true_eq, String.toList_inj] at hhash
    split at hget
    · rename_i hsuccess
      cases hget
      exact ⟨l, t, hmem, hhash, hsuccess, rfl, rfl⟩
    · cases hget

theorem getEvents_ledger (hmem : l ∈ h.ledgers) (limit : Nat) (contractId : String) :
    h.getEvents limit l.sequence (l.sequence + 1) contractId =
      (l.eventInfos contractId).take limit := by
  have hrange : (h.ledgers.filter fun x => l.sequence ≤ x.sequence && x.sequence < l.sequence + 1) =
      [l] := by
    rw [← filter_key_of_nodup ClosedLedger.sequence h.sequences hmem]
    refine List.filter_congr fun x _ => ?_
    rw [← Bool.decide_and, decide_eq_decide]
    omega
  unfold History.getEvents
  simp only [hrange, List.flatMap_cons, List.flatMap_nil, List.append_nil]

end Server

/-! ## Matching -/

theorem submitted_inj (h : History) {p q : ClosedLedger × SubmittedTransaction}
    (hp : p ∈ submittedIn h.ledgers) (hq : q ∈ submittedIn h.ledgers) (hhash : p.2.hash = q.2.hash) :
    p = q := List.inj_on_of_nodup_map h.hashes hp hq hhash

theorem mem_submittedIn {ledgers : List ClosedLedger} {l : ClosedLedger} {t : SubmittedTransaction} :
    (l, t) ∈ submittedIn ledgers ↔ l ∈ ledgers ∧ t ∈ l.transactions := by
  simp only [submittedIn, List.mem_flatMap, List.mem_map, Prod.mk.injEq]
  constructor
  · rintro ⟨x, hx, y, hy, rfl, rfl⟩
    exact ⟨hx, hy⟩
  · rintro ⟨hl, ht⟩
    exact ⟨l, hl, t, ht, rfl, rfl⟩

theorem mem_eventInfos {l : ClosedLedger} {contractId : String} {info : EventInfo} :
    info ∈ l.eventInfos contractId ↔ ∃ t ∈ l.transactions, ∃ e ∈ t.events,
      e.contractId = contractId ∧ info = ⟨e.inSuccessfulContractCall, t.hash, e.topics⟩ := by
  simp only [ClosedLedger.eventInfos, List.mem_flatMap, List.mem_map, List.mem_filter,
    decide_eq_true_eq, and_assoc, eq_comm (a := info)]

/-- On the topics of an escrow event the verifier's test says what it should. -/
theorem names_of_eventTopics (event : ContractEvent) (name bookingId : String) :
    (eventTopics event)[0]? = some (.string name) ∧
      (((eventTopics event)[1]?).map Topic.text).getD "undefined" = bookingId ↔
    NamesBooking (eventTopics event) name bookingId := by
  refine and_congr_right fun _ => ?_
  constructor
  · intro htext
    exact ⟨event.bookingId, rfl, htext⟩
  · rintro ⟨n, htopic, htext⟩
    rw [htopic]
    exact htext

/-- A transaction has an event to be verified exactly if the filter on the contract, over its
    whole ledger, leaves an event that matches. -/
theorem emitted_iff (h : History) {contractId : String} (hescrow : h.EscrowAt contractId)
    {hash bookingId name : String} {v : Verification} :
    h.Emitted contractId hash bookingId name v ↔ ∃ l t, (l, t) ∈ submittedIn h.ledgers ∧
      t.hash = hash ∧ t.successful = true ∧
      (∃ e ∈ l.eventInfos contractId, e.matches hash bookingId name = true) ∧
      v = ⟨l.sequence, l.closeTime * 1000⟩ := by
  refine exists_congr fun l => exists_congr fun t => and_congr_right fun hmem =>
    and_congr_right fun hhash => and_congr_right fun _ => and_congr_left fun _ => ?_
  constructor
  · rintro ⟨e, he, hcontract, hcall, hnames⟩
    obtain ⟨event, htopics⟩ := hescrow _ hmem e he hcontract
    rw [htopics, ← names_of_eventTopics] at hnames
    refine ⟨⟨e.inSuccessfulContractCall, t.hash, e.topics⟩, ?_, ?_⟩
    · exact mem_eventInfos.mpr ⟨t, (mem_submittedIn.mp hmem).2, e, he, hcontract, rfl⟩
    · rw [Api.matches_iff, htopics]
      exact ⟨hcall, hhash, hnames⟩
  · rintro ⟨info, hinfo, hmatch⟩
    obtain ⟨t', ht', e, he, hcontract, rfl⟩ := mem_eventInfos.mp hinfo
    obtain ⟨hcall, hhash', htext⟩ := Api.matches_iff.mp hmatch
    -- the hash of the event is that of the transaction
    have hmem' : (l, t') ∈ submittedIn h.ledgers :=
      mem_submittedIn.mpr ⟨(mem_submittedIn.mp hmem).1, ht'⟩
    obtain rfl : t' = t :=
      congrArg Prod.snd (submitted_inj h hmem' hmem (hhash'.trans hhash.symm))
    obtain ⟨event, htopics⟩ := hescrow _ hmem e he hcontract
    refine ⟨e, he, hcontract, hcall, ?_⟩
    rw [htopics, ← names_of_eventTopics, ← htopics]
    exact htext

/-- The verifier looks for the event on the first page only. -/
theorem history_verifyEvent_eq_ok (h : History) {limit : Nat} {contractId hash : String}
    (hconfigured : contractId ≠ "") (hlower : hash.toList.map Char.toLower = hash.toList)
    {bookingId name : String} {v : Verification} :
    h.verifyEvent limit contractId hash bookingId name = .ok v ↔
      ∃ l t, (l, t) ∈ submittedIn h.ledgers ∧ t.hash = hash ∧ t.successful = true ∧
        (∃ e ∈ (l.eventInfos contractId).take limit, e.matches hash bookingId name = true) ∧
        v = ⟨l.sequence, l.closeTime * 1000⟩ := by
  unfold History.verifyEvent
  simp only [Api.verifyEvent_eq_ok]
  constructor
  · rintro ⟨-, ledger, createdAt, hget, hevent, rfl⟩
    rw [hget] at hevent
    obtain ⟨l, t, hmem, hhash, hsuccess, rfl, rfl⟩ := mem_of_getTransaction h hlower hget
    simp only [getEvents_ledger h (mem_submittedIn.mp hmem).1] at hevent
    exact ⟨l, t, hmem, hhash, hsuccess, hevent, rfl⟩
  · rintro ⟨l, t, hmem, rfl, hsuccess, hevent, rfl⟩
    have hget := getTransaction_of_mem h hmem hlower
    rw [if_pos hsuccess] at hget
    refine ⟨hconfigured, l.sequence, l.closeTime, hget, ?_, rfl⟩
    rw [hget]
    simp only [getEvents_ledger h (mem_submittedIn.mp hmem).1]
    exact hevent

/-- **The verifier is exact up to the first page.** Whatever the network has closed, for every
    transaction hash as the server writes it, every booking id and event name: the verifier
    accepts exactly the successful transactions in which the escrow emitted that event, with
    their ledger and close time, if and only if the event it is asked for, where there is
    one, is among the first `limit` escrow events of its ledger. -/
theorem verifyEvent_exact_iff (h : History) (limit : Nat) (contractId hash bookingId name : String)
    (hconfigured : contractId ≠ "") (hescrow : h.EscrowAt contractId)
    (hhash : isTransactionHash hash = true) :
    (∀ v, h.verifyEvent limit contractId hash bookingId name = .ok v ↔
      h.Emitted contractId hash bookingId name v) ↔
    h.OnFirstPage limit contractId hash bookingId name := by
  have hlower := lower_of_isTransactionHash hhash
  simp only [history_verifyEvent_eq_ok h hconfigured hlower, emitted_iff h hescrow]
  constructor
  · intro hexact l t hmem ht hsuccess hevent
    obtain ⟨l', t', hmem', ht', -, hpage, -⟩ :=
      (hexact ⟨l.sequence, l.closeTime * 1000⟩).mpr ⟨l, t, hmem, ht, hsuccess, hevent, rfl⟩
    obtain rfl : l' = l :=
      congrArg Prod.fst (submitted_inj h hmem' hmem (ht'.trans ht.symm))
    exact hpage
  · intro hpage v
    refine exists_congr fun l => exists_congr fun t => and_congr_right fun hmem =>
      and_congr_right fun ht => and_congr_right fun hsuccess => and_congr_left fun _ => ?_
    constructor
    · rintro ⟨e, he, hmatch⟩
      exact ⟨e, List.mem_of_mem_take he, hmatch⟩
    · exact hpage l t hmem ht hsuccess

section Sample

def sampleHash : String := String.ofList (List.replicate 64 'a')

def otherHash : String := String.ofList (List.replicate 64 'b')

/-- A ledger in which `count` other bookings are created before the funding of booking 42. -/
def busyLedger (count : Nat) : ClosedLedger where
  sequence := 123
  closeTime := 1800000000
  transactions :=
    [⟨otherHash, true, (List.range count).map fun i =>
        ⟨"escrow", true, [.string "booking_created", .integer (UInt64.ofNat (43 + i)).toNat]⟩⟩,
      ⟨sampleHash, true, [⟨"escrow", true, [.string "booking_funded", .integer 42]⟩]⟩]

def busyHistory (count : Nat) : History where
  ledgers := [busyLedger count]
  sequences := by simp
  hashes := by
    have hne : otherHash ≠ sampleHash := by decide
    simpa [submittedIn, busyLedger] using hne

theorem escrowAt_busyHistory (count : Nat) : (busyHistory count).EscrowAt "escrow" := by
  intro p hp e he _
  simp only [busyHistory, busyLedger, submittedIn, List.flatMap_cons, List.flatMap_nil, List.map_cons,
    List.map_nil, List.append_nil, List.mem_cons, List.not_mem_nil, or_false] at hp
  rcases hp with rfl | rfl
  · obtain ⟨i, -, rfl⟩ := List.mem_map.mp he
    exact ⟨.bookingCreated (UInt64.ofNat (43 + i)) "renter" "host" 1000000, rfl⟩
  · obtain rfl := List.mem_singleton.mp he
    exact ⟨.bookingFunded 42 1000000, rfl⟩

theorem emitted_busyHistory (count : Nat) :
    (busyHistory count).Emitted "escrow" sampleHash "42" "booking_funded" ⟨123, 1800000000000⟩ := by
  have hmem : (busyLedger count, ⟨sampleHash, true, [⟨"escrow", true,
      [.string "booking_funded", .integer 42]⟩]⟩) ∈ submittedIn (busyHistory count).ledgers :=
    mem_submittedIn.mpr ⟨List.mem_cons_self, List.mem_cons_of_mem _ List.mem_cons_self⟩
  have hnames : NamesBooking [.string "booking_funded", .integer 42] "booking_funded" "42" :=
    ⟨rfl, 42, rfl, by decide⟩
  exact ⟨_, _, hmem, rfl, rfl, ⟨_, List.mem_cons_self, rfl, rfl, hnames⟩, rfl⟩

theorem verifyEvent_exact_second :
    (busyHistory 1).verifyEvent 100 "escrow" sampleHash "42" "booking_funded" =
      .ok ⟨123, 1800000000000⟩ := by
  refine ((verifyEvent_exact_iff (busyHistory 1) 100 "escrow" sampleHash "42" "booking_funded"
    (by decide) (escrowAt_busyHistory 1) (by decide)).mpr ?_ _).mpr (emitted_busyHistory 1)
  intro l t hmem _ _ _
  obtain rfl := List.mem_singleton.mp (mem_submittedIn.mp hmem).1
  exact ⟨⟨true, sampleHash, [.string "booking_funded", .integer 42]⟩,
    by simp [busyLedger, ClosedLedger.eventInfos],
    by decide⟩

/-- With 100 events before it the funding is there and is not found. -/
theorem verifyEvent_misses_second_page :
    (busyHistory 100).Emitted "escrow" sampleHash "42" "booking_funded" ⟨123, 1800000000000⟩ ∧
    (busyHistory 100).verifyEvent 100 "escrow" sampleHash "42" "booking_funded" =
      .error "Transaction does not contain the expected booking_funded event" := by
  refine ⟨emitted_busyHistory 100, ?_⟩
  decide +kernel

end Sample

end PovDeposit.Joint
