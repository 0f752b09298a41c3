/-
  `ContractTransactionVerifier` (apps/api/src/stellar/contract-transaction-verifier.ts).

  The RPC server is not in this repository. Its two answers, to `getTransaction(hash)` and to
  `getEvents` for the ledger of that transaction and the configured contract, are arguments.
  What makes them truthful is said in `Joint.System`.
-/
import PovDeposit.Api.Workflow
import PovDeposit.Lib.Outcome

namespace PovDeposit.Api

open PovDeposit.Lib.Outcome

/-- The answer to `getTransaction`; `createdAt` in seconds. -/
inductive TransactionAnswer where
  | notFound
  | failed
  | success (ledger : Nat) (createdAt : Int)
  deriving DecidableEq, Repr

/-- What `scValToNative` makes of an event topic. -/
inductive Topic where
  /-- a symbol, a string or an address -/
  | string (s : String)
  /-- an integer, `u64` included -/
  | integer (n : Int)
  /-- any other value, by what `String` makes of it -/
  | other (text : String)
  deriving DecidableEq, Repr

/-- `String(topic)` -/
def Topic.text : Topic → String
  | .string s => s
  | .integer n => toString n
  | .other text => text

/-- An event in the answer to `getEvents`. -/
structure EventInfo where
  inSuccessfulContractCall : Bool
  txHash : String
  topics : List Topic
  deriving DecidableEq, Repr

/-- The predicate of `events.some`. `String(undefined)` is `"undefined"`. -/
def EventInfo.matches (event : EventInfo) (transactionHash bookingId expectedEvent : String) : Bool :=
  if !event.inSuccessfulContractCall || event.txHash ≠ transactionHash then false
  else event.topics[0]? = some (.string expectedEvent) &&
    ((event.topics[1]?).map Topic.text).getD "undefined" = bookingId

/-- `verifyEvent`, with `ESCROW_CONTRACT_ID` (empty where it is not set). -/
def verifyEvent (contractId : String) (transaction : TransactionAnswer) (events : List EventInfo)
    (transactionHash bookingId expectedEvent : String) : Except String Workflow.Verification :=
  if contractId = "" then .error "ESCROW_CONTRACT_ID is not configured"
  else match transaction with
    | .success ledger createdAt =>
        if ¬ events.any fun e => e.matches transactionHash bookingId expectedEvent then
          .error ("Transaction does not contain the expected " ++ expectedEvent ++ " event")
        else .ok ⟨ledger, createdAt * 1000⟩
    | _ => .error "Transaction is not successful on Stellar Mainnet"

theorem matches_iff {event : EventInfo} {transactionHash bookingId expectedEvent : String} :
    event.matches transactionHash bookingId expectedEvent = true ↔
      event.inSuccessfulContractCall = true ∧ event.txHash = transactionHash ∧
      event.topics[0]? = some (.string expectedEvent) ∧
      ((event.topics[1]?).map Topic.text).getD "undefined" = bookingId := by
  simp [EventInfo.matches, and_assoc]

theorem verifyEvent_eq_ok {contractId : String} {transaction : TransactionAnswer}
    {events : List EventInfo} {transactionHash bookingId expectedEvent : String}
    {v : Workflow.Verification} :
    verifyEvent contractId transaction events transactionHash bookingId expectedEvent = .ok v ↔
      contractId ≠ "" ∧ ∃ ledger createdAt, transaction = .success ledger createdAt ∧
        (∃ e ∈ events, e.matches transactionHash bookingId expectedEvent = true) ∧
        v = ⟨ledger, createdAt * 1000⟩ := by
  unfold verifyEvent
  rw [guard_eq_ok]
  refine and_congr_right fun _ => ?_
  split
  · rename_i ledger createdAt
    simp only [guard_eq_ok, not_not, List.any_eq_true, Except.ok.injEq,
      TransactionAnswer.success.injEq, eq_comm (a := v)]
    constructor
    · rintro ⟨hevent, hv⟩
      exact ⟨ledger, createdAt, ⟨rfl, rfl⟩, hevent, hv⟩
    · rintro ⟨_, _, ⟨rfl, rfl⟩, hevent, hv⟩
      exact ⟨hevent, hv⟩
  · rename_i hne
    constructor
    · intro h
      cases h
    · rintro ⟨ledger, createdAt, h, -⟩
      exact absurd h (hne ledger createdAt)

end PovDeposit.Api
