/-
  `WalletAuthService` (apps/api/src/auth/wallet-auth.service.ts), and the two schemas of
  auth.controller.ts before it.

  Every API instance keeps the challenges it issued in a map of its own; the rows of
  `AuthChallenge` and `UserSession` are shared. A call runs from one database statement to the
  next, and the transaction of `verify` is one statement, with its commit. Without a database
  a call is over at once. `serve` is a step of the service, `step` one of the API, behind the
  schemas. The wallet keys of @stellar/stellar-sdk and `Date.toISOString` are parameters.

  The map finds a challenge by the text of its id, the table by the UUID that the text spells.
  `randomUUID` spells its UUIDs as the database does.
-/
import Mathlib.Data.List.AList
import Mathlib.Logic.Function.Basic
import PovDeposit.Api.Runtime
import PovDeposit.Contract.Escrow

namespace PovDeposit.Api.WalletAuth

open PovDeposit.Contract (Address)

structure Keys where
  /-- whether `Keypair.fromPublicKey` accepts an address -/
  fromPublicKey : Address → Bool
  /-- whether a base64 signature of a message verifies under an address -/
  verify : Address → String → String → Bool
  toISOString : Int → String

/-- A challenge as an instance holds it. -/
structure Challenge where
  id : String
  address : Address
  origin : String
  message : String
  expiresAt : String
  network : String
  used : Bool
  deriving DecidableEq, Repr

/-- A row of `AuthChallenge`, with the address of its wallet; `expiresAt` in milliseconds. -/
structure AuthChallenge where
  id : String
  address : Address
  nonceHash : String
  origin : String
  network : String
  expiresAt : Int
  consumedAt : Option Int
  deriving DecidableEq, Repr

structure UserSession where
  address : Address
  tokenHash : String
  expiresAt : Int
  deriving DecidableEq, Repr

/-- The body of `verify`, with the `Origin` header. -/
structure VerifyInput where
  challengeId : String
  address : Address
  origin : String
  signature : String
  deriving DecidableEq, Repr

/-- A call, on instance `i`. An `issue` comes with the time and the UUID it drew. -/
inductive Request where
  | issue (i : Nat) (now : Int) (id : String) (address : Address) (origin : String)
  | verify (i : Nat) (input : VerifyInput)
  deriving DecidableEq, Repr

/-- Where a call stands. -/
inductive Stage where
  /-- `issue`: the instance knows the challenge -/
  | remembered (challenge : Challenge)
  /-- `issue`: the wallet row is written -/
  | upserted (challenge : Challenge)
  | issued (challenge : Challenge)
  /-- `verify`: the instance does not know the challenge, `findUnique` is next -/
  | looking
  /-- `verify`: the checks were passed at `checkedAt`, the transaction is next; `own` if the
      challenge is the instance's own and not rebuilt from its row -/
  | verified (own : Bool) (challenge : Challenge) (checkedAt : Int) (token : String) (expiresAt : Int)
  | signedIn (challenge : Challenge) (checkedAt : Int) (token : String) (expiresAt : Int)
  | threw (error : String)
  deriving DecidableEq, Repr

structure Call where
  request : Request
  stage : Stage
  deriving DecidableEq, Repr

structure State where
  memory : Nat → AList fun _ : String => Challenge
  challenges : AList fun _ : String => AuthChallenge
  sessions : List UserSession
  calls : List Call

/-- The service with the wallets, a table it shares with the rest of the API. -/
structure Service extends State where
  wallets : AList fun _ : Address => String

/-- `message` -/
def message (id : String) (address : Address) (origin expiresAt network : String) : String :=
  "\n".intercalate
    ["Proof-of-Visit Deposit authentication",
      "Address: " ++ address,
      "Network: " ++ network,
      "Origin: " ++ origin,
      "Nonce: " ++ id,
      "Expires: " ++ expiresAt]

/-- The challenge of `issue` at time `now`, with the UUID `randomUUID` gave. -/
def newChallenge (K : Keys) (network : String) (now : Int) (id : String) (address : Address)
    (origin : String) : Challenge :=
  let expiresAt := K.toISOString (now + 5 * 60000)
  { id := id
    address := address
    origin := origin
    message := message id address origin expiresAt network
    expiresAt := expiresAt
    network := network
    used := false }

/-- `issue` up to `this.challenges.set` -/
def issue (K : Keys) (origins : List String) (network : String) (now : Int) (id : String)
    (address : Address) (origin : String) : Except String Challenge :=
  if origin ∉ origins then .error "Origin not allowed"
  else if ¬ K.fromPublicKey address then .error "invalid encoded string"
  else .ok (newChallenge K network now id address origin)

/-- The challenge that `verify` makes from a row. -/
def rebuild (K : Keys) (stored : AuthChallenge) : Challenge :=
  let expiresAt := K.toISOString stored.expiresAt
  { id := stored.id
    address := stored.address
    origin := stored.origin
    message := message stored.id stored.address stored.origin expiresAt stored.network
    expiresAt := expiresAt
    network := stored.network
    used := stored.consumedAt.isSome }

/-- The checks of `verify`. An expiry that is no date is never over. -/
def check (R : Runtime) (K : Keys) (challenge : Challenge) (now : Int) (input : VerifyInput) :
    Except String Unit :=
  if challenge.used then .error "Authentication challenge already used"
  else if (R.date challenge.expiresAt).any fun t => t ≤ now then
    .error "Authentication challenge expired"
  else if challenge.address ≠ input.address ∨ challenge.origin ≠ input.origin then
    .error "Authentication challenge mismatch"
  else if ¬ K.fromPublicKey input.address then .error "invalid encoded string"
  else if ¬ K.verify input.address challenge.message input.signature then
    .error "Invalid wallet signature"
  else .ok ()

/-! ## Steps -/

def Service.call? (s : Service) (k : Nat) : Option Call := s.calls[k]?

/-- A new call. -/
def Service.add (s : Service) (c : Call) : Service := { s with calls := s.calls ++ [c] }

/-- Call `k` becomes `c`. -/
def Service.turn (s : Service) (k : Nat) (c : Call) : Service := { s with calls := s.calls.set k c }

/-- `this.challenges.set` on instance `i` -/
def Service.remember (s : Service) (i : Nat) (id : String) (challenge : Challenge) : Service :=
  { s with memory := Function.update s.memory i ((s.memory i).insert id challenge) }

/-- `authChallenge.create` -/
def storeChallenge (R : Runtime) (s : Service) (c : Challenge) : Except String Service :=
  match R.date c.expiresAt with
  | none => .error "Invalid Date"
  | some expiresAt =>
      if (s.challenges.lookup c.id).isSome then .error "Unique constraint failed"
      else
        let row : AuthChallenge :=
          ⟨c.id, c.address, R.sha256 c.id, c.origin, c.network, expiresAt, none⟩
        .ok { s with challenges := s.challenges.insert c.id row }

/-- `authChallenge.findUnique` -/
def findChallenge (R : Runtime) (s : Service) (challengeId : String) :
    Except String AuthChallenge := do
  let id ← R.readUuid challengeId
  match s.challenges.lookup id with
  | some stored => .ok stored
  | none => .error "Authentication challenge not found"

/-- The transaction of `verify`. -/
def signIn (R : Runtime) (s : Service) (now : Int) (c : Challenge) (address : Address)
    (token : String) (expiresAt : Int) : Except String Service :=
  match s.challenges.lookup c.id with
  | none => .error "Authentication challenge already used"
  | some row =>
      if row.consumedAt.isSome then .error "Authentication challenge already used"
      else if (s.wallets.lookup address).isNone then .error "No WalletIdentity found"
      else if s.sessions.any fun t => t.tokenHash = R.sha256 token then
        .error "Unique constraint failed"
      else .ok
        { s with
          challenges := s.challenges.insert c.id { row with consumedAt := some now }
          sessions := s.sessions ++ [⟨address, R.sha256 token, expiresAt⟩] }

inductive Action where
  | issue (i : Nat) (now : Int) (id : String) (address : Address) (origin : String)
  /-- with the session token `randomBytes` gives, should the checks come to that here -/
  | verify (i : Nat) (now : Int) (token : String) (input : VerifyInput)
  /-- call `k` runs its statement, again with a session token -/
  | advance (k : Nat) (now : Int) (token : String)
  /-- the statement of call `k` fails, and the call throws -/
  | fail (k : Nat) (error : String)
  /-- instance `i` goes down and comes back without its memory -/
  | restart (i : Nat)
  deriving DecidableEq, Repr

def Stage.inFlight : Stage → Bool
  | .remembered _ | .upserted _ | .looking | .verified _ _ _ _ _ => true
  | _ => false

/-- A session lasts 15 minutes. -/
def sessionExpiry (now : Int) : Int := now + 15 * 60000

/-- A step of the service, with a database or without one. -/
def serve (R : Runtime) (K : Keys) (origins : List String) (network : String) (prisma : Bool)
    (s : Service) : Action → Option Service
  | .issue i now id address origin =>
      let request := .issue i now id address origin
      if ¬ R.Canonical id then none
      else match issue K origins network now id address origin with
      | .error e => some (s.add ⟨request, .threw e⟩)
      | .ok challenge =>
          let stage := if prisma then .remembered challenge else .issued challenge
          some ((s.remember i id challenge).add ⟨request, stage⟩)
  | .verify i now token input =>
      match (s.memory i).lookup input.challengeId with
      | some own =>
          match check R K own now input with
          | .error e => some (s.add ⟨.verify i input, .threw e⟩)
          | .ok _ =>
              -- the challenge is marked before the transaction, and stays so if that fails
              let s := s.remember i input.challengeId { own with used := true }
              let stage := if prisma then .verified true own now token (sessionExpiry now)
                else .signedIn own now token (sessionExpiry now)
              some (s.add ⟨.verify i input, stage⟩)
      | none =>
          let stage := if prisma then .looking else .threw "Authentication challenge not found"
          some (s.add ⟨.verify i input, stage⟩)
  | .advance k now token => (s.call? k).bind fun c =>
      match c.request, c.stage with
      | _, .remembered challenge =>
          let wallets := s.wallets.insert challenge.address challenge.network
          some ({ s with wallets := wallets }.turn k ⟨c.request, .upserted challenge⟩)
      | _, .upserted challenge =>
          match storeChallenge R s challenge with
          | .ok s => some (s.turn k ⟨c.request, .issued challenge⟩)
          | .error e => some (s.turn k ⟨c.request, .threw e⟩)
      | .verify _ input, .looking =>
          match findChallenge R s input.challengeId with
          | .error e => some (s.turn k ⟨c.request, .threw e⟩)
          | .ok stored =>
              match check R K (rebuild K stored) now input with
              | .error e => some (s.turn k ⟨c.request, .threw e⟩)
              | .ok _ => some (s.turn k
                  ⟨c.request, .verified false (rebuild K stored) now token (sessionExpiry now)⟩)
      | .verify _ input, .verified _ challenge checkedAt token expiresAt =>
          match signIn R s now challenge input.address token expiresAt with
          | .ok s => some (s.turn k ⟨c.request, .signedIn challenge checkedAt token expiresAt⟩)
          | .error e => some (s.turn k ⟨c.request, .threw e⟩)
      | _, _ => none
  | .fail k error => (s.call? k).bind fun c =>
      if c.stage.inFlight then some (s.turn k ⟨c.request, .threw error⟩) else none
  | .restart i => some { s with memory := Function.update s.memory i ∅ }

/-- The request that an action is the arrival of, and what the controller says to it. -/
def Action.refused (R : Runtime) : Action → Option Call
  | .issue i now id address origin =>
      if origin = "" then some ⟨.issue i now id address origin, .threw "Origin header required"⟩
      else if utf16Length address ≠ 56 then
        some ⟨.issue i now id address origin, .threw "Invalid challenge request"⟩
      else none
  | .verify i _ _ input =>
      if input.origin = "" then some ⟨.verify i input, .threw "Origin header required"⟩
      else if ¬ R.isUuid input.challengeId ∨ utf16Length input.address ≠ 56 ∨
          utf16Length input.signature < 80 ∨ 256 < utf16Length input.signature then
        some ⟨.verify i input, .threw "Invalid verification request"⟩
      else none
  | _ => none

/-- A step of the API, given and returning the wallets. -/
def step (R : Runtime) (K : Keys) (origins : List String) (network : String)
    (wallets : AList fun _ : Address => String) (s : State) (a : Action) :
    Option ((AList fun _ : Address => String) × State) :=
  match a.refused R with
  | some call => some (wallets, { s with calls := s.calls ++ [call] })
  | none => (serve R K origins network true ⟨s, wallets⟩ a).map fun t => (t.wallets, t.toState)

/-- No challenge was ever issued. -/
structure Fresh (s : State) : Prop where
  memory : ∀ i, s.memory i = ∅
  challenges : s.challenges = ∅
  sessions : s.sessions = []
  calls : s.calls = []

end PovDeposit.Api.WalletAuth
