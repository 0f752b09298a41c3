/-
  The wallet dialog (apps/web/components/wallet-dialog.tsx) as a client of the wallet login,
  with the two requests of apps/web/lib/wallet-auth.ts.

  A tab starts `connect` and `disconnect` whenever a button is pressed, also while an earlier
  run still waits for the extension, for the user or for the API. `World` has any number of
  tabs, and the `localStorage` that the tabs of a browser share, beside any number of API
  instances and everybody else who calls them. What an extension answers is arbitrary.

  A request carries the origin of its page, as browsers send it, and an answer that says it
  succeeded can be read as JSON. Addresses are ASCII.
-/
import PovDeposit.Api.Sessions
import PovDeposit.Web.Network
import PovDeposit.Web.Signature

namespace PovDeposit.Web.WalletDialog

open PovDeposit.Lib
open PovDeposit.Contract (Address)
open PovDeposit.Api.StellarConfig (Platform)
open PovDeposit.Api.WalletAuth (Action Call Change Fresh Regular Service Settings VerifyInput)

/-! ## The API behind its controller -/

/-- A step of the instances; a request passes the schema of its controller first. -/
def take (S : Settings) (s : Service) (a : Action) : Option Service :=
  match a.refused S.runtime with
  | some call => some (s.add call)
  | none => (Api.WalletAuth.machine S).step s a

theorem change_of_take {S : Settings} {s s' : Service} {a : Action} (h : take S s a = some s') :
    Change S s a s' := by
  unfold take at h
  split at h
  · rename_i call hrefused
    cases h
    unfold Action.refused at hrefused
    split at hrefused
    · split at hrefused
      · cases hrefused
        exact .refuse _ _ _ rfl
      · split at hrefused
        · cases hrefused
          exact .refuse _ _ _ rfl
        · cases hrefused
    · split at hrefused
      · cases hrefused
        exact .refuse _ _ _ rfl
      · split at hrefused
        · cases hrefused
          exact .refuse _ _ _ rfl
        · cases hrefused
    · cases hrefused
  · exact Api.WalletAuth.change_of_step h

/-- What `postJson` throws for a refused request. -/
def refusal (message : String) : String :=
  if message = "" then "Request failed with HTTP 400" else message

/-! ## A run of `connect` or `disconnect` -/

inductive WalletKind where
  | freighter
  | rabet
  deriving DecidableEq, Repr

def WalletKind.text : WalletKind → String
  | .freighter => "Freighter"
  | .rabet => "Rabet"

structure WalletSession where
  kind : WalletKind
  address : Address
  deriving DecidableEq, Repr

/-- What the dialog uses of the API's challenge. -/
structure AuthChallenge where
  id : String
  message : String
  deriving DecidableEq, Repr

/-- What a run waits for. -/
inductive Stage where
  /-- `isConnected`, or the test for `window.rabet` -/
  | looking (kind : WalletKind)
  /-- `getNetwork` -/
  | checking
  /-- `requestAccess`, or `window.rabet.connect` -/
  | accessing (kind : WalletKind)
  /-- `requestChallenge`, on its way to the API -/
  | asking (address : Address)
  /-- and call `k` there -/
  | issuing (address : Address) (k : Nat)
  /-- `signMessage` -/
  | signing (address : Address) (challenge : AuthChallenge)
  /-- `submitSignature`, on its way to the API -/
  | submitting (input : VerifyInput)
  /-- and call `k` there -/
  | verifying (input : VerifyInput) (k : Nat)
  /-- `window.rabet.disconnect` -/
  | disconnecting
  /-- nothing: `connect` has ended well, for Freighter with the answer of call `k` -/
  | connected (session : WalletSession) (k : Option Nat)
  | ended
  deriving DecidableEq, Repr

/-- What a run can learn. -/
inductive Event where
  | installed (found : Bool)
  | network (network : WalletNetwork)
  | access (error : Option String) (address : Option Address)
  | answer
  | signed (error : Option String) (signedMessage : Signed)
  | disconnected
  /-- what it waits for fails, with this message -/
  | rejects (message : String)

inductive Outcome where
  | waits (stage : Stage)
  | connects (session : WalletSession) (k : Option Nat)
  | throws (message : String)
  | disconnects
  /-- `disconnect` has no `catch` -/
  | drops

/-- What the pages are built with; `origin n` is the origin that the `localStorage` `n` is for. -/
structure Hosting where
  api : Settings
  platform : Platform
  /-- NEXT_PUBLIC_STELLAR_NETWORK -/
  stellarNetwork : Option String
  origin : Nat → String
  stringToNumber : String → Num

def Hosting.profile (H : Hosting) : NetworkProfile := stellarProfile H.platform H.stellarNetwork

/-- The address that an extension gives access to. -/
def granted (error : Option String) (address : Option Address) : Except String Address :=
  match error.filter (· ≠ ""), address.filter (· ≠ "") with
  | some error, _ => .error error
  | none, none => .error "Wallet access was rejected."
  | none, some address => .ok address

/-- The body of `submitSignature`, with the origin of the page. -/
def signature (H : Hosting) (origin : String) (address : Address) (challenge : AuthChallenge)
    (error : Option String) (signedMessage : Signed) : Except String VerifyInput :=
  match error.filter (· ≠ "") with
  | some error => .error error
  | none => do
      let signature ← toBase64Signature H.stringToNumber signedMessage
      return ⟨challenge.id, address, origin, signature⟩

def Outcome.ofExcept {α : Type} (next : α → Outcome) : Except String α → Outcome
  | .ok a => next a
  | .error e => .throws e

/-- `connect` and `disconnect` from one `await` to the next, but for the two requests. -/
def Stage.react (H : Hosting) (origin : String) (s : Service) : Stage → Event → Option Outcome
  | .looking .freighter, .installed found => some <|
      if found then .waits .checking else .throws "Install or unlock Freighter first."
  | .looking .rabet, .installed found => some <|
      if found then .waits (.accessing .rabet) else .throws "Install or unlock Rabet first."
  | .checking, .network network => some <|
      if isExpectedNetwork network H.profile.network.text then .waits (.accessing .freighter)
      else .throws ("Switch Freighter to Stellar " ++ H.profile.label ++ ".")
  | .accessing .freighter, .access error address =>
      some (.ofExcept (fun address => .waits (.asking address)) (granted error address))
  | .accessing .rabet, .access error address =>
      some (.ofExcept (fun address => .connects ⟨.rabet, address⟩ none) (granted error address))
  | .issuing address k, .answer => (s.call? k).bind fun call =>
      match call.stage with
      | .issued c => some (.waits (.signing address ⟨c.id, c.message⟩))
      | .threw e => some (.throws (refusal e))
      | _ => none
  | .signing address challenge, .signed error signedMessage => some <|
      .ofExcept (fun input => .waits (.submitting input))
        (signature H origin address challenge error signedMessage)
  | .verifying input k, .answer => (s.call? k).bind fun call =>
      match call.stage with
      | .signedIn _ _ _ _ => some (.connects ⟨.freighter, input.address⟩ (some k))
      | .threw e => some (.throws (refusal e))
      | _ => none
  | .disconnecting, .disconnected => some .disconnects
  | .disconnecting, .rejects _ => some .drops
  | .connected _ _, _ => none
  | .ended, _ => none
  | _, .rejects message => some (.throws message)
  | _, _ => none

/-- The request of a run, as instance `i` takes it at `now`, with the UUID or the session token
    that it draws. -/
def Stage.request (origin : String) (i : Nat) (now : Int) (drawn : String) : Stage → Option Action
  | .asking address => some (.issue i now drawn address origin)
  | .submitting input => some (.verify i now drawn input)
  | _ => none

/-- The stage once the request is call `k`. -/
def Stage.sent (k : Nat) : Stage → Stage
  | .asking address => .issuing address k
  | .submitting input => .verifying input k
  | stage => stage

/-! ## Tabs -/

structure Tab where
  /-- the `localStorage` of its browser -/
  store : Nat
  session : Option WalletSession
  status : String
  /-- the runs it has started -/
  runs : List Stage
  deriving DecidableEq, Repr

def shortAddress (address : Address) : String :=
  String.ofList (address.toList.take 6) ++ "…" ++
    String.ofList (address.toList.drop (address.toList.length - 4))

/-- The dialog of a new page. -/
def mounted (H : Hosting) (store : Nat) (stored : Option Address) : Tab where
  store := store
  session := none
  status :=
    match stored.filter (· ≠ "") with
    | some address =>
        "Previous public address " ++ shortAddress address ++ ". Reconnect to authorize."
    | none => "Choose a wallet. " ++ H.profile.label ++ " is required."
  runs := []

inductive TabAction where
  | connect (kind : WalletKind)
  | disconnect
  | run (r : Nat) (e : Event)

/-- The status of a wallet that is connected. -/
def connectedStatus (H : Hosting) : WalletKind → String
  | .freighter => "Freighter verified on " ++ H.profile.label ++ "."
  | .rabet => "Rabet connected to " ++ H.profile.label ++ " without signature verification."

/-- The tab and its `localStorage` after run `r` has come to an outcome. -/
def Tab.settle (H : Hosting) (tab : Tab) (stored : Option Address) (r : Nat) :
    Outcome → Tab × Option Address
  | .waits stage =>
      let status :=
        match stage with
        | .asking _ => "Sign the login challenge…"
        | _ => tab.status
      ({ tab with status := status, runs := tab.runs.set r stage }, stored)
  | .connects session k =>
      ({ tab with
          session := some session
          status := connectedStatus H session.kind
          runs := tab.runs.set r (.connected session k) }, some session.address)
  | .throws message =>
      ({ tab with session := none, status := message, runs := tab.runs.set r .ended }, none)
  | .disconnects =>
      ({ tab with
          session := none
          status := "Wallet disconnected."
          runs := tab.runs.set r .ended }, none)
  | .drops => ({ tab with runs := tab.runs.set r .ended }, stored)

def Tab.step (H : Hosting) (s : Service) (tab : Tab) (stored : Option Address) :
    TabAction → Option (Tab × Option Address)
  | .connect kind =>
      some ({ tab with
        status := "Waiting for " ++ kind.text ++ "…"
        runs := tab.runs ++ [.looking kind] }, stored)
  | .disconnect =>
      match tab.session with
      | none => none
      | some ⟨.rabet, _⟩ => some ({ tab with runs := tab.runs ++ [.disconnecting] }, stored)
      | some ⟨.freighter, _⟩ =>
          some ({ tab with session := none, status := "Wallet disconnected." }, none)
  | .run r e => (tab.runs[r]?).bind fun stage =>
      (stage.react H (H.origin tab.store) s e).map (tab.settle H stored r)

/-! ## The world -/

structure World where
  service : Service
  storage : Nat → Option Address
  tabs : List Tab

inductive WorldAction where
  /-- a request of anybody else, or a statement, a failure or a restart in the API -/
  | others (a : Action)
  | opens (store : Nat)
  /-- the request of run `r` of tab `t` is taken by instance `i` -/
  | post (t r i : Nat) (now : Int) (drawn : String)
  | tab (t : Nat) (a : TabAction)

/-- Run `r` of tab `t`. -/
def World.step (H : Hosting) (w : World) : WorldAction → Option World
  | .others a => (take H.api w.service a).map fun s => { w with service := s }
  | .opens store =>
      some { w with tabs := w.tabs ++ [mounted H store (w.storage store)] }
  | .post t r i now drawn => (w.tabs[t]?).bind fun tab => (tab.runs[r]?).bind fun stage =>
      (stage.request (H.origin tab.store) i now drawn).bind fun a =>
        (take H.api w.service a).map fun s =>
          let stage := stage.sent w.service.calls.length
          { w with service := s, tabs := w.tabs.set t { tab with runs := tab.runs.set r stage } }
  | .tab t a => (w.tabs[t]?).bind fun tab =>
      (tab.step H w.service (w.storage tab.store) a).map fun (tab', stored) =>
        { w with
          storage := Function.update w.storage tab.store stored
          tabs := w.tabs.set t tab' }

def machine (H : Hosting) : Machine World WorldAction where
  init w := Fresh w.service.toState ∧ (∀ n, w.storage n = none) ∧ w.tabs = []
  step := World.step H

/-- What a step asks of the API. -/
def World.serves (H : Hosting) (w : World) : WorldAction → Option Action
  | .others a => some a
  | .post t r i now drawn => (w.tabs[t]?).bind fun tab => (tab.runs[r]?).bind fun stage =>
      stage.request (H.origin tab.store) i now drawn
  | _ => none

/-- The UUIDs are new, and the dates are read back. -/
def Orderly (H : Hosting) (w : World) (act : WorldAction) : Prop :=
  ∀ a ∈ w.serves H act, Regular H.api w.service a

instance (H : Hosting) (w : World) (act : WorldAction) : Decidable (Orderly H w act) :=
  inferInstanceAs (Decidable (∀ a ∈ w.serves H act, _))

end PovDeposit.Web.WalletDialog
