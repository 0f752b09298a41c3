/-
  Which Stellar network a deployment talks to (apps/api/src/config/stellar.config.ts), and the
  two other places that read the same variables: the `connect-src` list of the Content Security
  Policy (apps/api/src/main.ts) and the contract id of the event verifier.

  `readStellarSettings` trims every variable and lets its defaults follow the network. It checks
  the passphrase and the host of the Horizon URL, but not the host of the RPC URL
  (`settings_coherent_iff`). The other two places take the variables as they are, and the
  defaults of `connect-src` are those of the test network (`deployment_agrees_iff`).

  The URL parser and `toUpperCase` are parameters: of the first only the hosts of the four
  built-in URLs matter, of the second nothing.
-/
import Mathlib.Data.List.Basic
import PovDeposit.Lib.Outcome

namespace PovDeposit.Api.StellarConfig

open PovDeposit.Lib.Outcome

inductive StellarNetwork where
  | publicNetwork
  | testnet
  deriving DecidableEq, Repr

def StellarNetwork.text : StellarNetwork → String
  | .publicNetwork => "PUBLIC"
  | .testnet => "TESTNET"

def StellarNetwork.other : StellarNetwork → StellarNetwork
  | .publicNetwork => .testnet
  | .testnet => .publicNetwork

def passphrases : StellarNetwork → String
  | .publicNetwork => "Public Global Stellar Network ; September 2015"
  | .testnet => "Test SDF Network ; September 2015"

def horizonByNetwork : StellarNetwork → String
  | .publicNetwork => "https://horizon.stellar.org"
  | .testnet => "https://horizon-testnet.stellar.org"

def rpcByNetwork : StellarNetwork → String
  | .publicNetwork => "https://stellar.api.onfinality.io/public"
  | .testnet => "https://soroban-testnet.stellar.org"

def horizonHost : StellarNetwork → String
  | .publicNetwork => "horizon.stellar.org"
  | .testnet => "horizon-testnet.stellar.org"

def rpcHost : StellarNetwork → String
  | .publicNetwork => "stellar.api.onfinality.io"
  | .testnet => "soroban-testnet.stellar.org"

/-- The variables; `none` is one that is not set. -/
structure Env where
  stellarNetwork : Option String
  stellarNetworkPassphrase : Option String
  stellarHorizonUrl : Option String
  stellarRpcUrl : Option String
  escrowContractId : Option String
  deriving DecidableEq, Repr

structure Platform where
  toUpperCase : String → String
  /-- `new URL(s).hostname`, `none` where the constructor throws -/
  hostname : String → Option String
  horizon : ∀ n, hostname (horizonByNetwork n) = some (horizonHost n)
  rpc : ∀ n, hostname (rpcByNetwork n) = some (rpcHost n)

/-! ## Strings -/

/-- What `trim` takes off: `WhiteSpace` and `LineTerminator` of the language. -/
def isSpace (c : Char) : Bool :=
  (9 ≤ c.toNat && c.toNat ≤ 13) || c.toNat = 0x20 || c.toNat = 0xa0 || c.toNat = 0x1680 ||
    (0x2000 ≤ c.toNat && c.toNat ≤ 0x200a) || c.toNat = 0x2028 || c.toNat = 0x2029 ||
    c.toNat = 0x202f || c.toNat = 0x205f || c.toNat = 0x3000 || c.toNat = 0xfeff

def trim (s : String) : String :=
  String.ofList (((s.toList.dropWhile isSpace).reverse.dropWhile isSpace).reverse)

theorem trim_of_no_space {s : String} (h : s.toList.all (fun c => !isSpace c) = true) :
    trim s = s := by
  have hdrop : ∀ l : List Char, l.all (fun c => !isSpace c) = true → l.dropWhile isSpace = l := by
    intro l hl
    cases l with
    | nil => rfl
    | cons c l =>
      have hc : isSpace c = false := by simpa using (List.all_eq_true.mp hl) c List.mem_cons_self
      rw [List.dropWhile_cons_of_neg (by simp [hc])]
  rw [trim, hdrop _ h, hdrop _ (by rw [List.all_reverse]; exact h), List.reverse_reverse,
    String.ofList_toList]

/-- `value?.trim() || fallback` -/
def trimmedOr (value : Option String) (fallback : String) : String :=
  match value with
  | none => fallback
  | some s => if trim s = "" then fallback else trim s

/-- `value || fallback` -/
def valueOr (value : Option String) (fallback : String) : String :=
  match value with
  | none => fallback
  | some s => if s = "" then fallback else s

/-! ## The three readers -/

structure StellarSettings where
  network : StellarNetwork
  networkPassphrase : String
  rpcUrl : String
  horizonUrl : String
  contractId : String
  deriving DecidableEq, Repr

section Readers

variable (P : Platform) (env : Env)

def selectedNetwork : StellarNetwork :=
  if (env.stellarNetwork.map fun s => P.toUpperCase (trim s)) = some "TESTNET" then .testnet
  else .publicNetwork

def readStellarSettings : Except String StellarSettings :=
  let network := selectedNetwork P env
  let networkPassphrase := trimmedOr env.stellarNetworkPassphrase (passphrases network)
  if networkPassphrase ≠ passphrases network then
    .error ("STELLAR_NETWORK_PASSPHRASE does not belong to " ++ network.text)
  else
    let horizonUrl := trimmedOr env.stellarHorizonUrl (horizonByNetwork network)
    match P.hostname horizonUrl with
    | none => .error "Invalid URL"
    | some host =>
      if some host ≠ P.hostname (horizonByNetwork network) then
        .error ("STELLAR_HORIZON_URL must serve " ++ network.text)
      else .ok
        { network := network
          networkPassphrase := networkPassphrase
          rpcUrl := trimmedOr env.stellarRpcUrl (rpcByNetwork network)
          horizonUrl := horizonUrl
          contractId := trimmedOr env.escrowContractId "" }

/-- The body of `GET /api/stellar-config`. -/
def stellarConfig (stellar : StellarSettings) : StellarSettings :=
  { network := stellar.network
    networkPassphrase := stellar.networkPassphrase
    rpcUrl := stellar.rpcUrl
    horizonUrl := stellar.horizonUrl
    contractId := stellar.contractId }

/-- `connectSrc` in `bootstrap`. -/
def connectSrc : List String :=
  ["'self'", valueOr env.stellarRpcUrl "https://soroban-testnet.stellar.org",
    valueOr env.stellarHorizonUrl "https://horizon-testnet.stellar.org"]

/-- The contract id that `verifyEvent` filters by. -/
def eventContract : Except String String :=
  if env.escrowContractId.getD "" = "" then .error "ESCROW_CONTRACT_ID is not configured"
  else .ok (env.escrowContractId.getD "")

end Readers

/-! ## The value of a variable -/

/-- The text of a variable without white space around it; unset counts as empty. -/
def trimmed (value : Option String) : String := trim (value.getD "")

theorem trimmedOr_eq (value : Option String) (fallback : String) :
    trimmedOr value fallback = if trimmed value = "" then fallback else trimmed value := by
  cases value with
  | none => rfl
  | some s => rfl

theorem valueOr_eq (value : Option String) (fallback : String) :
    valueOr value fallback = if value.getD "" = "" then fallback else value.getD "" := by
  cases value with
  | none => rfl
  | some s => rfl

/-! ## One network -/

section Coherence

variable (P : Platform) (env : Env)

def PassphraseFits : Prop :=
  trimmed env.stellarNetworkPassphrase = "" ∨
    trimmed env.stellarNetworkPassphrase = passphrases (selectedNetwork P env)

def HorizonFits : Prop :=
  trimmed env.stellarHorizonUrl = "" ∨
    P.hostname (trimmed env.stellarHorizonUrl) = some (horizonHost (selectedNetwork P env))

/-- The RPC URL is set, and served by the RPC host of the other network. -/
def RpcMisplaced : Prop :=
  trimmed env.stellarRpcUrl ≠ "" ∧
    P.hostname (trimmed env.stellarRpcUrl) = some (rpcHost (selectedNetwork P env).other)

theorem passphraseFits_iff : PassphraseFits P env ↔
    trimmedOr env.stellarNetworkPassphrase (passphrases (selectedNetwork P env)) =
      passphrases (selectedNetwork P env) := by
  rw [trimmedOr_eq]
  unfold PassphraseFits
  split <;> simp_all

theorem horizonFits_iff : HorizonFits P env ↔
    P.hostname (trimmedOr env.stellarHorizonUrl (horizonByNetwork (selectedNetwork P env))) =
      some (horizonHost (selectedNetwork P env)) := by
  rw [trimmedOr_eq]
  unfold HorizonFits
  split
  · rename_i hblank
    simp [hblank, P.horizon]
  · rename_i hset
    simp [hset]

/-- What `readStellarSettings` returns, and when. -/
theorem readStellarSettings_eq_ok {s : StellarSettings} :
    readStellarSettings P env = .ok s ↔ PassphraseFits P env ∧ HorizonFits P env ∧ s =
      { network := selectedNetwork P env
        networkPassphrase := passphrases (selectedNetwork P env)
        rpcUrl := trimmedOr env.stellarRpcUrl (rpcByNetwork (selectedNetwork P env))
        horizonUrl := trimmedOr env.stellarHorizonUrl (horizonByNetwork (selectedNetwork P env))
        contractId := trimmedOr env.escrowContractId "" } := by
  unfold readStellarSettings
  simp only [guard_eq_ok, not_not, ← passphraseFits_iff]
  refine and_congr_right fun hpassphrase => ?_
  rw [horizonFits_iff, (passphraseFits_iff P env).mp hpassphrase]
  split
  · rename_i hinvalid
    simp [hinvalid]
  · rename_i host hhost
    simp only [guard_eq_ok, not_not, P.horizon, hhost, Except.ok.injEq, eq_comm (b := s)]

/-- The settings are of one network. -/
structure Coherent (s : StellarSettings) : Prop where
  passphrase : s.networkPassphrase = passphrases s.network
  horizon : P.hostname s.horizonUrl = some (horizonHost s.network)
  rpc : P.hostname s.rpcUrl ≠ some (rpcHost s.network.other)

/-- **When the served configuration is coherent.** Whatever `readStellarSettings` returns is of
    one network exactly if it throws, or the RPC URL is not that of the other network: nothing
    checks that. -/
theorem settings_coherent_iff :
    (∀ s, readStellarSettings P env = .ok s → Coherent P (stellarConfig s)) ↔
      ¬ (PassphraseFits P env ∧ HorizonFits P env ∧ RpcMisplaced P env) := by
  have hrpc : P.hostname (trimmedOr env.stellarRpcUrl (rpcByNetwork (selectedNetwork P env))) =
      some (rpcHost (selectedNetwork P env).other) ↔ RpcMisplaced P env := by
    rw [trimmedOr_eq]
    unfold RpcMisplaced
    split
    · rename_i hblank
      have hown : rpcHost (selectedNetwork P env) ≠ rpcHost (selectedNetwork P env).other := by
        cases selectedNetwork P env <;> decide
      simp [hblank, P.rpc, hown]
    · rename_i hset
      simp [hset]
  constructor
  · rintro hall ⟨hpassphrase, hhorizon, hmisplaced⟩
    have hread := (readStellarSettings_eq_ok P env).mpr ⟨hpassphrase, hhorizon, rfl⟩
    exact (hall _ hread).rpc (hrpc.mpr hmisplaced)
  · intro hnot s hs
    obtain ⟨hpassphrase, hhorizon, rfl⟩ := (readStellarSettings_eq_ok P env).mp hs
    exact ⟨rfl, (horizonFits_iff P env).mp hhorizon,
      fun hother => hnot ⟨hpassphrase, hhorizon, hrpc.mp hother⟩⟩

end Coherence

/-- The host of a plain `https` URL. -/
def httpsHost (s : String) : Option String :=
  match s.toList with
  | 'h' :: 't' :: 't' :: 'p' :: 's' :: ':' :: '/' :: '/' :: rest =>
      let host := rest.takeWhile fun c => c ≠ '/'
      if host ≠ [] ∧ host.all (fun c => c.isLower || c.isDigit || c = '.' || c = '-') then
        some (String.ofList host)
      else none
  | _ => none

/-- A platform that knows ASCII letters and plain URLs. -/
def samplePlatform : Platform where
  toUpperCase s := s.map Char.toUpper
  hostname := httpsHost
  horizon n := by cases n <;> decide
  rpc n := by cases n <;> decide

/-- Only the RPC URL is set, to that of the test network. -/
def testnetRpcEnv : Env := ⟨none, none, none, some "https://soroban-testnet.stellar.org", none⟩

/-- Mainnet is paired with the RPC server of the test network. -/
theorem settings_incoherent : ∃ s, readStellarSettings samplePlatform testnetRpcEnv = .ok s ∧
    s.network = .publicNetwork ∧ s.rpcUrl = rpcByNetwork .testnet ∧
    ¬ Coherent samplePlatform (stellarConfig s) := by
  refine ⟨_, rfl, by decide, by decide, fun h => h.rpc ?_⟩
  decide

/-! ## One deployment -/

section Agreement

/-- A variable that is set has no white space around it, and one that is unset or empty goes
    with the test network. -/
def Verbatim (n : StellarNetwork) (value : Option String) : Prop :=
  trimmed value = value.getD "" ∧ (value.getD "" = "" → n = .testnet)

/-- The URL of a variable is in the list by chance: it is the entry of the other one, or `'self'`. -/
def Elsewhere (n : StellarNetwork) (value : Option String) (byNetwork : StellarNetwork → String)
    (entry : String) : Prop :=
  trimmed value ≠ "" ∧ (trimmed value = "'self'" ∨ trimmed value = entry) ∨
    trimmed value = "" ∧ byNetwork n = entry

theorem rpcByNetwork_injective : Function.Injective rpcByNetwork := by
  intro n m h
  cases n <;> cases m <;> first | rfl | (revert h; decide)

theorem horizonByNetwork_injective : Function.Injective horizonByNetwork := by
  intro n m h
  cases n <;> cases m <;> first | rfl | (revert h; decide)

/-- Trimmed already, and neither empty nor `'self'`. -/
def PlainUrl (url : String) : Prop := trim url = url ∧ url ≠ "" ∧ url ≠ "'self'"

theorem rpcByNetwork_plain (n : StellarNetwork) : PlainUrl (rpcByNetwork n) := by
  cases n <;> exact ⟨by decide, by decide, by decide⟩

theorem horizonByNetwork_plain (n : StellarNetwork) : PlainUrl (horizonByNetwork n) := by
  cases n <;> exact ⟨by decide, by decide, by decide⟩

/-- Either variable: its URL is in the list that has `entry` for the other one. -/
theorem mem_entries_iff {byNetwork : StellarNetwork → String} (hinj : Function.Injective byNetwork)
    (hplain : ∀ n, PlainUrl (byNetwork n))
    (n : StellarNetwork) (value : Option String) (entry : String) :
    (trimmedOr value (byNetwork n) = "'self'" ∨
      trimmedOr value (byNetwork n) = valueOr value (byNetwork .testnet) ∨
      trimmedOr value (byNetwork n) = entry) ↔
    Verbatim n value ∨ Elsewhere n value byNetwork entry := by
  obtain ⟨htrim, hne, hself⟩ := hplain n
  rw [trimmedOr_eq, valueOr_eq]
  unfold Verbatim Elsewhere
  by_cases hblank : trimmed value = ""
  · rw [if_pos hblank]
    by_cases hempty : value.getD "" = ""
    · rw [if_pos hempty, hinj.eq_iff]
      simp [hblank, hempty, hself]
    · -- a blank value is no URL
      have hnot : byNetwork n ≠ value.getD "" := by
        intro heq
        rw [trimmed, ← heq, htrim] at hblank
        exact hne hblank
      rw [if_neg hempty]
      simp [hblank, Ne.symm hempty, hself, hnot]
  · have hset : value.getD "" ≠ "" := by
      intro hempty
      rw [trimmed, hempty] at hblank
      exact hblank rfl
    rw [if_neg hblank, if_neg hset]
    refine or_left_comm.trans (or_congr ?_ ?_)
    · exact ⟨fun h => ⟨h, fun hempty => absurd hempty hset⟩, fun h => h.1⟩
    · constructor
      · intro h
        exact .inl ⟨hblank, h⟩
      · rintro (⟨-, h⟩ | ⟨h, -⟩)
        · exact h
        · exact absurd h hblank

theorem mem_connectSrc {env : Env} {url : String} : url ∈ connectSrc env ↔ url = "'self'" ∨
    url = valueOr env.stellarRpcUrl (rpcByNetwork .testnet) ∨
    url = valueOr env.stellarHorizonUrl (horizonByNetwork .testnet) := by
  simp [connectSrc, rpcByNetwork, horizonByNetwork]

variable (P : Platform) (env : Env)

/-- The three readers see the deployment that the browser is told of. -/
structure Agrees (s : StellarSettings) : Prop where
  rpc : s.rpcUrl ∈ connectSrc env
  horizon : s.horizonUrl ∈ connectSrc env
  contract : s.contractId ≠ "" → eventContract env = .ok s.contractId
  refuses : s.contractId = "" → ∃ e, eventContract env = .error e

theorem contract_agrees_iff :
    ((trimmedOr env.escrowContractId "" ≠ "" →
        eventContract env = .ok (trimmedOr env.escrowContractId "")) ∧
      (trimmedOr env.escrowContractId "" = "" → ∃ e, eventContract env = .error e)) ↔
      trimmed env.escrowContractId = env.escrowContractId.getD "" := by
  have hid : trimmedOr env.escrowContractId "" = trimmed env.escrowContractId := by
    rw [trimmedOr_eq]
    split <;> simp_all
  rw [hid]
  unfold eventContract
  by_cases hempty : env.escrowContractId.getD "" = ""
  · have hblank : trimmed env.escrowContractId = "" := by
      rw [trimmed, hempty]
      rfl
    simp [hempty, hblank]
  · simp only [hempty, if_false, Except.ok.injEq, reduceCtorEq, exists_false, imp_false]
    constructor
    · rintro ⟨hsame, hset⟩
      exact (hsame hset).symm
    · intro hsame
      rw [hsame]
      exact ⟨fun _ => rfl, hempty⟩

/-- **When all readers agree.** Where `readStellarSettings` returns settings, the lists and the
    filter agree with them exactly if each URL is verbatim, or listed by chance, and the contract
    id has no white space around it. -/
theorem deployment_agrees_iff {s : StellarSettings} (hread : readStellarSettings P env = .ok s) :
    Agrees env (stellarConfig s) ↔
      (Verbatim (selectedNetwork P env) env.stellarRpcUrl ∨
        Elsewhere (selectedNetwork P env) env.stellarRpcUrl rpcByNetwork
          (valueOr env.stellarHorizonUrl (horizonByNetwork .testnet))) ∧
      (Verbatim (selectedNetwork P env) env.stellarHorizonUrl ∨
        Elsewhere (selectedNetwork P env) env.stellarHorizonUrl horizonByNetwork
          (valueOr env.stellarRpcUrl (rpcByNetwork .testnet))) ∧
      trimmed env.escrowContractId = env.escrowContractId.getD "" := by
  obtain ⟨-, -, rfl⟩ := (readStellarSettings_eq_ok P env).mp hread
  have hrpc := mem_entries_iff rpcByNetwork_injective rpcByNetwork_plain (selectedNetwork P env)
    env.stellarRpcUrl (valueOr env.stellarHorizonUrl (horizonByNetwork .testnet))
  have hhorizon := mem_entries_iff horizonByNetwork_injective horizonByNetwork_plain
    (selectedNetwork P env) env.stellarHorizonUrl (valueOr env.stellarRpcUrl (rpcByNetwork .testnet))
  rw [← hrpc, ← hhorizon, ← contract_agrees_iff env]
  constructor
  · rintro ⟨hr, hh, hc, hn⟩
    exact ⟨mem_connectSrc.mp hr, (mem_connectSrc.mp hh).imp_right Or.symm, hc, hn⟩
  · rintro ⟨hr, hh, hc, hn⟩
    exact ⟨mem_connectSrc.mpr hr, mem_connectSrc.mpr (hh.imp_right Or.symm), hc, hn⟩

/-- A test network deployment that names its contract and nothing else. -/
def testnetEnv : Env :=
  ⟨some "testnet", none, none, none, some "CBTPBD7SACNHMCU7F6EB7UCWUCR5IFA4SP2DCDSRSZO4DCBO3BPO2TJD"⟩

theorem deployment_agrees_testnet : ∃ s, readStellarSettings samplePlatform testnetEnv = .ok s ∧
    Agrees testnetEnv (stellarConfig s) := by
  have hread : readStellarSettings samplePlatform testnetEnv = .ok
      ⟨.testnet, "Test SDF Network ; September 2015", "https://soroban-testnet.stellar.org",
        "https://horizon-testnet.stellar.org",
        "CBTPBD7SACNHMCU7F6EB7UCWUCR5IFA4SP2DCDSRSZO4DCBO3BPO2TJD"⟩ := by decide +kernel
  have hnetwork : selectedNetwork samplePlatform testnetEnv = .testnet := by decide +kernel
  have hunset : Verbatim (selectedNetwork samplePlatform testnetEnv) none := ⟨rfl, fun _ => hnetwork⟩
  exact ⟨_, hread, (deployment_agrees_iff samplePlatform testnetEnv hread).mpr
    ⟨.inl hunset, .inl hunset, by decide +kernel⟩⟩

/-- With no variable set the browser is sent to Mainnet, and the policy lets it reach the test
    network alone. -/
theorem deployment_disagrees : ∃ s,
    readStellarSettings samplePlatform ⟨none, none, none, none, none⟩ = .ok s ∧
    s.network = .publicNetwork ∧
    (stellarConfig s).rpcUrl ∉ connectSrc ⟨none, none, none, none, none⟩ ∧
    (stellarConfig s).horizonUrl ∉ connectSrc ⟨none, none, none, none, none⟩ ∧
    ¬ Agrees ⟨none, none, none, none, none⟩ (stellarConfig s) := by
  refine ⟨_, rfl, by decide, by decide, by decide, fun h => absurd h.rpc (by decide)⟩

end Agreement

end PovDeposit.Api.StellarConfig
