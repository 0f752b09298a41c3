/-
  The network of the pages (apps/web/lib/stellar-network.ts, apps/web/lib/network.ts).

  `stellarProfile` picks a profile at build time; the wallet gate, the explorer links and the
  labels take it from there. The API picks its network by the same rule, from a variable of
  its own.
-/
import PovDeposit.Api.StellarConfig

namespace PovDeposit.Web

open PovDeposit.Api.StellarConfig (StellarNetwork Platform trim)

structure NetworkProfile where
  network : StellarNetwork
  label : String
  horizonUrl : String
  explorerBase : String
  deriving DecidableEq, Repr

/-- `PROFILES` -/
def profiles : StellarNetwork → NetworkProfile
  | .publicNetwork =>
      { network := .publicNetwork
        label := "Mainnet"
        horizonUrl := "https://horizon.stellar.org"
        explorerBase := "https://stellar.expert/explorer/public" }
  | .testnet =>
      { network := .testnet
        label := "Testnet"
        horizonUrl := "https://horizon-testnet.stellar.org"
        explorerBase := "https://stellar.expert/explorer/testnet" }

/-- `stellarProfile`, of the variable NEXT_PUBLIC_STELLAR_NETWORK. -/
def stellarProfile (P : Platform) (raw : Option String) : NetworkProfile :=
  if (raw.map fun s => P.toUpperCase (trim s)) = some "TESTNET" then profiles .testnet
  else profiles .publicNetwork

def explorerTransactionUrl (hash : String) (profile : NetworkProfile) : String :=
  profile.explorerBase ++ "/tx/" ++ hash

/-- What a wallet says of its network. -/
structure WalletNetwork where
  network : Option String
  networkPassphrase : Option String
  deriving DecidableEq, Repr

def isTestnet (network : WalletNetwork) : Bool :=
  network.network = some "TESTNET" ||
    network.networkPassphrase = some "Test SDF Network ; September 2015"

def isExpectedNetwork (network : WalletNetwork) (expected : String) : Bool :=
  if expected = "PUBLIC" then network.network = some "PUBLIC" else isTestnet network

end PovDeposit.Web
