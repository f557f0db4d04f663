import Rollout.Config

/-!
# Config/Preset — a whole naming system for one top-level domain

The preset deploys a registry, a price oracle, resolvers, registrars and a controller, gives the
top-level domain to its registrar once its resolver and interface are set, and gives `addr.reverse` to
the reverse registrar.
-/

namespace Rollout

/-- What the price oracle and the controller are constructed with. -/
structure Pricing where
  /-- Prices in wei per second, by the length of the name. -/
  rentPrices : List Uint256
  minCommitmentAgeSecs : Nat
  maxCommitmentAgeSecs : Nat
  deriving DecidableEq

namespace Pricing

def default : Pricing where
  rentPrices := [⟨317097919837, by decide⟩, ⟨5000000000000000000, by decide⟩, ⟨475646879756, by decide⟩]
  minCommitmentAgeSecs := 60
  maxCommitmentAgeSecs := 86400

def ofValue? (d : Dialect) (v : Value) : Option Pricing :=
  match v.record? d ["rent_prices", "min_commitment_age_secs", "max_commitment_age_secs"] with
  | some [prices, minAge, maxAge] => do
    let rentPrices ← Value.required? (Value.list? Value.uint256?) prices
    let minCommitmentAgeSecs ← Value.required? Value.word? minAge
    let maxCommitmentAgeSecs ← Value.required? Value.word? maxAge
    pure { rentPrices, minCommitmentAgeSecs, maxCommitmentAgeSecs }
  | _ => none

end Pricing

namespace Config.Preset

/-- The interface under which the controller is published on the domain. -/
def controllerInterface : InterfaceId := ⟨[0x01, 0x8f, 0xac, 0x06], rfl⟩

/-- A number of sixty-four bits as an argument. -/
def word (n : Nat) : Argument :=
  .uint ⟨n % UInt64.size, Nat.lt_trans (Nat.mod_lt n (by decide)) (by decide)⟩

def components (domain : String) (pricing : Pricing) : List Component :=
  [ { name := "ENSRegistry" },
    { name := "StablePriceOracle", args := pricing.rentPrices.map .uint },
    { name := "PublicResolver", args := [.component "ENSRegistry"] },
    { name := "BaseRegistrarImplementation", args := [.component "ENSRegistry", .node domain] },
    { name := "StringUtils" },
    { name := "ETHRegistrarController",
      args := [.component "BaseRegistrarImplementation", .component "StablePriceOracle",
        word pricing.minCommitmentAgeSecs, word pricing.maxCommitmentAgeSecs],
      libraries := [⟨"StringUtils", "StringUtils"⟩] },
    { name := "DefaultReverseResolver", args := [.component "ENSRegistry"] },
    { name := "ReverseRegistrar",
      args := [.component "ENSRegistry", .component "DefaultReverseResolver"] } ]

def wiring (domain : String) : List WiringStep :=
  [ .assignSubnode "" domain .deployer,
    .awaitPropagation domain .deployer,
    .bindResolver domain (.component "PublicResolver"),
    .bindInterface (.component "PublicResolver") domain controllerInterface
      (.component "ETHRegistrarController"),
    .assignSubnode "" domain (.component "BaseRegistrarImplementation"),
    .authorizeController (.component "BaseRegistrarImplementation")
      (.component "ETHRegistrarController"),
    .assignSubnode "" "reverse" .deployer,
    .awaitPropagation "reverse" .deployer,
    .assignSubnode "reverse" "addr" (.component "ReverseRegistrar") ]

end Config.Preset

/-- The naming system for a top-level domain. -/
def Config.preset (domain : String) (pricing : Pricing) : Config where
  artifactsDir := "artifacts"
  registry := some "ENSRegistry"
  components := Config.Preset.components domain pricing
  wiring := Config.Preset.wiring domain

end Rollout
