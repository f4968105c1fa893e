import Tripwire.Fault

/-!
# Chains

The chains that a contract call may go to, by name.
-/
namespace Tripwire.Contract

structure Chain where
  name : String
  id : Nat
  deriving DecidableEq, Repr

namespace Chain

def all : List Chain :=
  [⟨"ethereum", 1⟩, ⟨"goerli", 5⟩, ⟨"sepolia", 11155111⟩, ⟨"polygon", 137⟩, ⟨"mumbai", 80001⟩,
   ⟨"fantom", 250⟩, ⟨"xdai", 100⟩, ⟨"bsc", 56⟩, ⟨"arbitrum", 42161⟩, ⟨"avalanche", 43114⟩,
   ⟨"optimism", 10⟩, ⟨"base", 8453⟩, ⟨"celo", 42220⟩, ⟨"aurora", 1313161554⟩,
   ⟨"chronicleTestnet", 175177⟩]

def resolve (name : String) : Except Fault Chain :=
  match all.find? fun chain => chain.name = name with
  | some chain => .ok chain
  | none => .error (.unknownChain name (all.map Chain.name))

end Chain
end Tripwire.Contract
