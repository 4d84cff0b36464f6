import Kalatori.Chain.Definitions

/-!
# The signer

The worker that holds the seed.  For every request it derives the pair of the
order anew, from its entropy, the address of the recipient and the order's
identifier; it answers with the public key in the format that was asked for, or
with a signature.  When it has cleared its seed, or could not be reached, the
answer is `signerDown`.

Derivation and signatures are those of a library (`Keys`).
-/

namespace Kalatori

/-- `DeriveJunction`, with the constructor that is used. -/
inductive DeriveJunction
  | hard (path : String)
  deriving DecidableEq

structure FullDerivation where
  junctions : List DeriveJunction
  password : Option String
  deriving DecidableEq

/-- `sr25519::Signature` -/
structure Sr25519Signature where
  bytes : Vector UInt8 64
  deriving DecidableEq

/-- The library of the keys, `substrate_crypto_light::sr25519`. -/
structure Keys where
  Entropy : Type
  Pair : Type
  /-- `Pair::from_entropy_and_full_derivation` -/
  fromEntropyAndFullDerivation : Entropy → FullDerivation → Except SignerError Pair
  /-- `Pair::public` -/
  publicKey : Pair → AccountId32
  /-- `Pair::sign` -/
  sign : Pair → List UInt8 → Sr25519Signature

/-- The worker, with what it was started with. -/
structure Signer (keys : Keys) where
  seed_entropy : keys.Entropy
  recipient : AccountId32

def derivations (recipient order : String) : FullDerivation where
  junctions := [.hard recipient, .hard order]
  password := none

inductive SignerRequest
  | publicKey (id : String) (ss58 : UInt16)
  | sign (id : String) (signable : List UInt8)

/-- What a request that does not fail is answered with. -/
abbrev SignerRequest.Reply : SignerRequest → Type
  | .publicKey .. => String
  | .sign .. => Sr25519Signature

namespace Signer

variable {keys : Keys}

/-- The pair that is derived for an order. -/
def pair (lib : Libraries) (signer : Signer keys) (id : String) : Except SignerError keys.Pair :=
  keys.fromEntropyAndFullDerivation signer.seed_entropy
    (derivations (lib.toBase58String signer.recipient 2) id)

/-- One turn of the loop of the worker. -/
def serve (lib : Libraries) (signer : Signer keys) :
    (r : SignerRequest) → Except SignerError r.Reply
  | .publicKey id ss58 => (signer.pair lib id).map fun a =>
      lib.toBase58String (keys.publicKey a) ss58
  | .sign id signable => (signer.pair lib id).map fun a => keys.sign a signable

/-- How a request can be answered: `Signer::public` and `Signer::sign`. -/
def Answers (lib : Libraries) (signer : Signer keys) (r : SignerRequest)
    (answer : Except SignerError r.Reply) : Prop :=
  answer = signer.serve lib r ∨ answer = .error .signerDown

/-- An address that the signer gives out is that of the order's key. -/
theorem Answers.publicKey {lib : Libraries} {signer : Signer keys} {id : String} {ss58 : UInt16}
    {address : String} (h : signer.Answers lib (.publicKey id ss58) (.ok address)) :
    ∃ pair, signer.pair lib id = .ok pair ∧
      address = lib.toBase58String (keys.publicKey pair) ss58 := by
  rcases h with h | h
  · rw [serve] at h
    cases hpair : signer.pair lib id with
    | error e =>
      rw [hpair] at h
      cases h
    | ok pair =>
      rw [hpair] at h
      exact ⟨pair, rfl, Except.ok.inj h⟩
  · cases h

end Signer

/-- A library in which the account of every key is that of the sample. -/
def Sample.keys : Keys where
  Entropy := Unit
  Pair := FullDerivation
  fromEntropyAndFullDerivation _ derivation := .ok derivation
  publicKey _ := account
  sign _ _ := ⟨Vector.replicate 64 0⟩

def Sample.signer : Signer keys := ⟨(), account⟩

end Kalatori
