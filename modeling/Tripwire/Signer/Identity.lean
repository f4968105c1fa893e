import Tripwire.Digest.Keccak
import Tripwire.Digest.Sha256
import Tripwire.Fault
import Tripwire.Form
import Tripwire.Text.Hex

/-!
# Signing identities

A script acts under an identity that is issued for the digest of its text. A public key is
uncompressed: `0x04` and 128 hexadecimal digits.
-/
namespace Tripwire.Signer

structure Identity where
  issuedId : String
  publicKey : String
  address : String
  deriving DecidableEq, Repr

namespace Identity

def read? (style : Form.Style) (v : Value) : Option Identity := do
  let fields ← Form.record? style ["issued_id", "public_key", "derived_address"] v
  let issuedId ← Form.required fields "issued_id" Form.text
  let publicKey ← Form.required fields "public_key" Form.text
  let address ← Form.required fields "derived_address" Form.text
  pure ⟨issuedId, publicKey, address⟩

def write (i : Identity) : Value :=
  .map [("issued_id", .str i.issuedId), ("public_key", .str i.publicKey),
    ("derived_address", .str i.address)]

end Identity

def isPublicKey (key : String) : Bool :=
  match key.toList with
  | '0' :: 'x' :: '0' :: '4' :: digits => digits.length = 128 && digits.all Text.Hex.isDigit
  | _ => false

def checkPublicKey (key : String) : Except Fault Unit :=
  if isPublicKey key then .ok () else .error (.malformedPublicKey key)

structure Refusal where
  reason : String
  deriving DecidableEq, Repr

def Refusal.message (r : Refusal) : String := "identity issuance failed: " ++ r.reason

def localKey (contentHash : String) : List UInt8 :=
  [0, 1].flatMap fun tag => Digest.Sha256.hash (Bytes.ofText contentHash ++ [tag])

/-- Issues the same identity whenever it is asked with the same content hash. Its key is no point of
any curve. -/
def issueLocal (contentHash : String) : Except Refusal Identity :=
  if contentHash.isEmpty then .error ⟨"content hash is empty"⟩
  else
    let key := localKey contentHash
    .ok {
      issuedId := "virtual-" ++ String.ofList (Text.Hex.write (key.take 8))
      publicKey := "0x04" ++ String.ofList (Text.Hex.write key)
      address := "0x" ++ String.ofList (Text.Hex.write ((Digest.Keccak.hash key).drop 12)) }

end Tripwire.Signer
