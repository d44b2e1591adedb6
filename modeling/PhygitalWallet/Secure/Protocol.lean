import Mathlib.Algebra.Order.Ring.Unbundled.Rat

/-!
# The messages of the secure signer (`protocol.ts`)

The schema check is a parameter: a message that arrives is a request, or what the check found wrong with it.
-/

namespace PhygitalWallet.Secure

inductive ErrorCode
  | invalidMessage | unsupportedProtocol | unsupportedVersion | malformedTransaction | invalidWalletBlob
  | unsupportedCredential | policyRejected | userCancelled | authenticationFailed | decryptionFailed | walletMismatch
  | replayRejected | internalError | blobUnavailable
deriving DecidableEq, Repr

inductive AuthMode
  | create | unlock
deriving DecidableEq, Repr

inductive RequestBody
  | signTransaction (transaction : String)
  | exportPrivateKey
  | authStart (authMode : Option AuthMode) (credentialId webauthnAttestationObject : Option String)
deriving DecidableEq, Repr

structure InboundRequest where
  requestId : String
  timestamp : ℚ
  body : RequestBody
deriving DecidableEq

/-- What `validateInbound` returns. -/
inductive ValidationResult
  | ok (request : InboundRequest)
  | rejected (code : ErrorCode) (requestId : Option String)
deriving DecidableEq

/-- What is posted to the parent. -/
inductive Outgoing
  | error (requestId : Option String) (code : ErrorCode)
  | authComplete (requestId publicKey : String) (created : Bool) (expiresAt : Nat)
  | signResult (requestId signature publicKey : String)
  | exportResult (requestId : String) (completed : Bool)
deriving DecidableEq, Repr

/-- The request that a message answers. -/
def Outgoing.requestId : Outgoing → Option String
  | .error requestId _ => requestId
  | .authComplete requestId _ _ _ | .signResult requestId _ _ | .exportResult requestId _ => some requestId

def Outgoing.isSuccess : Outgoing → Bool
  | .error _ _ => false
  | _ => true

end PhygitalWallet.Secure
