import PhygitalWallet.Program.SpendWindow
import PhygitalWallet.Program.Control
import PhygitalWallet.Program.AuthorityRun
import PhygitalWallet.Lib.Sha256
import PhygitalWallet.Program.Entry
import PhygitalWallet.Client.Compile
import PhygitalWallet.Program.Challenge
import PhygitalWallet.Client.Challenges
import PhygitalWallet.Program.Binding
import PhygitalWallet.Lib.Table
import PhygitalWallet.Signer.TokenStore
import PhygitalWallet.Signer.Ledger
import PhygitalWallet.Lib.Async
import PhygitalWallet.Lib.BaseText
import PhygitalWallet.Signer.DecodeTx
import PhygitalWallet.Signer.TokenSigner
import PhygitalWallet.Signer.Rollback
import PhygitalWallet.Signer.Settlement
import PhygitalWallet.Signer.FeePayer
import PhygitalWallet.Client.Wrap
import PhygitalWallet.Client.RoundTrip
import PhygitalWallet.Lib.Utf8
import PhygitalWallet.Secure.ClearSign
import PhygitalWallet.Secure.Parser
import PhygitalWallet.Secure.Policy
import PhygitalWallet.Secure.Shown
import PhygitalWallet.Program.Issued
import PhygitalWallet.Secure.Encoding
import PhygitalWallet.Secure.WalletFormat
import PhygitalWallet.Secure.Desk
import PhygitalWallet.Secure.Handlers
import PhygitalWallet.Secure.System
import PhygitalWallet.Secure.Signing
import PhygitalWallet.Api.BlobFormat
import PhygitalWallet.Lib.JsText
import PhygitalWallet.Api.Base64
import PhygitalWallet.Api.Session
import PhygitalWallet.Lib.Requests
import PhygitalWallet.Api.Tap
import PhygitalWallet.Api.KvChallenge
import PhygitalWallet.Api.OwnerWallet
import PhygitalWallet.Lib.Balances
import PhygitalWallet.Program.Rent
import PhygitalWallet.Program.RentRun
import PhygitalWallet.Signer.SponsoredRent
import PhygitalWallet.App.WalletTransaction
import PhygitalWallet.Lib.Double
import PhygitalWallet.Lib.FixedPoint
import PhygitalWallet.Lib.Keyset
import PhygitalWallet.Lib.ReprC
import PhygitalWallet.Program.Layout
import PhygitalWallet.Client.AuthorityAccount
import PhygitalWallet.Program.TokenLayout
import PhygitalWallet.Secure.SignRisk
import PhygitalWallet.Secure.ConfirmScreen
import PhygitalWallet.Secure.Replay
import PhygitalWallet.Secure.Dismissal
import PhygitalWallet.Program.SpendRun
import PhygitalWallet.Api.WalletActivity
import PhygitalWallet.App.PolicyView
import PhygitalWallet.App.Amount
import PhygitalWallet.App.PolicyEditor
import PhygitalWallet.App.PolicyStatus
import PhygitalWallet.App.OptimisticSend
import PhygitalWallet.Lib.Agreement
import PhygitalWallet.Program.Verdict
import PhygitalWallet.Client.Preview
import PhygitalWallet.Lib.Bisection
import PhygitalWallet.Program.SlotHash
import PhygitalWallet.Lib.Radix
import PhygitalWallet.Secure.Base64
import PhygitalWallet.Api.ActivityRows
import PhygitalWallet.Api.ActivityRecord
import PhygitalWallet.Api.SubscribeFeeTx
import PhygitalWallet.Api.TxQueue
import PhygitalWallet.Api.TxEffects
import PhygitalWallet.Api.TxRecord
import PhygitalWallet.Program.Mandate
import PhygitalWallet.Program.NoPanicRun
import PhygitalWallet.Program.Claim
import PhygitalWallet.Client.ClaimAccessory
import PhygitalWallet.Secure.Inbound
import PhygitalWallet.Secure.Consent
import PhygitalWallet.App.SignerClient
import PhygitalWallet.App.SignerChannel
