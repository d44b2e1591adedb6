import Mathlib.Data.List.DropRight
import PhygitalWallet.Client.Kit
import PhygitalWallet.Lib.Utf8

/-!
# Clear-signing texts (`tx/clear-sign.ts`)

- `describeInnerInstruction`: the title and the rows of a compact CPI;
- `describeWalletPolicy`: the rows of a wallet policy.
-/

namespace PhygitalWallet.Secure

open ByteSeq (Bytes)

structure DetailRow where
  label : String
  value : String
deriving DecidableEq, Repr

structure ClearedInner where
  title : String
  details : List DetailRow
deriving DecidableEq, Repr

/-! ## Programs and mints -/

def systemText : String := "11111111111111111111111111111111"
def tokenText : String := "TokenkegQfeZyiNwAJbNbGKPFXCWuBvf9Ss623VQ5DA"
def token2022Text : String := "TokenzQdBNbLqP5VEhdkAS6EPFLC1PHnBqCXEpPxuEb"
def ataText : String := "ATokenGPvbdGVxr1b2hvZbsiqW5xWH25efTNsLJA8knL"
def memoText : String := "MemoSq4gqBnyyd8CMoPbUxRWDFBIdzy9SHRdJrEqeL"
def memoV1Text : String := "Memo1UhkJRfHyvLMcVucJwxXeuD728EqVDDwQDxFMNo"
def metadataText : String := "metaqbxxUerdq28cj1RbAWkYQm3ybzjb6a8bt518x1s"
def bubblegumText : String := "BGUMAp9Gq7iTEuizy4pqaxsTyUCBK68MDfK752saRPUY"
def coreText : String := "CoREENxT6tW1HoK8ypY1SxRMZTcVPm7R94rH4PZNhX7d"

structure MintMeta where
  decimals : Nat
  symbol : String
deriving DecidableEq, Repr

/-- `KNOWN_MINT_META`. -/
def knownMintMeta : List (String × MintMeta) :=
  [("So11111111111111111111111111111111111111112", ⟨9, "SOL"⟩),
   ("EPjFWdd5AufqSSqeM2qN1xzybapC8G4wEGGkZwyTDt1v", ⟨6, "USDC"⟩),
   ("4zMMC9srt5Ri5X14GAgXhaHii3GnPAEERYPJgZJDnm3", ⟨6, "USDC"⟩),
   ("Es9vMFrzaCERmJfrF4H2FYD4KCoNkY11McCe8BenwNYB", ⟨6, "USDT"⟩)]

def mintMeta (mint : String) : Option MintMeta := knownMintMeta.lookup mint

/-! ## Numbers and addresses -/

/-- The ends of an address. -/
def shorten (addr : String) : String :=
  let chars := addr.toList
  if 12 < chars.length then String.ofList (chars.take 4 ++ ['…'] ++ chars.drop (chars.length - 4)) else addr

/-- Raw units with their decimals, without zeros at the end. -/
def formatUnits (raw decimals : Nat) : String :=
  if decimals = 0 then toString raw
  else
    let base := 10 ^ decimals
    let whole := toString (raw / base)
    let digits := (toString (raw % base)).toList
    let frac := (List.replicate (decimals - digits.length) '0' ++ digits).rdropWhile (· = '0')
    if frac.isEmpty then whole else whole ++ "." ++ String.ofList frac

def formatTokenAmount (raw : Nat) (mint : String) (decimalsHint : Option Nat) : String :=
  let known := mintMeta mint
  match (known.map MintMeta.decimals).or decimalsHint, known.map MintMeta.symbol with
  | none, some symbol => toString raw ++ " " ++ symbol
  | none, none => toString raw ++ " · mint " ++ shorten mint
  | some decimals, some symbol => formatUnits raw decimals ++ " " ++ symbol
  | some decimals, none => formatUnits raw decimals ++ " · mint " ++ shorten mint

example : formatUnits 1500000000 9 = "1.5" ∧ formatUnits 30 9 = "0.00000003" ∧ formatUnits 2000 3 = "2" := by
  decide +kernel

def windowPhrase (windowSeconds : Nat) : String :=
  if windowSeconds = 0 then "lifetime"
  else if windowSeconds = 86400 then "every day"
  else if windowSeconds = 604800 then "every week"
  else if windowSeconds = 2592000 then "every month"
  else if windowSeconds % 86400 = 0 then
    let days := windowSeconds / 86400
    "every " ++ toString days ++ " day" ++ (if days = 1 then "" else "s")
  else "every " ++ toString windowSeconds ++ "s"

/-- `readU32LE` and `readU64LE`: the number at an offset, where it fits. -/
def readLE (width : Nat) (data : Bytes) (offset : Nat) : Option Nat :=
  if data.length < offset + width then none else some (ByteSeq.ofLE ((data.drop offset).take width))

/-! ## Wallet policies -/

structure CapArg where
  cap : UInt64
  windowSeconds : UInt64
deriving DecidableEq, Repr

structure MintCapArg extends CapArg where
  mint : Pubkey
deriving DecidableEq, Repr

/-- `ProgramAccess`; nothing here reads more of the rules than their number. -/
inductive ProgramAccess
  | denied
  | allInstructions
  | restricted (rules : Nat)
deriving DecidableEq, Repr

structure ProgramPermissionArg where
  programId : Pubkey
  access : ProgramAccess
deriving DecidableEq, Repr

/-- The arguments of `set_wallet_policy`. -/
structure WalletPolicyData where
  solCap : Option CapArg
  mintCaps : List MintCapArg
  programPermissions : List ProgramPermissionArg
deriving DecidableEq, Repr

def accessLabel : ProgramAccess → String
  | .denied => "Denied"
  | .allInstructions => "All instructions"
  | .restricted rules => toString rules ++ " rule" ++ (if rules = 1 then "" else "s")

/-- The label of one of several entries. -/
def entryLabel (word : String) (count i : Nat) : String := if count = 1 then word else word ++ " " ++ toString (i + 1)

/-- Human rows for the `set_wallet_policy` payload. -/
def describeWalletPolicy (data : WalletPolicyData) : List DetailRow :=
  let sol := match data.solCap with
    | some sol => [⟨"SOL limit", formatUnits sol.cap.toNat 9 ++ " SOL"⟩,
        ⟨"SOL window", windowPhrase sol.windowSeconds.toNat⟩]
    | none => [⟨"SOL limit", "None"⟩]
  let mints := if data.mintCaps.isEmpty then [⟨"Token limits", "None"⟩]
    else data.mintCaps.zipIdx.flatMap fun (m, i) =>
      let word := entryLabel "Token" data.mintCaps.length i
      [⟨word ++ " limit", formatTokenAmount m.cap.toNat m.mint.text none⟩,
       ⟨word ++ " window", windowPhrase m.windowSeconds.toNat⟩]
  let programs := if data.programPermissions.isEmpty then [⟨"Programs", "Baseline only"⟩]
    else data.programPermissions.zipIdx.flatMap fun (p, i) =>
      [⟨entryLabel "Program" data.programPermissions.length i, shorten p.programId.text⟩,
       ⟨entryLabel "Access" data.programPermissions.length i, accessLabel p.access⟩]
  sol ++ mints ++ programs

/-! ## Inner instructions -/

/-- `accounts[i] ? shorten(accounts[i]) : "?"`. -/
def accountText (accounts : List String) (i : Nat) : String :=
  match accounts[i]? with
  | some account => if account = "" then "?" else shorten account
  | none => "?"

/-- What is shown of an instruction that is not decoded. -/
def opaqueRows (accounts : List String) (data : Bytes) : List DetailRow :=
  [⟨"Accounts", toString accounts.length⟩, ⟨"Data bytes", toString data.length⟩]

/-- The first accounts, numbered. -/
def numberedRows (accounts : List String) (n : Nat) : List DetailRow :=
  (accounts.take n).zipIdx.map fun (a, i) => ⟨"Account " ++ toString (i + 1), shorten a⟩

def describeSystem (accounts : List String) (data : Bytes) : ClearedInner :=
  match readLE 4 data 0, readLE 8 data 4 with
  | some 2, some lamports =>
    ⟨"Send " ++ formatUnits lamports 9 ++ " SOL", [⟨"From", accountText accounts 0⟩, ⟨"To", accountText accounts 1⟩]⟩
  | _, _ => ⟨"System program", opaqueRows accounts data⟩

def describeMemo (data : Bytes) : ClearedInner :=
  let chars := Utf8.decodeUtf8 data
  let text := if 80 < Utf8.utf16Length chars then Utf8.takeUnits 77 chars ++ ['…'] else chars
  ⟨"Memo", [⟨"Text", if text.isEmpty then "(empty)" else String.ofList text⟩]⟩

/-- `TransferChecked`. -/
def describeTransferChecked (kind : String) (accounts : List String) (amount decimals : Nat) : ClearedInner :=
  let mint := accounts[1]?.getD ""
  let amountLabel := if mint = "" then formatUnits amount decimals else formatTokenAmount amount mint (some decimals)
  ⟨"Send " ++ amountLabel ++ " (" ++ kind ++ ")",
    [⟨"Mint", if mint = "" then "?" else shorten mint⟩, ⟨"From", accountText accounts 0⟩, ⟨"To", accountText accounts 2⟩]⟩

/-- `Transfer`, which has no mint and no decimals. -/
def describeTransfer (kind : String) (accounts : List String) (amount : Nat) : ClearedInner :=
  ⟨"Send tokens (" ++ kind ++ ")",
    [⟨"Amount", toString amount⟩, ⟨"From", accountText accounts 0⟩, ⟨"To", accountText accounts 1⟩]⟩

def describeToken (kind : String) (accounts : List String) (data : Bytes) : ClearedInner :=
  match data.head?, readLE 8 data 1, data[9]? with
  | some 12, some amount, some decimals => describeTransferChecked kind accounts amount decimals.toNat
  | some 3, some amount, _ => describeTransfer kind accounts amount
  | _, _, _ => ⟨kind ++ " instruction", opaqueRows accounts data⟩

/-- Decode one compact CPI. -/
def describeInnerInstruction (programAddress : String) (accounts : List String) (data : Bytes) : ClearedInner :=
  if programAddress = systemText then describeSystem accounts data
  else if programAddress = memoText ∨ programAddress = memoV1Text then describeMemo data
  else if programAddress = tokenText then describeToken "Token" accounts data
  else if programAddress = token2022Text then describeToken "Token-2022" accounts data
  else if programAddress = ataText then
    ⟨if data.head? = some 1 then "Create token account" else "Associated token",
      [⟨"Owner", accountText accounts 2⟩, ⟨"Mint", accountText accounts 3⟩]⟩
  else if programAddress = metadataText then ⟨"Transfer pNFT (Token Metadata)", numberedRows accounts 4⟩
  else if programAddress = bubblegumText then ⟨"Transfer cNFT (Bubblegum)", opaqueRows accounts data⟩
  else if programAddress = coreText then ⟨"Transfer NFT (Core)", numberedRows accounts 3⟩
  else ⟨"Call " ++ shorten programAddress, opaqueRows accounts data⟩

end PhygitalWallet.Secure
