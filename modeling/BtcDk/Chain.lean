import BtcDk.FundingScript

/-!
# Blocks, transactions, and the collaborators' records

The data `ContentStore` passes between its collaborators: blocks and headers from chain sync,
transactions built by the wallet, the wallet's coins and accounts that the database stores, the
read-only trunk, and the error type of the crate.  Hashes are natural numbers here: the store
only ever compares them.  Fields nothing in the store reads are left out (see `MODEL_MAP.json`).
-/

namespace BtcDk

/-- A block hash (`sha256d::Hash`). -/
abbrev BlockHash := Nat

/-- A transaction id or the funding id of `fund` (`sha256::Hash`). -/
abbrev Sha256Hash := Nat

/-- `OutPoint`: an output of an earlier transaction. -/
structure OutPoint where
  txid : Sha256Hash
  vout : Nat
  deriving DecidableEq, Repr

/-- `TxOut`: a value locked by a script. -/
structure TxOut where
  value : Nat
  scriptPubkey : List UInt8
  deriving DecidableEq, Repr

/-- `Transaction`, by the outputs it spends and the outputs it creates. -/
structure Transaction where
  input : List OutPoint
  output : List TxOut
  deriving DecidableEq, Repr

/-- `BlockHeader`; `bitcoin_hash` is a parameter of the functions that need it. -/
structure BlockHeader where
  version : Nat
  prevBlockhash : BlockHash
  merkleRoot : Sha256Hash
  time : Nat
  bits : Nat
  nonce : Nat
  deriving DecidableEq, Repr

/-- `Block`. -/
structure Block where
  header : BlockHeader
  txdata : List Transaction
  deriving DecidableEq, Repr

/-- A coin of the wallet: an unspent output it controls, and the block that brought it. -/
structure Coin where
  outpoint : OutPoint
  output : TxOut
  block : BlockHash
  deriving DecidableEq, Repr

/-- The wallet's coin set (`coins::Coins`), as `store_coins` writes it. -/
abbrev Coins := List Coin

/-- An HD account of the wallet's master account (`account::Account`), keyed by its account and
sub-account numbers, with the number of keys it has handed out. -/
structure Account where
  accountNumber : Nat
  subAccountNumber : Nat
  nextIndex : Nat
  deriving DecidableEq, Repr

/-- The key `MasterAccount::get` looks an account up by. -/
def Account.key (account : Account) : Nat × Nat := (account.accountNumber, account.subAccountNumber)

/-- `crate::error::Error`, by where it comes from. -/
inductive Error where
  | wallet (message : String)
  | storage (message : String)
  deriving DecidableEq, Repr

/-- Modelled from the spec: what `ContentStore` asks of the read-only `Trunk` (section 6), its
length, the height of a block, and its tip. -/
structure Trunk where
  len : Nat
  getHeight : BlockHash → Option Nat
  getTip : Option BlockHeader

/-- The sending end of an outbound peer-message channel (`PeerMessageSender`), by the channel it
feeds. -/
structure PeerMessageSender where
  channel : Nat
  deriving DecidableEq, Repr

end BtcDk
