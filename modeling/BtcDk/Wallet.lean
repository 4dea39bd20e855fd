import BtcDk.Chain

/-!
# The wallet, as `ContentStore` sees it

`crate::wallet::Wallet` is a collaborator of the store whose code is not part of this model.
`Wallet W` lists the calls `ContentStore` makes on it, over the wallet's state `W`.  A call that
takes `&mut self` returns the wallet's state after it beside its result, also beside an `Err`:
such a call may change the wallet before it fails, and the store keeps whatever it left.
`Wallet.Lawful` is the contract the chain-event handlers rely on: `process` reports exactly the
blocks that change the coins, absorbing a block twice changes nothing, and `unwind_tip` takes
back what the block brought.
-/

namespace BtcDk

/-- Modelled from the spec: the calls `ContentStore` makes on its wallet (section 6 of the
design), over the wallet state `W`, with the signatures `store.rs` calls them with. -/
structure Wallet (W : Type) where
  /-- `process(block)`: scan a block; `true` when the wallet changed. -/
  process : Block → W → Bool × W
  /-- `coins()`, the coin set `store_coins` persists. -/
  coins : W → Coins
  /-- `balance()`. -/
  balance : W → Nat
  /-- `available_balance(trunk_len, height_of)`. -/
  availableBalance : Nat → (BlockHash → Option Nat) → W → Nat
  /-- `unwind_tip(block_hash)`: undo what the block brought. -/
  unwindTip : BlockHash → W → W
  /-- `fund(id, term, passphrase, fee_per_vbyte, amount, trunk, script_for)`: the funding
  transaction, the funder's key and the fee; `script_for` yields `none` where the store's closure
  would panic on `term.unwrap()`. -/
  fund : Sha256Hash → UInt16 → String → Nat → Nat → Trunk →
    (PublicKey → Option UInt16 → Option (List UInt8)) → W →
      Except Error (Transaction × PublicKey × Nat) × W
  /-- `withdraw(passphrase, address, fee_per_vbyte, amount, trunk)`: the transaction and its fee. -/
  withdraw : String → Address → Nat → Option Nat → Trunk → W →
    Except Error (Transaction × Nat) × W
  /-- `master.get((account, sub_account))`. -/
  account : Nat × Nat → W → Option Account
  /-- `master.get_mut(key)` followed by `next_key()`: `none` when there is no such account. -/
  nextKey : Nat × Nat → W → Option (Except Error Address × W)

variable {W : Type}

/-- Modelled from the spec (4.5 and 9): the wallet's contract for the chain-event handlers, over
the block hash function. -/
structure Wallet.Lawful (bitcoinHash : BlockHeader → BlockHash) (wallet : Wallet W) : Prop where
  /-- `process` returns `true` exactly when it changed the coins. -/
  process_changed : ∀ block state,
    (wallet.process block state).1 = true ↔
      wallet.coins (wallet.process block state).2 ≠ wallet.coins state
  /-- A block already absorbed is absorbed again without change. -/
  process_idempotent : ∀ block state,
    wallet.process block (wallet.process block state).2 = (false, (wallet.process block state).2)
  /-- Unwinding a block that changed the wallet restores the coins from before it. -/
  unwindTip_process : ∀ block state, (wallet.process block state).1 = true →
    wallet.coins (wallet.unwindTip (bitcoinHash block.header) (wallet.process block state).2) =
      wallet.coins state

end BtcDk
