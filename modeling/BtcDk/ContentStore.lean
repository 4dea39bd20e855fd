import BtcDk.Wallet
import BtcDk.Database

/-!
# `ContentStore`

The store of `store.rs`, method by method.  A method runs against a `Node`: the store's fields
(trunk, database, wallet, outbound sender, stop flag) together with the journal of what has left
the process so far, the storage commits and the transactions pushed onto a channel.  A call ends
with `Ok`, with `Err` (a `?` on a failed result), or with a panic (a failed `expect` or
`unwrap`); in every case the changes it made before it ended stay, as they do in Rust.  The
block hash function and the wallet are parameters of every method.
-/

namespace BtcDk

/-- `ContentStore`'s fields. -/
structure ContentStore (W : Type) where
  trunk : Trunk
  db : Database
  wallet : W
  txout : Option PeerMessageSender
  stopped : Bool

/-- What leaves the process: a committed storage transaction, or a transaction sent on an
outbound channel. -/
inductive Effect where
  | committed (writes : List Write)
  | sent (txout : PeerMessageSender) (transaction : Transaction)
  deriving DecidableEq

/-- The store, and what it has committed and sent so far, oldest first. -/
structure Node (W : Type) where
  store : ContentStore W
  journal : List Effect

/-- How a method call ends. -/
inductive Outcome (α : Type) where
  | ok (value : α)
  | err (error : Error)
  | panic (message : String)
  deriving DecidableEq

/-- A method call: from the node before it, its outcome and the node after it. -/
def StoreM (W α : Type) : Type := Node W → Outcome α × Node W

variable {W α β : Type}

instance : Monad (StoreM W) where
  pure value node := (.ok value, node)
  bind action next node :=
    match action node with
    | (.ok value, node) => next value node
    | (.err error, node) => (.err error, node)
    | (.panic message, node) => (.panic message, node)

namespace Node

@[simps]
def setWallet (node : Node W) (state : W) : Node W :=
  { node with store := { node.store with wallet := state } }

@[simps]
def setStopped (node : Node W) (stopped : Bool) : Node W :=
  { node with store := { node.store with stopped := stopped } }

/-- A successful `commit()`: the database applies the writes, and the journal records them. -/
@[simps]
def commit (node : Node W) (txn : Txn) : Node W :=
  { store := { node.store with db := node.store.db.commit txn },
    journal := node.journal ++ [.committed txn.staged] }

/-- `txout.send(PeerMessage::Outgoing(NetworkMessage::Tx(transaction)))`. -/
@[simps]
def send (node : Node W) (txout : PeerMessageSender) (transaction : Transaction) : Node W :=
  { node with journal := node.journal ++ [.sent txout transaction] }

/-- `if let Some(ref txout) = self.txout { txout.send(...) }`. -/
def broadcast (node : Node W) (transaction : Transaction) : Node W :=
  match node.store.txout with
  | some txout => node.send txout transaction
  | none => node

end Node

namespace StoreM

def read (field : ContentStore W → α) : StoreM W α := fun node => (.ok (field node.store), node)

def modify (update : ContentStore W → ContentStore W) : StoreM W Unit :=
  fun node => (.ok (), { node with store := update node.store })

/-- The `?` operator on a `Result`. -/
def propagate : Except Error α → StoreM W α
  | .ok value => pure value
  | .error error => fun node => (.err error, node)

/-- `Result::expect`. -/
def expect (message : String) : Except Error α → StoreM W α
  | .ok value => pure value
  | .error _ => fun node => (.panic message, node)

/-- `Option::expect`, and `Option::unwrap` with the message it panics with. -/
def expectSome (message : String) : Option α → StoreM W α
  | some value => pure value
  | none => fun node => (.panic message, node)

/-- A `store_*` call on an open transaction: its result, as the caller sees it. -/
def store (write : Write) (txn : Txn) : StoreM W (Except Error Txn) :=
  fun node => (.ok (txn.store node.store.db write), node)

/-- `tx.commit()`.  `TX::commit` belongs to `crate::db`, whose code is not part of the modelled
source; the model assumes of it that it commits all the staged writes or panics. -/
def commit (txn : Txn) : StoreM W Unit := fun node =>
  if node.store.db.commitFails then (.panic "commit failed", node) else (.ok (), node.commit txn)

/-- The broadcast after a commit. -/
def broadcast (transaction : Transaction) : StoreM W Unit := fun node =>
  (.ok (), node.broadcast transaction)

@[simp]
theorem bind_apply (action : StoreM W α) (next : α → StoreM W β) (node : Node W) :
    (action >>= next) node =
      match action node with
      | (.ok value, node) => next value node
      | (.err error, node) => (.err error, node)
      | (.panic message, node) => (.panic message, node) := rfl

@[simp]
theorem pure_apply (value : α) (node : Node W) : (pure value : StoreM W α) node = (.ok value, node) :=
  rfl

@[simp]
theorem ite_apply (condition : Prop) [Decidable condition] (yes no : StoreM W α) (node : Node W) :
    (if condition then yes else no) node = if condition then yes node else no node := by
  split <;> rfl

@[simp]
theorem read_apply (field : ContentStore W → α) (node : Node W) :
    read field node = (.ok (field node.store), node) := rfl

@[simp]
theorem modify_apply (update : ContentStore W → ContentStore W) (node : Node W) :
    modify update node = (.ok (), { node with store := update node.store }) := rfl

@[simp]
theorem store_apply (write : Write) (txn : Txn) (node : Node W) :
    store write txn node = (.ok (txn.store node.store.db write), node) := rfl

@[simp]
theorem propagate_ok (value : α) : (propagate (.ok value) : StoreM W α) = pure value := rfl

@[simp]
theorem propagate_error_apply (error : Error) (node : Node W) :
    (propagate (.error error) : StoreM W α) node = (.err error, node) := rfl

@[simp]
theorem expect_ok (message : String) (value : α) : (expect message (.ok value) : StoreM W α) = pure value :=
  rfl

@[simp]
theorem expect_error_apply (message : String) (error : Error) (node : Node W) :
    (expect message (.error error) : StoreM W α) node = (.panic message, node) := rfl

@[simp]
theorem expectSome_some (message : String) (value : α) :
    (expectSome message (some value) : StoreM W α) = pure value := rfl

@[simp]
theorem expectSome_none_apply (message : String) (node : Node W) :
    (expectSome message none : StoreM W α) node = (.panic message, node) := rfl

theorem commit_apply (txn : Txn) (node : Node W) :
    commit txn node =
      if node.store.db.commitFails then (.panic "commit failed", node) else (.ok (), node.commit txn) :=
  rfl

theorem commit_setStopped (stopped : Bool) (txn : Txn) (node : Node W) :
    commit txn (node.setStopped stopped) =
      ((commit txn node).1, (commit txn node).2.setStopped stopped) := by
  simp only [commit_apply, Node.setStopped_store_db]
  split_ifs <;> rfl

end StoreM

open StoreM

/-- `ContentStore::new`: pure assembly; it never fails. -/
def ContentStore.new (db : Database) (trunk : Trunk) (wallet : W) : Except Error (ContentStore W) :=
  .ok { trunk, db, wallet, txout := none, stopped := false }

def setStopped (stopped : Bool) : StoreM W Unit := modify fun store => { store with stopped }

def getStopped : StoreM W Bool := read (·.stopped)

@[simp]
theorem setStopped_apply (stopped : Bool) (node : Node W) :
    setStopped stopped node = (.ok (), node.setStopped stopped) := rfl

@[simp]
theorem getStopped_apply (node : Node W) : getStopped node = (.ok node.store.stopped, node) := rfl

def setTxSender (txout : PeerMessageSender) : StoreM W Unit :=
  modify fun store => { store with txout := some txout }

section Methods

variable (bitcoinHash : BlockHeader → BlockHash) (wallet : Wallet W)

/-- `self.wallet.process(block)`. -/
def processBlock (block : Block) : StoreM W Bool := fun node =>
  let processed := wallet.process block node.store.wallet
  (.ok processed.1, node.setWallet processed.2)

/-- A wallet call on `&mut self` that may fail: the wallet keeps the state the call left,
whether it returned `Ok` or `Err`. -/
def walletTry (call : W → Except Error α × W) : StoreM W (Except Error α) := fun node =>
  let called := call node.store.wallet
  (.ok called.1, node.setWallet called.2)

def balance : StoreM W (List Nat) := do
  let store ← read id
  pure [wallet.balance store.wallet,
    wallet.availableBalance store.trunk.len store.trunk.getHeight store.wallet]

def depositAddress : StoreM W Address := do
  let nextKey ← read fun store => wallet.nextKey (0, 0) store.wallet
  let next ← expectSome "can not find 0/0 account" nextKey
  let address ← expect "can not generate receiver address in 0/0" (← walletTry fun _ => next)
  pure address

theorem depositAddress_apply (node : Node W) :
    depositAddress wallet node =
      match wallet.nextKey (0, 0) node.store.wallet with
      | none => (.panic "can not find 0/0 account", node)
      | some (.error _, state) =>
        (.panic "can not generate receiver address in 0/0", node.setWallet state)
      | some (.ok address, state) => (.ok address, node.setWallet state) := by
  simp only [depositAddress, bind_apply, read_apply]
  rcases wallet.nextKey (0, 0) node.store.wallet with _ | ⟨_ | _, state⟩ <;> rfl

theorem depositAddress_setWallet (node : Node W) :
    ∃ state, (depositAddress wallet node).2 = node.setWallet state := by
  rw [depositAddress_apply]
  rcases wallet.nextKey (0, 0) node.store.wallet with _ | ⟨_ | _, state⟩
  · exact ⟨node.store.wallet, rfl⟩
  · exact ⟨state, rfl⟩
  · exact ⟨state, rfl⟩

/-- The shared body of `fund` and `withdraw`: the wallet builds the transaction (`build`), then
one storage transaction records the spending account and the outgoing transaction, it is
committed, and the transaction is broadcast if a sender is bound. -/
def spend (build : Trunk → W → Except Error β × W) (transactionOf : β → Transaction)
    (accountKey : Nat × Nat) (funding : β → Option (PublicKey × Sha256Hash × UInt16)) :
    StoreM W β := do
  let trunk ← read (·.trunk)
  let built ← propagate (← walletTry (build trunk))
  let tx := Txn.begin
  let account ← expectSome "called `Option::unwrap()` on a `None` value"
    (← read fun store => wallet.account accountKey store.wallet)
  let tx ← propagate (← store (.account account) tx)
  let tx ← expect "can not store outgoing transaction"
    (← store (.txout (transactionOf built) (funding built)) tx)
  commit tx
  broadcast (transactionOf built)
  pure built

/-- `ContentStore::fund`: spends from account `1/0` and records the funder key, id and term. -/
def fund (id : Sha256Hash) (term : UInt16) (amount feePerVbyte : Nat) (passphrase : String) :
    StoreM W (Transaction × PublicKey × Nat) :=
  spend wallet
    (fun trunk => wallet.fund id term passphrase feePerVbyte amount trunk fun pk term =>
      term.map (fundingScript pk))
    (·.1) (1, 0) fun (_, funder, _) => some (funder, id, term)

/-- `ContentStore::withdraw`: spends from account `0/1` and records no funding data. -/
def withdraw (passphrase : String) (address : Address) (feePerVbyte : Nat) (amount : Option Nat) :
    StoreM W (Transaction × Nat) :=
  spend wallet (wallet.withdraw passphrase address feePerVbyte amount) (·.1) (0, 1) fun _ => none

theorem spend_apply (build : Trunk → W → Except Error β × W) (transactionOf : β → Transaction)
    (accountKey : Nat × Nat) (funding : β → Option (PublicKey × Sha256Hash × UInt16)) (node : Node W) :
    spend wallet build transactionOf accountKey funding node =
      match build node.store.trunk node.store.wallet with
      | (.error error, state) => (.err error, node.setWallet state)
      | (.ok built, state) =>
        let updated := node.setWallet state
        match wallet.account accountKey state with
        | none => (.panic "called `Option::unwrap()` on a `None` value", updated)
        | some account =>
          match Txn.begin.store node.store.db (.account account) with
          | .error error => (.err error, updated)
          | .ok txn =>
            match txn.store node.store.db (.txout (transactionOf built) (funding built)) with
            | .error _ => (.panic "can not store outgoing transaction", updated)
            | .ok txn =>
              if node.store.db.commitFails then (.panic "commit failed", updated)
              else (.ok built, (updated.commit txn).broadcast (transactionOf built)) := by
  simp only [spend, bind_apply, read_apply, walletTry]
  rcases build node.store.trunk node.store.wallet with ⟨error | built, state⟩
  · rfl
  · simp only [propagate_ok, pure_apply, read_apply, Node.setWallet_store_wallet,
      Node.setWallet_store_db]
    rcases wallet.account accountKey state with _ | account
    · rfl
    · simp only [expectSome_some, pure_apply, store_apply, Node.setWallet_store_db]
      rcases Txn.begin.store node.store.db (.account account) with error | txn
      · rfl
      · simp only [propagate_ok, pure_apply, store_apply, Node.setWallet_store_db]
        rcases txn.store node.store.db (.txout (transactionOf built) (funding built)) with error | staged
        · rfl
        · simp only [expect_ok, pure_apply, commit_apply, Node.setWallet_store_db]
          split_ifs <;> rfl

def getTip : StoreM W (Option BlockHash) := do
  pure ((← read (·.trunk.getTip)).map fun header => bitcoinHash header)

/-- `ContentStore::block_connected`; the height is only logged. -/
def blockConnected (block : Block) (_height : UInt32) : StoreM W Unit := do
  let mut tx := Txn.begin
  if (← processBlock wallet block) then
    tx ← propagate (← store (.coins (wallet.coins (← read (·.wallet)))) tx)
  tx ← propagate (← store (.processed (bitcoinHash block.header)) tx)
  commit tx

theorem blockConnected_apply (block : Block) (height : UInt32) (node : Node W) :
    blockConnected bitcoinHash wallet block height node =
      let processed := wallet.process block node.store.wallet
      let updated := node.setWallet processed.2
      match (if processed.1 then Txn.begin.store node.store.db (.coins (wallet.coins processed.2))
          else .ok Txn.begin) with
      | .error error => (.err error, updated)
      | .ok txn =>
        match txn.store node.store.db (.processed (bitcoinHash block.header)) with
        | .error error => (.err error, updated)
        | .ok txn => commit txn updated := by
  simp only [blockConnected, bind_apply, processBlock, StoreM.ite_apply]
  split_ifs <;> simp only [bind_apply, pure_apply, read_apply, store_apply,
    Node.setWallet_store_wallet, Node.setWallet_store_db]
  · rcases Txn.store node.store.db (.coins _) Txn.begin with error | txn
    · rfl
    · simp only [propagate_ok, pure_apply, Node.setWallet_store_db]
      rcases Txn.store node.store.db (.processed (bitcoinHash block.header)) txn with error | staged <;> rfl
  · rcases Txn.store node.store.db (.processed (bitcoinHash block.header)) Txn.begin with error | staged <;>
      rfl

theorem blockConnected_setStopped (stopped : Bool) (block : Block) (height : UInt32) (node : Node W) :
    blockConnected bitcoinHash wallet block height (node.setStopped stopped) =
      ((blockConnected bitcoinHash wallet block height node).1,
        (blockConnected bitcoinHash wallet block height node).2.setStopped stopped) := by
  simp only [blockConnected_apply, Node.setStopped_store_wallet, Node.setStopped_store_db]
  generalize (if (wallet.process block node.store.wallet).1 = true then _ else _ : Except Error Txn) =
    scanned
  rcases scanned with error | txn
  · rfl
  · dsimp only
    generalize Txn.store node.store.db _ txn = marked
    rcases marked with error | txn
    · rfl
    · exact commit_setStopped stopped txn (node.setWallet (wallet.process block node.store.wallet).2)

/-- `ContentStore::add_header`: a logging hook. -/
def addHeader (_height : UInt32) (_header : BlockHeader) : StoreM W Unit := pure ()

/-- `ContentStore::unwind_tip`. -/
def unwindTip (header : BlockHeader) : StoreM W Unit := do
  let tx ← propagate (← store (.processed header.prevBlockhash) Txn.begin)
  commit tx
  modify fun store => { store with wallet := wallet.unwindTip (bitcoinHash header) store.wallet }

theorem unwindTip_apply (header : BlockHeader) (node : Node W) :
    unwindTip bitcoinHash wallet header node =
      match Txn.begin.store node.store.db (.processed header.prevBlockhash) with
      | .ok txn =>
        if node.store.db.commitFails then (.panic "commit failed", node)
        else (.ok (), (node.commit txn).setWallet (wallet.unwindTip (bitcoinHash header) node.store.wallet))
      | .error error => (.err error, node) := by
  simp only [unwindTip, bind_apply, store_apply]
  rcases Txn.store node.store.db (.processed header.prevBlockhash) Txn.begin with error | txn
  · rfl
  · simp only [propagate_ok, pure_apply, commit_apply]
    split_ifs <;> rfl

theorem unwindTip_setStopped (stopped : Bool) (header : BlockHeader) (node : Node W) :
    unwindTip bitcoinHash wallet header (node.setStopped stopped) =
      ((unwindTip bitcoinHash wallet header node).1,
        (unwindTip bitcoinHash wallet header node).2.setStopped stopped) := by
  simp only [unwindTip_apply, Node.setStopped_store_wallet, Node.setStopped_store_db]
  rcases Txn.begin.store node.store.db (.processed header.prevBlockhash) with error | txn
  · rfl
  · split_ifs <;> rfl

end Methods

end BtcDk
