import BtcDk.ReferenceWallet

/-!
# Chain events across runs

Chain sync drives the store with `block_connected` and `unwind_tip`, and redelivers a block whose
event failed.  The design asks that what the database holds reflect the applied prefix
of the chain: the processed marker names the block on top, and the stored coin set is the
wallet's.  The marker half holds over every run that walks the chain, whatever the database
refuses along the way.  The coin half does not: `unwind_tip` rolls the wallet back without
storing its coins, and a connect that fails after the wallet absorbed the block is redelivered to
a wallet that no longer reports a change, so its coins are never stored.  The last section shows
that neither handler reads the stop flag: a stopped store handles every sequence of events as a
running one does.
-/

namespace BtcDk

open StoreM

variable {W : Type} (bitcoinHash : BlockHeader → BlockHash) (wallet : Wallet W)

/-- The writes a successful `block_connected` commits: the coin set when the scan changed the
wallet, then the processed marker. -/
def connectWrites (block : Block) (processed : Bool × W) : List Write :=
  (if processed.1 then [.coins (wallet.coins processed.2)] else []) ++
    [.processed (bitcoinHash block.header)]

/-- Every way `block_connected` can end: `Ok` after committing `connectWrites`, or any other
outcome with the wallet scanned and nothing committed. -/
theorem blockConnected_cases (block : Block) (height : UInt32) (node : Node W) :
    let processed := wallet.process block node.store.wallet
    let result := blockConnected bitcoinHash wallet block height node
    (result.1 = .ok () ∧
        result.2 = (node.setWallet processed.2).commit ⟨connectWrites bitcoinHash wallet block processed⟩) ∨
      (result.1 ≠ .ok () ∧ result.2 = node.setWallet processed.2) := by
  simp only [blockConnected_apply, connectWrites]
  split
  · exact .inr ⟨by simp, rfl⟩
  · rename_i staged coinsStaged
    split
    · exact .inr ⟨by simp, rfl⟩
    · rename_i committed markerStaged
      rw [commit_apply]
      split
      · exact .inr ⟨by simp, rfl⟩
      · refine .inl ⟨rfl, ?_⟩
        rw [Txn.store_eq_ok] at markerStaged
        split at coinsStaged
        · rw [Txn.store_eq_ok] at coinsStaged
          simp [markerStaged.2, coinsStaged.2, Txn.begin, *]
        · cases coinsStaged
          simp [markerStaged.2, Txn.begin, *]

/-- Every way `unwind_tip` can end: `Ok` after committing the predecessor as the marker and then
rolling the wallet back, or any other outcome with nothing changed. -/
theorem unwindTip_cases (header : BlockHeader) (node : Node W) :
    let result := unwindTip bitcoinHash wallet header node
    (result.1 = .ok () ∧
        result.2 = (node.commit ⟨[.processed header.prevBlockhash]⟩).setWallet
          (wallet.unwindTip (bitcoinHash header) node.store.wallet)) ∨
      (result.1 ≠ .ok () ∧ result.2 = node) := by
  simp only [unwindTip_apply]
  split
  · rename_i txn markerStaged
    rw [Txn.store_eq_ok] at markerStaged
    split
    · exact .inr ⟨by simp, rfl⟩
    · exact .inl ⟨rfl, by simp [markerStaged.2, Txn.begin]⟩
  · exact .inr ⟨by simp, rfl⟩

@[simp]
theorem connectWrites_processed (block : Block) (processed : Bool × W) (persisted : Persisted) :
    ((connectWrites bitcoinHash wallet block processed).foldl Persisted.apply persisted).processed =
      some (bitcoinHash block.header) := by
  unfold connectWrites
  split <;> simp [Persisted.apply]

@[simp]
theorem connectWrites_coins (block : Block) (processed : Bool × W) (persisted : Persisted) :
    ((connectWrites bitcoinHash wallet block processed).foldl Persisted.apply persisted).coins =
      if processed.1 then wallet.coins processed.2 else persisted.coins := by
  unfold connectWrites
  split <;> simp [Persisted.apply, *]

theorem blockConnected_of_accepts (block : Block) (height : UInt32) {node : Node W}
    (accepts : ∀ write, node.store.db.rejects write = none)
    (commits : node.store.db.commitFails = false) :
    (blockConnected bitcoinHash wallet block height node).1 = .ok () := by
  rw [blockConnected_apply]
  generalize wallet.process block node.store.wallet = processed
  obtain ⟨changed, state⟩ := processed
  cases changed <;> simp [Txn.store, accepts, commit_apply, commits]

/-- The block on top of the applied headers, or the base block when none is applied. -/
def topHash (base : BlockHash) : List BlockHeader → BlockHash
  | [] => base
  | header :: _ => bitcoinHash header

/-- Each applied header extends the one below it. -/
def Linked (base : BlockHash) : List BlockHeader → Prop
  | [] => True
  | header :: rest => header.prevBlockhash = topHash bitcoinHash base rest ∧ Linked base rest

/-- The store beside chain sync's view of it: the headers applied so far, newest first, over the
block the store started from. -/
structure ChainView (W : Type) where
  node : Node W
  base : BlockHash
  applied : List BlockHeader

/-- The database starts or stops refusing writes and commits. -/
@[simps]
def Node.setFaults (node : Node W) (rejects : Write → Option String) (commitFails : Bool) :
    Node W :=
  { node with store := { node.store with db := { node.store.db with rejects, commitFails } } }

/-- One event of a run that walks the chain: a block extending the top is connected, the top
block is delivered again, the top is unwound, or the database's failures change.  Chain sync
counts a block as applied, or as unwound, only when its event returns `Ok`. -/
inductive Walk : ChainView W → ChainView W → Prop
  | connect {view : ChainView W} {block : Block} (height : UInt32)
      (extendsTop : block.header.prevBlockhash = topHash bitcoinHash view.base view.applied) :
      Walk view
        { view with
          node := (blockConnected bitcoinHash wallet block height view.node).2
          applied :=
            if (blockConnected bitcoinHash wallet block height view.node).1 = .ok () then
              block.header :: view.applied
            else view.applied }
  | redeliver {view : ChainView W} {block : Block} {rest : List BlockHeader} (height : UInt32)
      (onTop : view.applied = block.header :: rest) :
      Walk view { view with node := (blockConnected bitcoinHash wallet block height view.node).2 }
  | unwind {view : ChainView W} {header : BlockHeader} {rest : List BlockHeader}
      (onTop : view.applied = header :: rest) :
      Walk view
        { view with
          node := (unwindTip bitcoinHash wallet header view.node).2
          applied :=
            if (unwindTip bitcoinHash wallet header view.node).1 = .ok () then rest
            else view.applied }
  | faults {view : ChainView W} (rejects : Write → Option String) (commitFails : Bool) :
      Walk view { view with node := view.node.setFaults rejects commitFails }

/-- The persisted marker names the top of the applied headers, which form a chain. -/
def MarkerTracksTop (view : ChainView W) : Prop :=
  view.node.store.db.persisted.processed = some (topHash bitcoinHash view.base view.applied) ∧
    Linked bitcoinHash view.base view.applied

/-- One event of a walk keeps the marker on the top, whether it returns `Ok`, `Err` or panics. -/
theorem Walk.markerTracksTop {view view' : ChainView W} (walk : Walk bitcoinHash wallet view view')
    (tracks : MarkerTracksTop bitcoinHash view) : MarkerTracksTop bitcoinHash view' := by
  obtain ⟨marker, linked⟩ := tracks
  cases walk with
  | @connect block height extendsTop =>
    rcases blockConnected_cases bitcoinHash wallet block height view.node with ⟨ok, after⟩ | ⟨notOk, after⟩
    · simp only [MarkerTracksTop, ok, if_true, after]
      exact ⟨by simp [Database.commit, topHash], extendsTop, linked⟩
    · simp only [MarkerTracksTop, notOk, if_false, after]
      exact ⟨by simpa using marker, linked⟩
  | @redeliver block _ height onTop =>
    rcases blockConnected_cases bitcoinHash wallet block height view.node with ⟨-, after⟩ | ⟨-, after⟩
    · simp only [MarkerTracksTop, after]
      exact ⟨by simp [Database.commit, onTop, topHash], linked⟩
    · simp only [MarkerTracksTop, after]
      exact ⟨by simpa using marker, linked⟩
  | @unwind header _ onTop =>
    rw [onTop] at linked
    rcases unwindTip_cases bitcoinHash wallet header view.node with ⟨ok, after⟩ | ⟨notOk, after⟩
    · simp only [MarkerTracksTop, ok, if_true, after]
      exact ⟨by simp [Database.commit, Persisted.apply, linked.1], linked.2⟩
    · simp only [MarkerTracksTop, notOk, if_false, after, onTop]
      exact ⟨by rw [← onTop]; exact marker, linked⟩
  | faults rejects commitFails => exact ⟨marker, linked⟩

theorem markerTracksTop_fresh {view : ChainView W} (fresh : view.applied = [])
    (marker : view.node.store.db.persisted.processed = some view.base) :
    MarkerTracksTop bitcoinHash view := by
  simp [MarkerTracksTop, fresh, marker, topHash, Linked]

/-- Over every walk, from a store whose marker names the block it starts from, the persisted
marker names the block on top of the applied headers after every event. -/
theorem markerTracksTop_of_walk {start view : ChainView W}
    (walked : Relation.ReflTransGen (Walk bitcoinHash wallet) start view)
    (fresh : start.applied = []) (marker : start.node.store.db.persisted.processed = some start.base) :
    view.node.store.db.persisted.processed = some (topHash bitcoinHash view.base view.applied) := by
  suffices MarkerTracksTop bitcoinHash view from this.1
  induction walked with
  | refl => exact markerTracksTop_fresh bitcoinHash fresh marker
  | tail _ step tracks => exact step.markerTracksTop bitcoinHash wallet tracks

theorem genesis_marker_after_connect :
    (blockConnected nonceHash referenceWallet payingBlock 1 genesisNode).2.store.db.persisted.processed =
      some (topHash nonceHash 0
        (if (blockConnected nonceHash referenceWallet payingBlock 1 genesisNode).1 = .ok () then
          [payingBlock.header]
        else [])) :=
  markerTracksTop_of_walk nonceHash referenceWallet
    (.single (@Walk.connect _ nonceHash referenceWallet ⟨genesisNode, 0, []⟩ payingBlock 1 rfl)) rfl rfl

/-- The persisted coin set is the wallet's. -/
def CoinsSynced (node : Node W) : Prop :=
  node.store.db.persisted.coins = wallet.coins node.store.wallet

instance (node : Node W) : Decidable (CoinsSynced wallet node) :=
  inferInstanceAs (Decidable (_ = _))

theorem blockConnected_keeps_synced
    (reportsChange : ∀ block state, wallet.coins (wallet.process block state).2 ≠ wallet.coins state →
      (wallet.process block state).1 = true)
    {block : Block} {height : UInt32} {node : Node W} (synced : CoinsSynced wallet node)
    (ok : (blockConnected bitcoinHash wallet block height node).1 = .ok ()) :
    CoinsSynced wallet (blockConnected bitcoinHash wallet block height node).2 := by
  rcases blockConnected_cases bitcoinHash wallet block height node with ⟨-, after⟩ | ⟨notOk, -⟩
  · rw [CoinsSynced, after]
    simp only [Node.commit_store_db, Database.commit, connectWrites_coins, Node.setWallet_store_db,
      Node.commit_store_wallet, Node.setWallet_store_wallet]
    split
    · rfl
    · rename_i unchanged
      rw [synced, not_not.1 (mt (reportsChange block node.store.wallet) unchanged)]
  · exact absurd ok notOk

/-- A step that keeps the coins in step: a `block_connected` that returns `Ok`, whatever the
block, or a change of the database's failures. -/
inductive OkConnect : Node W → Node W → Prop
  | connect {node : Node W} (block : Block) (height : UInt32)
      (ok : (blockConnected bitcoinHash wallet block height node).1 = .ok ()) :
      OkConnect node (blockConnected bitcoinHash wallet block height node).2
  | faults (node : Node W) (rejects : Write → Option String) (commitFails : Bool) :
      OkConnect node (node.setFaults rejects commitFails)

/-- Over every run in which each `block_connected` returns `Ok` and nothing is unwound, the
persisted coin set stays equal to the coins of a wallet whose scan reports every change. -/
theorem coinsSynced_of_okConnects
    (reportsChange : ∀ block state, wallet.coins (wallet.process block state).2 ≠ wallet.coins state →
      (wallet.process block state).1 = true)
    {start node : Node W}
    (run : Relation.ReflTransGen (OkConnect bitcoinHash wallet) start node)
    (synced : CoinsSynced wallet start) : CoinsSynced wallet node := by
  induction run with
  | refl => exact synced
  | tail _ step ih =>
    cases step with
    | connect block height ok =>
      exact blockConnected_keeps_synced bitcoinHash wallet reportsChange ih ok
    | faults => exact ih

theorem payingBlock_keeps_synced :
    CoinsSynced referenceWallet (blockConnected nonceHash referenceWallet payingBlock 1 genesisNode).2 :=
  coinsSynced_of_okConnects nonceHash referenceWallet
    (fun block state => (referenceWallet_lawful.process_changed block state).2)
    (.single (.connect payingBlock 1 (by decide))) (by decide)

/-- Connecting a block that changed a lawful wallet and then unwinding it, both with `Ok`,
restores the wallet's coins and moves the marker back to the block's parent, as the round trip
asks; but the persisted coins stay those the block brought, so they no longer match the
wallet's. -/
theorem blockConnected_unwindTip_round_trip (lawful : wallet.Lawful bitcoinHash) {block : Block}
    {height : UInt32} {node : Node W} (changes : (wallet.process block node.store.wallet).1 = true)
    (connected : (blockConnected bitcoinHash wallet block height node).1 = .ok ())
    (unwound : (unwindTip bitcoinHash wallet block.header
      (blockConnected bitcoinHash wallet block height node).2).1 = .ok ()) :
    let after := (unwindTip bitcoinHash wallet block.header
      (blockConnected bitcoinHash wallet block height node).2).2
    wallet.coins after.store.wallet = wallet.coins node.store.wallet ∧
      after.store.db.persisted.processed = some block.header.prevBlockhash ∧
      after.store.db.persisted.coins = wallet.coins (wallet.process block node.store.wallet).2 ∧
      ¬ CoinsSynced wallet after := by
  rcases blockConnected_cases bitcoinHash wallet block height node with ⟨-, absorbed⟩ | ⟨notOk, -⟩
  · rcases unwindTip_cases bitcoinHash wallet block.header
        (blockConnected bitcoinHash wallet block height node).2 with ⟨-, rolledBack⟩ | ⟨notOk, -⟩
    · have restored := lawful.unwindTip_process block node.store.wallet changes
      have changed := (lawful.process_changed block node.store.wallet).1 changes
      rw [rolledBack]
      simp only [absorbed, CoinsSynced, Node.setWallet_store_wallet,
        Node.setWallet_store_db, Node.commit_store_db, Node.commit_store_wallet, Database.commit,
        List.foldl_cons, List.foldl_nil, Persisted.apply, connectWrites_coins, changes, if_true]
      exact ⟨restored, trivial, trivial, by rw [restored]; exact changed⟩
    · exact absurd unwound notOk
  · exact absurd connected notOk

/-- A block whose connect failed after the scan changed a lawful wallet, redelivered once the
database accepts every write, connects with `Ok`, yet its coins are never stored: the wallet has
absorbed the block, so the second scan reports no change. -/
theorem redelivered_blockConnected_desyncs (lawful : wallet.Lawful bitcoinHash) {block : Block}
    {height : UInt32} {node : Node W} (synced : CoinsSynced wallet node)
    (changes : (wallet.process block node.store.wallet).1 = true)
    (failed : (blockConnected bitcoinHash wallet block height node).1 ≠ .ok ())
    {rejects : Write → Option String} (accepts : ∀ write, rejects write = none) :
    let redelivered := blockConnected bitcoinHash wallet block height
      ((blockConnected bitcoinHash wallet block height node).2.setFaults rejects false)
    redelivered.1 = .ok () ∧ ¬ CoinsSynced wallet redelivered.2 := by
  rcases blockConnected_cases bitcoinHash wallet block height node with ⟨ok, -⟩ | ⟨-, absorbed⟩
  · exact absurd ok failed
  · have healed := @blockConnected_of_accepts _ bitcoinHash wallet block height
      ((blockConnected bitcoinHash wallet block height node).2.setFaults rejects false) accepts rfl
    refine ⟨healed, ?_⟩
    rcases blockConnected_cases bitcoinHash wallet block height
        ((blockConnected bitcoinHash wallet block height node).2.setFaults rejects false) with
      ⟨-, stored⟩ | ⟨notOk, -⟩
    · have again := lawful.process_idempotent block node.store.wallet
      have changed := (lawful.process_changed block node.store.wallet).1 changes
      rw [CoinsSynced, stored]
      simp only [absorbed, Node.commit_store_db, Node.commit_store_wallet, Database.commit,
        Node.setWallet_store_db, Node.setWallet_store_wallet, Node.setFaults_store_db_persisted,
        Node.setFaults_store_wallet, connectWrites_coins, again, if_false]
      rw [synced]
      exact changed.symm
    · exact absurd healed notOk

/-- Once `block_connected(b)` has returned `Ok`, delivering `b` again is a safe no-op for a wallet
that absorbs `b` only once: whatever the database refuses by then and whatever the redelivery
returns, the wallet and the database's contents stay as the first delivery left them. -/
theorem blockConnected_redelivery_noop {block : Block}
    (idempotent : ∀ state, wallet.process block (wallet.process block state).2 =
      (false, (wallet.process block state).2))
    {height height' : UInt32} {node : Node W}
    (connected : (blockConnected bitcoinHash wallet block height node).1 = .ok ())
    (rejects : Write → Option String) (commitFails : Bool) :
    (blockConnected bitcoinHash wallet block height'
        ((blockConnected bitcoinHash wallet block height node).2.setFaults rejects
          commitFails)).2.store.wallet =
      (blockConnected bitcoinHash wallet block height node).2.store.wallet ∧
    (blockConnected bitcoinHash wallet block height'
        ((blockConnected bitcoinHash wallet block height node).2.setFaults rejects
          commitFails)).2.store.db.persisted =
      (blockConnected bitcoinHash wallet block height node).2.store.db.persisted := by
  rcases blockConnected_cases bitcoinHash wallet block height node with ⟨-, first⟩ | ⟨notOk, -⟩
  · generalize (blockConnected bitcoinHash wallet block height node).2 = after at first ⊢
    have marked : after.store.db.persisted.processed = some (bitcoinHash block.header) := by
      simp [first, Database.commit]
    have again : wallet.process block after.store.wallet = (false, after.store.wallet) := by
      rw [first]; exact idempotent _
    rcases blockConnected_cases bitcoinHash wallet block height' (after.setFaults rejects commitFails)
      with ⟨-, second⟩ | ⟨-, second⟩
    · rw [second]
      simp [Database.commit, connectWrites, again, Persisted.apply, ← marked]
    · rw [second, Node.setFaults_store_wallet, again]
      exact ⟨rfl, rfl⟩
  · exact absurd connected notOk

theorem payingBlock_redelivery_noop :
    (blockConnected nonceHash referenceWallet payingBlock 1
        ((blockConnected nonceHash referenceWallet payingBlock 1 genesisNode).2.setFaults
          (fun _ => none) true)).2.store.wallet =
      (blockConnected nonceHash referenceWallet payingBlock 1 genesisNode).2.store.wallet ∧
    (blockConnected nonceHash referenceWallet payingBlock 1
        ((blockConnected nonceHash referenceWallet payingBlock 1 genesisNode).2.setFaults
          (fun _ => none) true)).2.store.db.persisted =
      (blockConnected nonceHash referenceWallet payingBlock 1 genesisNode).2.store.db.persisted :=
  blockConnected_redelivery_noop nonceHash referenceWallet
    (referenceWallet_lawful.process_idempotent payingBlock) (by decide) (fun _ => none) true

/-- A database that refuses every coin-set write. -/
def refuseCoins : Write → Option String
  | .coins _ => some "disk full"
  | _ => none

/-- The two ways the coin set falls out of step, from the fresh store: connecting `payingBlock`
and unwinding it both return `Ok` and leave the unwound coin persisted; connecting it while coin
writes are refused fails after the wallet has absorbed it, and its redelivery returns `Ok`
without ever storing the coin. -/
theorem chainSync_desyncs_coins :
    (blockConnected nonceHash referenceWallet payingBlock 1 genesisNode).1 = .ok () ∧
      (unwindTip nonceHash referenceWallet payingBlock.header
        (blockConnected nonceHash referenceWallet payingBlock 1 genesisNode).2).1 = .ok () ∧
      ¬ CoinsSynced referenceWallet (unwindTip nonceHash referenceWallet payingBlock.header
        (blockConnected nonceHash referenceWallet payingBlock 1 genesisNode).2).2 ∧
      (blockConnected nonceHash referenceWallet payingBlock 1
        (genesisNode.setFaults refuseCoins false)).1 = .err (.storage "disk full") ∧
      (blockConnected nonceHash referenceWallet payingBlock 1
        ((blockConnected nonceHash referenceWallet payingBlock 1
          (genesisNode.setFaults refuseCoins false)).2.setFaults (fun _ => none) false)).1 = .ok () ∧
      ¬ CoinsSynced referenceWallet (blockConnected nonceHash referenceWallet payingBlock 1
        ((blockConnected nonceHash referenceWallet payingBlock 1
          (genesisNode.setFaults refuseCoins false)).2.setFaults (fun _ => none) false)).2 := by
  have unwound := @blockConnected_unwindTip_round_trip _ nonceHash referenceWallet
    referenceWallet_lawful payingBlock 1 genesisNode (by decide) (by decide) (by decide)
  have redelivered := @redelivered_blockConnected_desyncs _ nonceHash referenceWallet
    referenceWallet_lawful payingBlock 1 (genesisNode.setFaults refuseCoins false) (by decide)
    (by decide) (by decide) _ fun _ => rfl
  exact ⟨by decide, by decide, unwound.2.2.2, by decide, redelivered⟩

/-! ## The stop flag -/

/-- A chain-sync event. -/
inductive ChainEvent where
  | connect (block : Block) (height : UInt32)
  | unwind (header : BlockHeader)

/-- The handler of an event. -/
def ChainEvent.run : ChainEvent → StoreM W Unit
  | .connect block height => blockConnected bitcoinHash wallet block height
  | .unwind header => unwindTip bitcoinHash wallet header

/-- Events handled one after another, with the outcome of each; an event that fails does not
stop the ones after it. -/
def runEvents : List ChainEvent → Node W → List (Outcome Unit) × Node W
  | [], node => ([], node)
  | event :: rest, node =>
    let handled := event.run bitcoinHash wallet node
    let after := runEvents rest handled.2
    (handled.1 :: after.1, after.2)

theorem runEvents_setStopped (stopped : Bool) (events : List ChainEvent) (node : Node W) :
    runEvents bitcoinHash wallet events (node.setStopped stopped) =
      ((runEvents bitcoinHash wallet events node).1,
        (runEvents bitcoinHash wallet events node).2.setStopped stopped) := by
  induction events generalizing node with
  | nil => rfl
  | cons event rest ih =>
    have handled : event.run bitcoinHash wallet (node.setStopped stopped) =
        ((event.run bitcoinHash wallet node).1,
          (event.run bitcoinHash wallet node).2.setStopped stopped) := by
      cases event with
      | connect block height => exact blockConnected_setStopped bitcoinHash wallet stopped block height node
      | unwind header => exact unwindTip_setStopped bitcoinHash wallet stopped header node
    simp only [runEvents, handled, ih]

/-- `set_stopped` records the flag, which `get_stopped` returns; the chain-event handlers never
read it: over every sequence of `block_connected` and `unwind_tip` events, a stopped store gets
the outcomes a running one gets and ends with the same wallet and database. -/
theorem chainEvents_ignore_stopped (stopped : Bool) (node : Node W) :
    (getStopped (setStopped stopped node).2).1 = .ok stopped ∧
      ∀ events : List ChainEvent,
        runEvents bitcoinHash wallet events (setStopped stopped node).2 =
          ((runEvents bitcoinHash wallet events node).1,
            (runEvents bitcoinHash wallet events node).2.setStopped stopped) :=
  ⟨rfl, fun events => runEvents_setStopped bitcoinHash wallet stopped events node⟩

/-- A store stopped by `set_stopped(true)` still absorbs a block that pays its wallet, and moves
its marker. -/
theorem stopped_store_absorbs_block :
    (blockConnected nonceHash referenceWallet payingBlock 1
        (setStopped true genesisNode).2).2.store.stopped = true ∧
      referenceWallet.coins (blockConnected nonceHash referenceWallet payingBlock 1
          (setStopped true genesisNode).2).2.store.wallet ≠
        referenceWallet.coins (setStopped true genesisNode).2.store.wallet ∧
      (blockConnected nonceHash referenceWallet payingBlock 1
          (setStopped true genesisNode).2).2.store.db.persisted.processed ≠
        (setStopped true genesisNode).2.store.db.persisted.processed := by
  decide

end BtcDk
