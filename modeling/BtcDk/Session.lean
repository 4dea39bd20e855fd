import BtcDk.Journal

/-!
# Chain sync beside the other calls

`SharedContentStore` is an `Arc<RwLock<ContentStore>>`: chain sync's thread calls
`block_connected` and `unwind_tip` while the application's threads call the payment methods, the
queries and the setters, and the lock orders all of them into one sequence of calls.  A session
is such a sequence: chain sync's walk over the chain interleaved with any other calls and with
moves of the trunk.  No call other than the two chain events writes the processed marker, so in
every interleaving the marker still names the block on top of the applied headers after every
call.
-/

namespace BtcDk

variable {W β : Type} (bitcoinHash : BlockHeader → BlockHash) (wallet : Wallet W)

/-- The calls other than the two chain events. -/
def Call.OffChain : Call → Prop
  | .blockConnected _ _ | .unwindTip _ => False
  | _ => True

theorem spend_processed (build : Trunk → W → Except Error β × W)
    (transactionOf : β → Transaction) (accountKey : Nat × Nat)
    (funding : β → Option (PublicKey × Sha256Hash × UInt16)) (node : Node W) :
    (spend wallet build transactionOf accountKey funding node).2.store.db.persisted.processed =
      node.store.db.persisted.processed := by
  rcases spend_cases wallet build transactionOf accountKey funding node with
    ⟨_, state, account, -, -, -, -, -, ended⟩ | ⟨-, state, kept⟩
  · rw [ended]; simp [Database.commit, Persisted.apply]
  · rw [kept]; rfl

/-- No call other than a chain event touches the processed marker. -/
theorem Call.run_processed {call : Call} (offChain : call.OffChain) (node : Node W) :
    (call.run bitcoinHash wallet node).store.db.persisted.processed =
      node.store.db.persisted.processed := by
  cases call with
  | blockConnected | unwindTip => exact offChain.elim
  | setStopped | getStopped | setTxSender | balance | getTip | addHeader => rfl
  | depositAddress =>
    obtain ⟨state, after⟩ := depositAddress_setWallet wallet node
    rw [Call.run, after]; rfl
  | fund | withdraw => exact spend_processed wallet _ _ _ _ node

/-- One step of a session: an event of chain sync's walk, any other call, or a move of the
trunk. -/
inductive Session : ChainView W → ChainView W → Prop
  | chain {view view' : ChainView W} (walk : Walk bitcoinHash wallet view view') :
      Session view view'
  | call {view : ChainView W} (call : Call) (offChain : call.OffChain) :
      Session view { view with node := call.run bitcoinHash wallet view.node }
  | trunk {view : ChainView W} (trunk : Trunk) :
      Session view { view with node := view.node.setTrunk trunk }

theorem Session.markerTracksTop {view view' : ChainView W}
    (step : Session bitcoinHash wallet view view') (tracks : MarkerTracksTop bitcoinHash view) :
    MarkerTracksTop bitcoinHash view' := by
  cases step with
  | chain walk => exact walk.markerTracksTop bitcoinHash wallet tracks
  | call call offChain =>
    exact ⟨(call.run_processed bitcoinHash wallet offChain view.node).trans tracks.1, tracks.2⟩
  | trunk => exact tracks

/-- In every interleaving of chain sync's walk with the other calls, from a store whose marker
names the block it starts from, the persisted marker names the block on top of the applied
headers after every call. -/
theorem markerTracksTop_of_session {start view : ChainView W}
    (session : Relation.ReflTransGen (Session bitcoinHash wallet) start view)
    (fresh : start.applied = [])
    (marker : start.node.store.db.persisted.processed = some start.base) :
    view.node.store.db.persisted.processed = some (topHash bitcoinHash view.base view.applied) := by
  suffices MarkerTracksTop bitcoinHash view from this.1
  induction session with
  | refl => exact markerTracksTop_fresh bitcoinHash fresh marker
  | tail _ step tracks => exact step.markerTracksTop bitcoinHash wallet tracks

/-- Block 2, on block 1, paying 3000 to the script `OP_TRUE`. -/
def secondBlock : Block := ⟨⟨1, 1, 0, 0, 0, 2⟩, [⟨[], [⟨3000, [0x51]⟩]⟩]⟩

/-- A session on the store with a coin and a bound sender, over a database that accepts
everything: a withdrawal commits its records and sends, then chain sync connects block 2. -/
theorem withdraw_then_connect_marker :
    (blockConnected nonceHash referenceWallet secondBlock 2
        (Call.run nonceHash referenceWallet
          (.withdraw "" ⟨.bitcoin, .witnessProgram 0 []⟩ 1 (some 1000))
          (refusingNode.setFaults (fun _ => none) false))).1 = .ok () ∧
    (blockConnected nonceHash referenceWallet secondBlock 2
        (Call.run nonceHash referenceWallet
          (.withdraw "" ⟨.bitcoin, .witnessProgram 0 []⟩ 1 (some 1000))
          (refusingNode.setFaults (fun _ => none) false))).2.store.db.persisted.processed =
      some (topHash nonceHash 1
        (if (blockConnected nonceHash referenceWallet secondBlock 2
            (Call.run nonceHash referenceWallet
              (.withdraw "" ⟨.bitcoin, .witnessProgram 0 []⟩ 1 (some 1000))
              (refusingNode.setFaults (fun _ => none) false))).1 = .ok () then
          [secondBlock.header]
        else [])) :=
  ⟨by decide, markerTracksTop_of_session nonceHash referenceWallet
    (.tail (.single (@Session.call _ nonceHash referenceWallet
        ⟨refusingNode.setFaults (fun _ => none) false, 1, []⟩
        (.withdraw "" ⟨.bitcoin, .witnessProgram 0 []⟩ 1 (some 1000)) trivial))
      (.chain (@Walk.connect _ nonceHash referenceWallet _ secondBlock 2 rfl)))
    rfl rfl⟩

end BtcDk
