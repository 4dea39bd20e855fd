import BtcDk.ReferenceWallet

/-!
# Paying out: `fund` and `withdraw`

Both calls run one body: the wallet builds and signs the transaction, one storage transaction
records the spending account and the outgoing transaction, it is committed, and the transaction
is broadcast if a sender is bound.  `spend_cases` says every way that body can end; the rest of
the development reads `fund` and `withdraw` through it.  A call that does not return `Ok` has
committed nothing and sent nothing, but it does not undo the wallet's own change: when the
database refuses the account record, the wallet has already spent its coins and handed out a
change key, and the `?` returns the error with the wallet as the build left it.
-/

namespace BtcDk

open StoreM

variable {W β : Type} (wallet : Wallet W)

/-- What a successful spend adds to the journal: the commit of the account and the outgoing
transaction, then the send when a sender is bound. -/
def spendEffects (txout : Option PeerMessageSender) (account : Account) (transaction : Transaction)
    (funding : Option (PublicKey × Sha256Hash × UInt16)) : List Effect :=
  .committed [.account account, .txout transaction funding] ::
    match txout with
    | some txout => [.sent txout transaction]
    | none => []

@[simp]
theorem Node.broadcast_store (node : Node W) (transaction : Transaction) :
    (node.broadcast transaction).store = node.store := by
  unfold Node.broadcast
  split <;> rfl

theorem Node.broadcast_journal (node : Node W) (transaction : Transaction) :
    (node.broadcast transaction).journal =
      node.journal ++ match node.store.txout with
        | some txout => [.sent txout transaction]
        | none => [] := by
  cases sender : node.store.txout <;> simp [Node.broadcast, sender]

/-- Every way `spend` can end.  With `Ok`, the wallet built the transaction, the database
accepted both records and the commit, and the node took the wallet's new state, committed the
two records and broadcast.  Otherwise the node differs at most in the wallet. -/
theorem spend_cases (build : Trunk → W → Except Error β × W) (transactionOf : β → Transaction)
    (accountKey : Nat × Nat) (funding : β → Option (PublicKey × Sha256Hash × UInt16))
    (node : Node W) :
    let result := spend wallet build transactionOf accountKey funding node
    (∃ built state account, build node.store.trunk node.store.wallet = (.ok built, state) ∧
        wallet.account accountKey state = some account ∧
        node.store.db.rejects (.account account) = none ∧
        node.store.db.rejects (.txout (transactionOf built) (funding built)) = none ∧
        node.store.db.commitFails = false ∧
        result = (.ok built, ((node.setWallet state).commit
          ⟨[.account account, .txout (transactionOf built) (funding built)]⟩).broadcast
            (transactionOf built))) ∨
      ((∀ built, result.1 ≠ .ok built) ∧ ∃ state, result.2 = node.setWallet state) := by
  rw [spend_apply]
  rcases build node.store.trunk node.store.wallet with ⟨error | built, state⟩
  · exact .inr ⟨by simp, state, rfl⟩
  · dsimp only
    rcases found : wallet.account accountKey state with _ | account
    · exact .inr ⟨by simp, state, rfl⟩
    · dsimp only
      rcases accountStaged : Txn.begin.store node.store.db (.account account) with error | txn
      · exact .inr ⟨by simp, state, rfl⟩
      · dsimp only
        rcases txoutStaged : txn.store node.store.db (.txout (transactionOf built) (funding built))
          with error | staged
        · exact .inr ⟨by simp, state, rfl⟩
        · dsimp only
          split_ifs with fails
          · exact .inr ⟨by simp, state, rfl⟩
          · rw [Txn.store_eq_ok] at accountStaged txoutStaged
            refine .inl ⟨built, state, account, rfl, found, accountStaged.1, txoutStaged.1,
              by simpa using fails, ?_⟩
            rw [txoutStaged.2, accountStaged.2]
            rfl

theorem spend_of_refused_account (build : Trunk → W → Except Error β × W)
    (transactionOf : β → Transaction) (accountKey : Nat × Nat)
    (funding : β → Option (PublicKey × Sha256Hash × UInt16)) {node : Node W} {built : β}
    {state : W} {account : Account} {message : String}
    (builds : build node.store.trunk node.store.wallet = (.ok built, state))
    (found : wallet.account accountKey state = some account)
    (refused : node.store.db.rejects (.account account) = some message) :
    spend wallet build transactionOf accountKey funding node =
      (.err (.storage message), node.setWallet state) := by
  simp only [spend_apply, builds, found, Txn.store, refused]

/-- A database that refuses every account record. -/
def refuseAccounts : Write → Option String
  | .account _ => some "disk full"
  | _ => none

/-- A store whose wallet holds one coin of 5000 and the accounts `0/1` and `1/0`, with a sender
bound, over a database that refuses every account record. -/
def refusingNode : Node ReferenceWallet :=
  let coin : Coin := ⟨⟨0, 0⟩, ⟨5000, [0x51]⟩, 1⟩
  ⟨⟨⟨1, fun _ => some 1, none⟩, ⟨⟨[], [coin], some 1, []⟩, refuseAccounts, false⟩,
    ⟨[[0x51]], [coin], [⟨0, 1, 0⟩, ⟨1, 0, 0⟩]⟩, some ⟨0⟩, false⟩, []⟩

/-- A `withdraw` or `fund` whose account record the database refuses returns the storage error,
with the wallet's coin already spent. -/
theorem refused_account_record_keeps_spent_wallet :
    (withdraw referenceWallet "" ⟨.bitcoin, .witnessProgram 0 []⟩ 1 (some 1000)
        refusingNode).1 = .err (.storage "disk full") ∧
      referenceWallet.coins (withdraw referenceWallet "" ⟨.bitcoin, .witnessProgram 0 []⟩ 1
          (some 1000) refusingNode).2.store.wallet ≠
        referenceWallet.coins refusingNode.store.wallet ∧
      (fund referenceWallet 0 144 1000 1 "" refusingNode).1 = .err (.storage "disk full") ∧
      referenceWallet.coins (fund referenceWallet 0 144 1000 1 "" refusingNode).2.store.wallet ≠
        referenceWallet.coins refusingNode.store.wallet := by
  have withdrawn := @spend_of_refused_account _ _ referenceWallet
    (referenceWallet.withdraw "" ⟨.bitcoin, .witnessProgram 0 []⟩ 1 (some 1000)) (·.1) (0, 1)
    (fun _ => none) refusingNode _ _ _ _ rfl rfl rfl
  have funded := @spend_of_refused_account _ _ referenceWallet
    (fun trunk => referenceWallet.fund 0 144 "" 1 1000 trunk fun pk term =>
      term.map (fundingScript pk))
    (·.1) (1, 0) (fun (_, funder, _) => some (funder, 0, 144)) refusingNode _ _ _ _ rfl rfl rfl
  simp only [withdraw, fund, withdrawn, funded]
  decide

end BtcDk
