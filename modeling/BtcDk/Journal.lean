import BtcDk.ChainSync
import BtcDk.Payments

/-!
# What leaves the store, over every run

The journal of a node lists, in order, the storage transactions it committed and the
transactions it sent on its outbound channel.  `SentAfterCommit` says that every send has, before
it, a commit of exactly the spend's two records: the sent transaction as outgoing, and the account
that paid for it.  A run is any sequence of calls of the store's public methods, each ending
however it ends, with the database's failures and the trunk changing between calls.  Each call
keeps the property, so every run does; and a `fund` or `withdraw` returns `Ok` only after the
account the wallet holds under its key (`1/0` or `0/1`) and its outgoing record were accepted and
committed, while one that does not return `Ok` adds nothing to the journal.  Every commit is one
call's whole write set.
-/

namespace BtcDk

open StoreM

/-- A transaction is recorded in a journal when a commit in it stored exactly a spending account
and the transaction as outgoing. -/
def Recorded (journal : List Effect) (transaction : Transaction) : Prop :=
  ∃ account funding, .committed [.account account, .txout transaction funding] ∈ journal

/-- Every transaction sent was recorded by a commit earlier in the journal. -/
def SentAfterCommit (journal : List Effect) : Prop :=
  ∀ before after txout transaction, journal = before ++ .sent txout transaction :: after →
    Recorded before transaction

theorem sentAfterCommit_nil : SentAfterCommit [] := by
  intro before after txout transaction empty
  simp at empty

/-- One more entry keeps the property exactly when, if it is a send, its transaction is already
recorded. -/
theorem sentAfterCommit_append_singleton {journal : List Effect} {effect : Effect} :
    SentAfterCommit (journal ++ [effect]) ↔
      SentAfterCommit journal ∧
        ∀ txout transaction, effect = .sent txout transaction → Recorded journal transaction := by
  constructor
  · intro sent
    exact ⟨fun before after txout transaction split =>
        sent before (after ++ [effect]) txout transaction (by simp [split]),
      fun txout transaction isSent => sent journal [] txout transaction (by simp [isSent])⟩
  · rintro ⟨sent, last⟩ before after txout transaction split
    rcases List.eq_nil_or_concat after with rfl | ⟨rest, final, rfl⟩
    · obtain ⟨rfl, effectSent⟩ := List.append_inj' split rfl
      exact last txout transaction (List.singleton_inj.1 effectSent)
    · have earlier : journal ++ [effect] = (before ++ .sent txout transaction :: rest) ++ [final] := by
        simp [split]
      exact sent before rest txout transaction (List.append_inj' earlier rfl).1

theorem SentAfterCommit.commit {journal : List Effect} (sent : SentAfterCommit journal)
    (writes : List Write) : SentAfterCommit (journal ++ [.committed writes]) :=
  sentAfterCommit_append_singleton.2 ⟨sent, fun _ _ isSent => by cases isSent⟩

theorem SentAfterCommit.spend {journal : List Effect} (sent : SentAfterCommit journal)
    (txout : Option PeerMessageSender) (account : Account) (transaction : Transaction)
    (funding : Option (PublicKey × Sha256Hash × UInt16)) :
    SentAfterCommit (journal ++ spendEffects txout account transaction funding) := by
  have committed := sent.commit [.account account, .txout transaction funding]
  cases txout with
  | none => simpa [spendEffects] using committed
  | some sender =>
    have split : journal ++ spendEffects (some sender) account transaction funding =
        (journal ++ [.committed [.account account, .txout transaction funding]]) ++
          [.sent sender transaction] := by
      simp [spendEffects]
    rw [split]
    refine sentAfterCommit_append_singleton.2 ⟨committed, ?_⟩
    rintro _ _ ⟨⟩
    exact ⟨account, funding, by simp⟩

variable {W β : Type} (bitcoinHash : BlockHeader → BlockHash) (wallet : Wallet W)

/-- How a `fund` or `withdraw` call ends, as seen from outside the process: `Ok` only after the
database accepted the account the wallet now holds under `accountKey` and the outgoing-transaction
record, and committed them, and then the journal shows that commit before the send; any other
ending adds nothing to the journal. -/
def SpendLogged (node : Node W) (result : Outcome β × Node W) (accountKey : Nat × Nat)
    (transactionOf : β → Transaction) (funding : β → Option (PublicKey × Sha256Hash × UInt16)) :
    Prop :=
  (∀ built, result.1 = .ok built → ∃ account,
      wallet.account accountKey result.2.store.wallet = some account ∧
      node.store.db.rejects (.account account) = none ∧
      node.store.db.rejects (.txout (transactionOf built) (funding built)) = none ∧
      node.store.db.commitFails = false ∧
      result.2.journal =
        node.journal ++ spendEffects node.store.txout account (transactionOf built) (funding built)) ∧
    ((∀ built, result.1 ≠ .ok built) → result.2.journal = node.journal)

theorem spend_logged (build : Trunk → W → Except Error β × W) (transactionOf : β → Transaction)
    (accountKey : Nat × Nat) (funding : β → Option (PublicKey × Sha256Hash × UInt16))
    (node : Node W) :
    SpendLogged wallet node (spend wallet build transactionOf accountKey funding node) accountKey
      transactionOf funding := by
  rcases spend_cases wallet build transactionOf accountKey funding node with
    ⟨built, state, account, -, found, accepted, recorded, commits, ended⟩ | ⟨failed, state, kept⟩
  · rw [ended]
    refine ⟨fun _ ok => ?_, fun failed => absurd rfl (failed built)⟩
    cases ok
    refine ⟨account, by simpa using found, accepted, recorded, commits, ?_⟩
    simp [Node.broadcast_journal, spendEffects]
  · exact ⟨fun built ok => absurd ok (failed built), fun _ => by rw [kept]; rfl⟩

/-- A call of one of the store's public methods, with its arguments.  `funding_script` and
`funding_address` do not touch the store and are left out. -/
inductive Call where
  | setStopped (stopped : Bool)
  | getStopped
  | setTxSender (txout : PeerMessageSender)
  | balance
  | depositAddress
  | fund (id : Sha256Hash) (term : UInt16) (amount feePerVbyte : Nat) (passphrase : String)
  | withdraw (passphrase : String) (address : Address) (feePerVbyte : Nat) (amount : Option Nat)
  | getTip
  | blockConnected (block : Block) (height : UInt32)
  | addHeader (height : UInt32) (header : BlockHeader)
  | unwindTip (header : BlockHeader)

/-- The node after a call, however the call ended. -/
def Call.run : Call → Node W → Node W
  | .setStopped stopped, node => (BtcDk.setStopped stopped node).2
  | .getStopped, node => (BtcDk.getStopped node).2
  | .setTxSender txout, node => (BtcDk.setTxSender txout node).2
  | .balance, node => (BtcDk.balance wallet node).2
  | .depositAddress, node => (BtcDk.depositAddress wallet node).2
  | .fund id term amount feePerVbyte passphrase, node =>
    (BtcDk.fund wallet id term amount feePerVbyte passphrase node).2
  | .withdraw passphrase address feePerVbyte amount, node =>
    (BtcDk.withdraw wallet passphrase address feePerVbyte amount node).2
  | .getTip, node => (BtcDk.getTip bitcoinHash node).2
  | .blockConnected block height, node =>
    (BtcDk.blockConnected bitcoinHash wallet block height node).2
  | .addHeader height header, node => (BtcDk.addHeader height header node).2
  | .unwindTip header, node => (BtcDk.unwindTip bitcoinHash wallet header node).2

/-- The write sets the store commits, each whole: a spend's account and outgoing-transaction
records, a connected block's coin set with its marker, or a marker alone (a connected block that
changed nothing, or an unwind). -/
inductive CallCommit : List Write → Prop
  | spend (account : Account) (transaction : Transaction)
      (funding : Option (PublicKey × Sha256Hash × UInt16)) :
      CallCommit [.account account, .txout transaction funding]
  | connect (coins : Coins) (hash : BlockHash) : CallCommit [.coins coins, .processed hash]
  | marker (hash : BlockHash) : CallCommit [.processed hash]

theorem connectWrites_callCommit (block : Block) (processed : Bool × W) :
    CallCommit (connectWrites bitcoinHash wallet block processed) := by
  obtain ⟨changed, state⟩ := processed
  cases changed
  · exact .marker _
  · exact .connect _ _

/-- Everything one call can do to a node, however it ends: set the stop flag, bind a sender, move
the wallet, move the wallet and commit one whole write set, or move the wallet, commit a spend's
two records and broadcast its transaction. -/
inductive CallEffect (node : Node W) : Node W → Prop
  | stop (stopped : Bool) : CallEffect node (node.setStopped stopped)
  | bind (txout : PeerMessageSender) :
      CallEffect node { node with store := { node.store with txout := some txout } }
  | moveWallet (state : W) : CallEffect node (node.setWallet state)
  | commit (state : W) {writes : List Write} (whole : CallCommit writes) :
      CallEffect node ((node.setWallet state).commit ⟨writes⟩)
  | spend (state : W) (account : Account) (transaction : Transaction)
      (funding : Option (PublicKey × Sha256Hash × UInt16)) :
      CallEffect node (((node.setWallet state).commit
        ⟨[.account account, .txout transaction funding]⟩).broadcast transaction)

theorem spend_effect (build : Trunk → W → Except Error β × W) (transactionOf : β → Transaction)
    (accountKey : Nat × Nat) (funding : β → Option (PublicKey × Sha256Hash × UInt16))
    (node : Node W) :
    CallEffect node (spend wallet build transactionOf accountKey funding node).2 := by
  rcases spend_cases wallet build transactionOf accountKey funding node with
    ⟨_, state, account, -, -, -, -, -, ended⟩ | ⟨-, state, kept⟩
  · rw [ended]; exact .spend _ _ _ _
  · rw [kept]; exact .moveWallet state

/-- Every call, however it ends, has one of these effects. -/
theorem Call.run_effect (call : Call) (node : Node W) :
    CallEffect node (call.run bitcoinHash wallet node) := by
  cases call with
  | setStopped stopped => exact .stop stopped
  | setTxSender txout => exact .bind txout
  | getStopped | balance | getTip | addHeader => exact .moveWallet node.store.wallet
  | depositAddress =>
    obtain ⟨state, after⟩ := depositAddress_setWallet wallet node
    rw [Call.run, after]; exact .moveWallet state
  | fund | withdraw => exact spend_effect wallet _ _ _ _ node
  | blockConnected block height =>
    rcases blockConnected_cases bitcoinHash wallet block height node with ⟨-, after⟩ | ⟨-, after⟩
    · rw [Call.run, after]; exact .commit _ (connectWrites_callCommit bitcoinHash wallet block _)
    · rw [Call.run, after]; exact .moveWallet _
  | unwindTip header =>
    rcases unwindTip_cases bitcoinHash wallet header node with ⟨-, after⟩ | ⟨-, after⟩
    · rw [Call.run, after]
      exact .commit (wallet.unwindTip (bitcoinHash header) node.store.wallet)
        (.marker header.prevBlockhash)
    · rw [Call.run, after]; exact .moveWallet node.store.wallet

theorem spendNode_journal (node : Node W) (state : W) (account : Account)
    (transaction : Transaction) (funding : Option (PublicKey × Sha256Hash × UInt16)) :
    (((node.setWallet state).commit ⟨[.account account, .txout transaction funding]⟩).broadcast
        transaction).journal =
      node.journal ++ spendEffects node.store.txout account transaction funding := by
  simp [Node.broadcast_journal, spendEffects]

theorem CallEffect.sentAfterCommit {node node' : Node W} (effect : CallEffect node node')
    (sent : SentAfterCommit node.journal) : SentAfterCommit node'.journal := by
  cases effect with
  | stop | bind | moveWallet => exact sent
  | commit state whole => exact sent.commit _
  | spend state account transaction funding =>
    rw [spendNode_journal]; exact sent.spend _ _ _ _

/-- Chain sync moves the trunk. -/
@[simps]
def Node.setTrunk (node : Node W) (trunk : Trunk) : Node W :=
  { node with store := { node.store with trunk } }

/-- One step of a run: a call, or a change of the environment between calls (the database
starts or stops failing, the trunk moves). -/
inductive Step : Node W → Node W → Prop
  | call (call : Call) (node : Node W) : Step node (call.run bitcoinHash wallet node)
  | faults (node : Node W) (rejects : Write → Option String) (commitFails : Bool) :
      Step node (node.setFaults rejects commitFails)
  | trunk (node : Node W) (trunk : Trunk) : Step node (node.setTrunk trunk)

/-- What every call, every change of the database's faults and every move of the trunk keeps
holds over every run. -/
theorem Step.invariant (holds : Node W → Prop)
    (call : ∀ {node node'}, CallEffect node node' → holds node → holds node')
    (faults : ∀ node rejects commitFails, holds node → holds (node.setFaults rejects commitFails))
    (trunk : ∀ node trunk, holds node → holds (node.setTrunk trunk)) {start node : Node W}
    (run : Relation.ReflTransGen (Step bitcoinHash wallet) start node) (initially : holds start) :
    holds node := by
  induction run with
  | refl => exact initially
  | tail _ step ih =>
    cases step with
    | call called => exact call (called.run_effect bitcoinHash wallet _) ih
    | faults => exact faults _ _ _ ih
    | trunk => exact trunk _ _ ih

theorem sentAfterCommit_of_run {start node : Node W}
    (run : Relation.ReflTransGen (Step bitcoinHash wallet) start node)
    (sent : SentAfterCommit start.journal) : SentAfterCommit node.journal :=
  Step.invariant bitcoinHash wallet (fun node => SentAfterCommit node.journal)
    (fun effect => effect.sentAfterCommit) (fun _ _ _ => id) (fun _ _ => id) run sent

/-- Over every run, every transaction sent was first recorded with its account by a commit; and
a `fund` or `withdraw` returns `Ok` only once the account the wallet holds under its key and the
outgoing record were accepted and committed, while any other ending sends nothing. -/
theorem sends_follow_commits :
    (∀ start node : Node W, Relation.ReflTransGen (Step bitcoinHash wallet) start node →
      SentAfterCommit start.journal → SentAfterCommit node.journal) ∧
    ∀ node : Node W,
      (∀ id term amount feePerVbyte passphrase,
        SpendLogged wallet node (fund wallet id term amount feePerVbyte passphrase node) (1, 0)
          (·.1) fun (_, funder, _) => some (funder, id, term)) ∧
      ∀ passphrase address feePerVbyte amount,
        SpendLogged wallet node (withdraw wallet passphrase address feePerVbyte amount node) (0, 1)
          (·.1) fun _ => none :=
  ⟨fun _ _ run sent => sentAfterCommit_of_run bitcoinHash wallet run sent,
    fun node => ⟨fun _ _ _ _ _ => spend_logged wallet _ _ _ _ node,
      fun _ _ _ _ => spend_logged wallet _ _ _ _ node⟩⟩

theorem withdraw_sends_after_commit :
    SentAfterCommit (Call.run nonceHash referenceWallet
      (.withdraw "" ⟨.bitcoin, .witnessProgram 0 []⟩ 1 (some 1000))
      (refusingNode.setFaults (fun _ => none) false)).journal :=
  (sends_follow_commits nonceHash referenceWallet).1 _ _ (.single (.call _ _)) sentAfterCommit_nil

end BtcDk
