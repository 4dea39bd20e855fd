import BtcDk.Chain

/-!
# The durable store

`crate::db` is not part of this model's source either; the design's interface for it (sections 2
and 6) fixes what `ContentStore` may assume of it.  A storage transaction stages typed writes
(`store_account`, `store_coins`, `store_processed`, `store_txout`); `commit` applies all of them
at once, and a transaction that is dropped without a commit leaves the committed contents as
they were.  Any write may fail (an I/O error, a violated constraint): the database carries an
oracle saying which writes fail now, which the environment may change between calls.  Of
`commit` the model assumes that it applies every staged write or panics: the store discards its
result, so a commit that reported a failure in its result would go unnoticed, and that case is
outside the model.
-/

namespace BtcDk

/-- A record one storage transaction writes. -/
inductive Write where
  | account (account : Account)
  | coins (coins : Coins)
  | processed (hash : BlockHash)
  | txout (transaction : Transaction) (funding : Option (PublicKey × Sha256Hash × UInt16))
  deriving DecidableEq

/-- Modelled from the spec: the committed contents of the database, by the records of section 6. -/
structure Persisted where
  accounts : List Account
  coins : Coins
  processed : Option BlockHash
  txouts : List (Transaction × Option (PublicKey × Sha256Hash × UInt16))
  deriving DecidableEq

/-- Modelled from the spec: the effect of one committed write.  An account replaces the stored
account of the same key, the coin set and the processed marker (of which there is exactly one,
section 3) are overwritten, an outgoing transaction is added. -/
def Persisted.apply (persisted : Persisted) : Write → Persisted
  | .account account =>
    { persisted with
      accounts := persisted.accounts.filter (·.key ≠ account.key) ++ [account] }
  | .coins coins => { persisted with coins := coins }
  | .processed hash => { persisted with processed := some hash }
  | .txout transaction funding =>
    { persisted with txouts := persisted.txouts ++ [(transaction, funding)] }

/-- Modelled from the spec: the database behind `SharedDB`, by what it has committed, which
writes it refuses at present (with the error message) and whether a commit fails at present. -/
structure Database where
  persisted : Persisted
  rejects : Write → Option String
  commitFails : Bool

/-- Modelled from the spec: an open storage transaction (`db.transaction()`), by the writes
staged so far. -/
structure Txn where
  staged : List Write
  deriving DecidableEq

/-- A fresh transaction. -/
def Txn.begin : Txn := ⟨[]⟩

/-- Modelled from the spec: a `store_*` call on a transaction stages the write, or fails with a
storage error. -/
def Txn.store (database : Database) (write : Write) (txn : Txn) : Except Error Txn :=
  match database.rejects write with
  | some message => .error (.storage message)
  | none => .ok ⟨txn.staged ++ [write]⟩

/-- Modelled from the spec: what a successful commit leaves in the database, all staged writes
applied together. -/
def Database.commit (database : Database) (txn : Txn) : Database :=
  { database with persisted := txn.staged.foldl Persisted.apply database.persisted }

@[simp]
theorem Txn.store_eq_ok {database : Database} {write : Write} {txn staged : Txn} :
    txn.store database write = .ok staged ↔
      database.rejects write = none ∧ staged = ⟨txn.staged ++ [write]⟩ := by
  unfold store
  cases database.rejects write <;> simp [eq_comm]

end BtcDk
