import BtcDk.ContentStore

/-!
# A reference wallet

A small wallet that keeps the contract of `Wallet.Lawful`: it owns the outputs that pay one of
its scripts, remembers which block brought each coin, spends all of its coins when it funds or
withdraws, and counts the keys it hands out per account.  It shows the contract can be met, and
it is the wallet of the concrete runs of the later files, which start from the store set up at the
end of this file.
-/

namespace BtcDk

/-- The reference wallet's state. -/
structure ReferenceWallet where
  scripts : List (List UInt8)
  coins : Coins
  accounts : List Account
  deriving DecidableEq, Repr

namespace ReferenceWallet

variable (bitcoinHash : BlockHeader → BlockHash) (txid : Transaction → Sha256Hash)

/-- The coins a block brings: the outputs paying one of `scripts`, tagged with the block. -/
def received (scripts : List (List UInt8)) (block : Block) : Coins :=
  block.txdata.flatMap fun transaction =>
    (transaction.output.enum.filter fun indexed => indexed.2.scriptPubkey ∈ scripts).map
      fun indexed => ⟨⟨txid transaction, indexed.1⟩, indexed.2, bitcoinHash block.header⟩

/-- Scan a block once: a block whose coins are already held, or that brings none, changes
nothing. -/
def process (block : Block) (wallet : ReferenceWallet) : Bool × ReferenceWallet :=
  let hash := bitcoinHash block.header
  let brought := received bitcoinHash txid wallet.scripts block
  if wallet.coins.any (·.block == hash) ∨ brought = [] then (false, wallet)
  else (true, { wallet with coins := wallet.coins ++ brought })

def unwindTip (hash : BlockHash) (wallet : ReferenceWallet) : ReferenceWallet :=
  { wallet with coins := wallet.coins.filter (·.block ≠ hash) }

def total (wallet : ReferenceWallet) : Nat := (wallet.coins.map (·.output.value)).sum

/-- Hand out the next key of an account. -/
def bump (key : Nat × Nat) (wallet : ReferenceWallet) : ReferenceWallet :=
  { wallet with
    accounts := wallet.accounts.map fun account =>
      if account.key = key then { account with nextIndex := account.nextIndex + 1 } else account }

/-- Spend every coin: pay `value` to `script`, return the rest minus a fee for 110 virtual bytes
to the wallet's first script, and take a change key from `accountKey`.  It checks the funds
before it changes anything, so a refusal leaves the wallet as it was. -/
def spendAll (accountKey : Nat × Nat) (script : List UInt8) (feePerVbyte : Nat)
    (amount : Option Nat) (wallet : ReferenceWallet) :
    Except Error (Transaction × Nat) × ReferenceWallet :=
  let fee := feePerVbyte * 110
  let value := amount.getD (wallet.total - fee)
  if wallet.total < value + fee then (.error (.wallet "insufficient funds"), wallet)
  else
    let change := wallet.total - value - fee
    let outputs := [⟨value, script⟩] ++
      (if change = 0 then [] else [⟨change, wallet.scripts.headD []⟩])
    (.ok (⟨wallet.coins.map (·.outpoint), outputs⟩, fee),
      bump accountKey { wallet with coins := [] })

/-- The reference wallet as the store's collaborator; it funds with the generator key. -/
def wallet : Wallet ReferenceWallet where
  process := process bitcoinHash txid
  coins := ReferenceWallet.coins
  balance := total
  availableBalance len heightOf wallet :=
    ((wallet.coins.filter fun coin => (heightOf coin.block).any (· < len)).map
      (·.output.value)).sum
  unwindTip := unwindTip
  fund _ term _ feePerVbyte amount _ scriptFor wallet :=
    let funder : PublicKey := ⟨true, generatorKey⟩
    match scriptFor funder (some term) with
    | none => (.error (.wallet "no funding script"), wallet)
    | some script =>
      let spent := spendAll (1, 0) script feePerVbyte (some amount) wallet
      (spent.1.map fun (transaction, fee) => (transaction, funder, fee), spent.2)
  withdraw _ _ feePerVbyte amount _ := spendAll (0, 1) [] feePerVbyte amount
  account key wallet := wallet.accounts.find? (·.key = key)
  nextKey key wallet := (wallet.accounts.find? (·.key = key)).map fun account =>
    (.ok ⟨.bitcoin, .witnessProgram 0 [account.nextIndex.toUInt8]⟩, bump key wallet)

theorem received_block {scripts : List (List UInt8)} {block : Block} :
    ∀ coin ∈ received bitcoinHash txid scripts block, coin.block = bitcoinHash block.header := by
  intro coin mem
  simp only [received, List.mem_flatMap, List.mem_map] at mem
  obtain ⟨_, _, _, _, rfl⟩ := mem
  rfl

theorem wallet_lawful : (wallet bitcoinHash txid).Lawful bitcoinHash := by
  constructor
  · intro block state
    simp only [wallet, process]
    split
    · simp
    · rename_i fresh
      simp only [not_or] at fresh
      simp [fresh.2]
  · intro block state
    simp only [wallet, process]
    split
    · simp only [ite_true, *]
    · rename_i fresh
      simp only [not_or] at fresh
      obtain ⟨coin, mem⟩ := List.exists_mem_of_ne_nil _ fresh.2
      have tagged := received_block bitcoinHash txid coin mem
      rw [if_pos (Or.inl (List.any_eq_true.2 ⟨coin, by simp [mem], by simp [tagged]⟩))]
  · intro block state changed
    simp only [wallet, process] at changed ⊢
    by_cases held : state.coins.any (·.block == bitcoinHash block.header) ∨
        received bitcoinHash txid state.scripts block = []
    · rw [if_pos held] at changed; simp at changed
    · rw [if_neg held]
      simp only [not_or, List.any_eq_true, beq_iff_eq, not_exists, not_and] at held
      simp only [unwindTip, List.filter_append]
      rw [List.filter_eq_self.2 (fun coin mem => by simpa using held.1 coin mem),
        List.filter_eq_nil_iff.2 (fun coin mem => by simp [received_block bitcoinHash txid coin mem]),
        List.append_nil]

end ReferenceWallet

/-- Block hashes in the concrete runs: a header's nonce. -/
def nonceHash (header : BlockHeader) : BlockHash := header.nonce

/-- The reference wallet over `nonceHash`, with every transaction id `0`. -/
def referenceWallet : Wallet ReferenceWallet := ReferenceWallet.wallet nonceHash fun _ => 0

theorem referenceWallet_lawful : referenceWallet.Lawful nonceHash :=
  ReferenceWallet.wallet_lawful nonceHash fun _ => 0

/-- Block 1, on block 0, with one output paying 5000 to the script `OP_TRUE`. -/
def payingBlock : Block := ⟨⟨1, 0, 0, 0, 0, 1⟩, [⟨[], [⟨5000, [0x51]⟩]⟩]⟩

/-- A store on block 0 whose wallet owns the script `OP_TRUE` and holds no coin yet; its
database accepts every write and commit. -/
def genesisNode : Node ReferenceWallet :=
  ⟨⟨⟨0, fun _ => none, none⟩, ⟨⟨[], [], some 0, []⟩, fun _ => none, false⟩, ⟨[[0x51]], [], []⟩,
    none, false⟩, []⟩

end BtcDk
