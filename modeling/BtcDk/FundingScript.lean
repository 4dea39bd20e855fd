import BtcDk.Script
import BtcDk.PublicKey

/-!
# The funding script and its address

`ContentStore::funding_script(tweaked, term)` is the witness script of a funding output,
`<term> OP_CSV OP_DROP <tweaked> OP_CHECKSIG`, and `ContentStore::funding_address` is the P2WSH
address of that script on the main network.  A counterparty rebuilds both from the key and the
term, so the script has to be reproducible bit for bit and has to determine what it was built
from.  This file proves that, for every key and every term, the script parses into exactly those
five instructions, with the term readable back as a script number, that the script is injective
in the key and the term, and that two equal addresses come from the same key and term unless
SHA-256 collides on two funding scripts.  The script is the same on every target, since a `u16`
term survives the cast to `usize`.
-/

namespace BtcDk

open Opcode

/-- `network::constants::Network`. -/
inductive Network where
  | bitcoin
  | testnet
  | regtest
  deriving DecidableEq, Repr

/-- `util::address::Payload`. -/
inductive Payload where
  | pubkeyHash (hash : List UInt8)
  | scriptHash (hash : List UInt8)
  | witnessProgram (version : Nat) (program : List UInt8)
  deriving DecidableEq, Repr

/-- `util::address::Address`. -/
structure Address where
  network : Network
  payload : Payload
  deriving DecidableEq, Repr

/-- `Address::p2wsh`: the version-0 witness program of the script's SHA-256, a hash function
that is a parameter here. -/
def Address.p2wsh (sha256 : List UInt8 → List UInt8) (script : List UInt8) (network : Network) :
    Address :=
  ⟨network, .witnessProgram 0 (sha256 script)⟩

/-- `ContentStore::funding_script`, built for a 64-bit target; `fundingScript_target` shows that
every target writes the same bytes. -/
def fundingScript (tweaked : PublicKey) (term : UInt16) : List UInt8 :=
  Builder.new
    |>.pushInt 64 (BitVec.ofNat 64 term.toNat)
    |>.pushOpcode OP_CSV
    |>.pushOpcode OP_DROP
    |>.pushSlice tweaked.toBytes (by rw [PublicKey.toBytes_length]; split <;> omega)
    |>.pushOpcode OP_CHECKSIG
    |>.intoScript

/-- `ContentStore::funding_address`. -/
def fundingAddress (sha256 : List UInt8 → List UInt8) (tweaked : PublicKey) (term : UInt16) :
    Address :=
  Address.p2wsh sha256 (fundingScript tweaked term) .bitcoin

/-- The push of a term as the design describes it: `OP_0` (the empty push) for zero, `OP_1` to
`OP_16` for one to sixteen, and the script number of the term otherwise. -/
def termPush (term : Nat) : Instruction :=
  if term = 0 then .pushBytes []
  else if term ≤ 16 then .op ⟨(0x50 + term).toUInt8⟩
  else .pushBytes (scriptNumBytes term)

/-- The number an instruction leaves on the stack when read as a script number: `OP_1NEGATE`
and `OP_1` to `OP_16` push their small integer, a data push its bytes as a script number. -/
def Instruction.scriptNum : Instruction → Option Int
  | .pushBytes data => (readScriptint data).toOption
  | .op opcode =>
    if opcode.code = 0x4f then some (-1)
    else if 0x51 ≤ opcode.code.toNat ∧ opcode.code.toNat ≤ 0x60 then
      some (opcode.code.toNat - 0x50 : Nat)
    else none

theorem toInt_ofNat_term (term : UInt16) : (BitVec.ofNat 64 term.toNat).toInt = term.toNat := by
  have := term.toNat_lt_size
  rw [BitVec.toInt_eq_toNat_cond]; simp [UInt16.size] at this ⊢; omega

/-- `funding_script` writes the same bytes on every target: `usize` has at least 16 bits, and a
`u16` term survives the cast. -/
theorem fundingScript_target (usizeBits : Nat) (wide : 16 ≤ usizeBits) (tweaked : PublicKey)
    (term : UInt16) :
    fundingScript tweaked term =
      (Builder.new
        |>.pushInt usizeBits (BitVec.ofNat 64 term.toNat)
        |>.pushOpcode OP_CSV
        |>.pushOpcode OP_DROP
        |>.pushSlice tweaked.toBytes (by rw [PublicKey.toBytes_length]; split <;> omega)
        |>.pushOpcode OP_CHECKSIG
        |>.intoScript) := by
  have fits : ∀ bits, 16 ≤ bits → (BitVec.ofNat 64 term.toNat).toInt.natAbs < 2 ^ bits :=
    fun bits wide => by
      have bound : term.toNat < 2 ^ 16 := term.toNat_lt_size
      rw [toInt_ofNat_term, Int.natAbs_ofNat]
      exact lt_of_lt_of_le bound (Nat.pow_le_pow_right (by norm_num) wide)
  rw [fundingScript, Builder.pushInt_target _ (fits 64 (by norm_num)) (fits usizeBits wide)]

/-- A one-byte script number of at least 17 is a minimal push: its byte is neither `0x81` nor
one of `1..=16`, which have opcodes of their own. -/
theorem single_byte_minimal {byte : UInt8} {term : Nat} (large : 17 ≤ term)
    (reads : readScriptint [byte] = .ok term) :
    ¬ (byte = 0x81 ∨ (0 < byte ∧ byte ≤ 16)) := by
  rintro (rfl | ⟨positive, small⟩)
  · simp [show readScriptint [0x81] = .ok (-1) from rfl] at reads
  · have positive : 0 < byte.toNat := by simpa [UInt8.lt_def, BitVec.lt_def] using positive
    have small : byte.toNat ≤ 16 := by simpa [UInt8.le_def, BitVec.le_def] using small
    rw [readScriptint_of_sign_clear (by simp) (by simp) (by simp; omega)] at reads
    simp [Nat.ofDigits] at reads; omega

theorem next_pushInt_term (enforceMinimal : Bool) (term : UInt16) (rest : List UInt8) :
    Instructions.next enforceMinimal
        ((Builder.new.pushInt 64 (BitVec.ofNat 64 term.toNat)).bytes ++ rest) =
      some (.ok (termPush term.toNat), rest) := by
  have bound := term.toNat_lt_size
  simp only [UInt16.size] at bound
  simp only [Builder.pushInt, toInt_ofNat_term, termPush]
  by_cases zero : term.toNat = 0
  · simp [zero, Builder.pushOpcode, Builder.new, OP_FALSE, Instructions.next]
  by_cases small : term.toNat ≤ 16
  · have opcode : ((term.toNat : Int) - 1 + (OP_TRUE.code.toNat : Int)).toNat.toUInt8 =
        (0x50 + term.toNat).toUInt8 := by
      congr 1; simp [show OP_TRUE.code.toNat = 81 from rfl]; omega
    rw [if_pos (by omega), if_neg zero, if_pos small, opcode]
    simp only [Builder.pushOpcode, Builder.new, List.nil_append, List.singleton_append]
    exact next_op rest (by
      rw [UInt8.toNat_ofNat_of_lt (by unfold UInt8.size; omega),
        show OP_PUSHDATA4.code.toNat = 78 from rfl]; omega)
  · rw [if_neg (by omega), if_neg (by omega), if_neg zero, if_neg small]
    simp only [Builder.pushScriptint, toInt_ofNat_term]
    have bytes : buildScriptint 64 term.toNat = scriptNumBytes term.toNat := by
      have kept : term.toNat % 2 ^ 64 = term.toNat := Nat.mod_eq_of_lt (by omega)
      rw [buildScriptint_ofNat (by omega), kept]
    have short := buildScriptint_length_le 64 term.toNat (by simp; omega)
    rw [Builder.pushSlice_bytes_of_lt _ _ (by omega), bytes]
    rw [bytes] at short
    simp only [Builder.new, List.nil_append, List.cons_append]
    refine next_pushSlice rest (by omega) ?_
    rintro ⟨-, single, nonMinimal⟩
    obtain ⟨byte, isSingle⟩ := List.length_eq_one.1 single
    have reads := readScriptint_scriptNumBytes (n := term.toNat) (by omega)
    rw [isSingle] at reads nonMinimal
    exact @single_byte_minimal _ term.toNat (by omega) (by simpa using reads)
      (by simpa using nonMinimal)

theorem fundingScript_eq (tweaked : PublicKey) (term : UInt16) :
    fundingScript tweaked term =
      (Builder.new.pushInt 64 (BitVec.ofNat 64 term.toNat)).bytes ++ OP_CSV.code :: OP_DROP.code ::
        tweaked.toBytes.length.toUInt8 :: (tweaked.toBytes ++ [OP_CHECKSIG.code]) := by
  have short : tweaked.toBytes.length < 76 := by rw [PublicKey.toBytes_length]; split <;> omega
  simp [fundingScript, Builder.intoScript, Builder.pushOpcode, Builder.pushSlice_bytes_of_lt _ _ short]

/-- The instruction iterator, minimal or not, reads the funding script as exactly five
instructions: the push of the term, `OP_CSV`, `OP_DROP`, the push of the key, `OP_CHECKSIG`. -/
theorem fundingScript_instructions (enforceMinimal : Bool) (tweaked : PublicKey) (term : UInt16) :
    instructions enforceMinimal (fundingScript tweaked term) =
      [.ok (termPush term.toNat), .ok (.op OP_CSV), .ok (.op OP_DROP),
        .ok (.pushBytes tweaked.toBytes), .ok (.op OP_CHECKSIG)] := by
  have opcodeAbove : ∀ opcode : Opcode, 78 < opcode.code.toNat →
      OP_PUSHDATA4.code.toNat < opcode.code.toNat := fun _ above => above
  have keyLength := tweaked.toBytes_length
  rw [fundingScript_eq, instructions_of_next (next_pushInt_term _ _ _),
    instructions_of_next (next_op _ (opcodeAbove OP_CSV (by decide))),
    instructions_of_next (next_op _ (opcodeAbove OP_DROP (by decide))),
    instructions_of_next (next_pushSlice _ (by split at keyLength <;> omega)
      (by rintro ⟨-, single, -⟩; split at keyLength <;> omega)),
    instructions_of_next (next_op _ (opcodeAbove OP_CHECKSIG (by decide))), instructions_nil]

theorem termPush_scriptNum (term : UInt16) :
    (termPush term.toNat).scriptNum = some (term.toNat : Int) := by
  have bound := term.toNat_lt_size
  simp only [UInt16.size] at bound
  unfold termPush
  split_ifs with zero small
  · simp [zero, Instruction.scriptNum, readScriptint, Except.toOption]
  · have opcode : (0x50 + term.toNat).toUInt8.toNat = 0x50 + term.toNat :=
      UInt8.toNat_ofNat_of_lt (by unfold UInt8.size; omega)
    have notNegate : (0x50 + term.toNat).toUInt8 ≠ 0x4f := fun same => by
      have := congrArg UInt8.toNat same
      rw [opcode, show (0x4f : UInt8).toNat = 79 from rfl] at this; omega
    simp only [Instruction.scriptNum, notNegate, if_false, opcode]
    rw [if_pos (by omega)]
    simp
  · simp [Instruction.scriptNum, readScriptint_scriptNumBytes (show term.toNat < 2 ^ 31 by omega),
      Except.toOption]

theorem fundingScript_injective {tweaked other : PublicKey} {term otherTerm : UInt16}
    (same : fundingScript tweaked term = fundingScript other otherTerm) :
    tweaked = other ∧ term = otherTerm := by
  have parsed := congrArg (instructions false) same
  simp only [fundingScript_instructions, List.cons.injEq, Except.ok.injEq,
    Instruction.pushBytes.injEq] at parsed
  obtain ⟨pushes, -, -, keys, -⟩ := parsed
  have terms := congrArg Instruction.scriptNum pushes
  simp only [termPush_scriptNum, Option.some.injEq, Nat.cast_inj] at terms
  exact ⟨PublicKey.toBytes_injective keys, UInt16.toNat.inj terms⟩

/-- Equal funding addresses come from the same key and term, or from two different funding
scripts on which SHA-256 collides. -/
theorem fundingAddress_eq {sha256 : List UInt8 → List UInt8} {tweaked other : PublicKey}
    {term otherTerm : UInt16}
    (same : fundingAddress sha256 tweaked term = fundingAddress sha256 other otherTerm) :
    (tweaked = other ∧ term = otherTerm) ∨
      (fundingScript tweaked term ≠ fundingScript other otherTerm ∧
        sha256 (fundingScript tweaked term) = sha256 (fundingScript other otherTerm)) := by
  simp only [fundingAddress, Address.p2wsh, Address.mk.injEq, Payload.witnessProgram.injEq,
    true_and] at same
  by_cases scripts : fundingScript tweaked term = fundingScript other otherTerm
  · exact .inl (fundingScript_injective scripts)
  · exact .inr ⟨scripts, same⟩

theorem fundingScript_spec :
    (∀ (enforceMinimal : Bool) (tweaked : PublicKey) (term : UInt16),
      instructions enforceMinimal (fundingScript tweaked term) =
          [.ok (termPush term.toNat), .ok (.op OP_CSV), .ok (.op OP_DROP),
            .ok (.pushBytes tweaked.toBytes), .ok (.op OP_CHECKSIG)] ∧
        (termPush term.toNat).scriptNum = some (term.toNat : Int)) ∧
    Function.Injective (fun keyTerm : PublicKey × UInt16 => fundingScript keyTerm.1 keyTerm.2) ∧
    ∀ (sha256 : List UInt8 → List UInt8) (tweaked other : PublicKey) (term otherTerm : UInt16),
      fundingAddress sha256 tweaked term = fundingAddress sha256 other otherTerm →
        (tweaked = other ∧ term = otherTerm) ∨
          (fundingScript tweaked term ≠ fundingScript other otherTerm ∧
            sha256 (fundingScript tweaked term) = sha256 (fundingScript other otherTerm)) :=
  ⟨fun enforceMinimal tweaked term =>
      ⟨fundingScript_instructions enforceMinimal tweaked term, termPush_scriptNum term⟩,
    fun _ _ same => Prod.ext_iff.2 (fundingScript_injective same),
    fun _ _ _ _ _ same => fundingAddress_eq same⟩

/-- Under a hash that sends every script to the same bytes, the funding addresses of two terms
are equal, and the address part of the specification reports the collision. -/
theorem constant_hash_collides :
    ((⟨true, generatorKey⟩ : PublicKey) = ⟨true, generatorKey⟩ ∧ (144 : UInt16) = 145) ∨
      (fundingScript ⟨true, generatorKey⟩ 144 ≠ fundingScript ⟨true, generatorKey⟩ 145 ∧
        (fun _ => ([] : List UInt8)) (fundingScript ⟨true, generatorKey⟩ 144) =
          (fun _ => ([] : List UInt8)) (fundingScript ⟨true, generatorKey⟩ 145)) :=
  fundingScript_spec.2.2 (fun _ => []) _ _ _ _ rfl

end BtcDk
