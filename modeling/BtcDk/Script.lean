import BtcDk.ScriptNum

/-!
# Script building and the instruction iterator

The `bitcoin` crate's `script::Builder` appends opcodes and data pushes to a byte string, and
`Script::instructions` cuts a byte string back into instructions.  This file models both, byte
for byte, and proves the facts a caller of the builder relies on: an opcode outside the push
range reads back as itself, and a direct push reads back as its data, whatever follows.  The
iterator is modelled as it runs on a 64-bit target; on a 32-bit one the length sum of an
`OP_PUSHDATA4` arm that declares `2^32 - 5` bytes or more wraps, and the slice after it panics.
-/

namespace BtcDk

/-- An opcode of `opcodes::All`, given by its byte. -/
structure Opcode where
  code : UInt8
  deriving DecidableEq, Repr

namespace Opcode

/-- `opcodes::OP_FALSE`, the empty push `OP_PUSHBYTES_0`. -/
def OP_FALSE : Opcode := ⟨0x00⟩
/-- `opcodes::OP_TRUE`, that is `OP_PUSHNUM_1`; `OP_PUSHNUM_n` follows it at `0x50 + n`. -/
def OP_TRUE : Opcode := ⟨0x51⟩
def OP_PUSHDATA1 : Opcode := ⟨0x4c⟩
def OP_PUSHDATA2 : Opcode := ⟨0x4d⟩
def OP_PUSHDATA4 : Opcode := ⟨0x4e⟩
def OP_DROP : Opcode := ⟨0x75⟩
def OP_CHECKSIG : Opcode := ⟨0xac⟩
/-- `OP_CSV`, the relative time lock `OP_CHECKSEQUENCEVERIFY` (formerly `OP_NOP3`). -/
def OP_CSV : Opcode := ⟨0xb2⟩

end Opcode

open Opcode

/-- `script::Instruction`: a data push, or any other opcode. -/
inductive Instruction where
  | pushBytes (data : List UInt8)
  | op (opcode : Opcode)
  deriving DecidableEq, Repr

/-- `script::Builder`: the script bytes pushed so far.  The crate's second field, the last opcode
pushed, serves only `push_verify`, which nothing here calls. -/
structure Builder where
  bytes : List UInt8
  deriving DecidableEq, Repr

namespace Builder

def new : Builder := ⟨[]⟩

def intoScript (builder : Builder) : List UInt8 := builder.bytes

def pushOpcode (builder : Builder) (opcode : Opcode) : Builder := ⟨builder.bytes ++ [opcode.code]⟩

/-- `Builder::push_slice`: the shortest push opcode for the length, then the data.  The crate
panics on a slice of `2^32` bytes or more; `fits` rules that branch out. -/
def pushSlice (builder : Builder) (data : List UInt8) (fits : data.length < 0x100000000) :
    Builder :=
  let n := data.length
  let header : List UInt8 :=
    if n < OP_PUSHDATA1.code.toNat then [n.toUInt8]
    else if n < 0x100 then [OP_PUSHDATA1.code, n.toUInt8]
    else if n < 0x10000 then [OP_PUSHDATA2.code, (n % 0x100).toUInt8, (n / 0x100).toUInt8]
    else if inRange : n < 0x100000000 then
      [OP_PUSHDATA4.code, (n % 0x100).toUInt8, (n / 0x100 % 0x100).toUInt8,
        (n / 0x10000 % 0x100).toUInt8, (n / 0x1000000).toUInt8]
    else absurd fits inRange
  ⟨builder.bytes ++ header ++ data⟩

theorem natAbs_toInt_le (data : BitVec 64) : data.toInt.natAbs ≤ 2 ^ 63 := by
  rw [BitVec.toInt_eq_toNat_cond]; have := data.isLt; split <;> omega

/-- `Builder::push_scriptint`: an `i64` as script-number data, on a target whose `usize` has
`usizeBits` bits. -/
def pushScriptint (builder : Builder) (usizeBits : Nat) (data : BitVec 64) : Builder :=
  builder.pushSlice (buildScriptint usizeBits data.toInt) (by
    have short := buildScriptint_length_le usizeBits data.toInt (natAbs_toInt_le data)
    omega)

/-- `Builder::push_int`: `-1` and `1..=16` as `OP_PUSHNUM_n`, `0` as `OP_FALSE`, anything else
as a script number. -/
def pushInt (builder : Builder) (usizeBits : Nat) (data : BitVec 64) : Builder :=
  if data.toInt = -1 ∨ (1 ≤ data.toInt ∧ data.toInt ≤ 16) then
    builder.pushOpcode ⟨(data.toInt - 1 + OP_TRUE.code.toNat).toNat.toUInt8⟩
  else if data.toInt = 0 then builder.pushOpcode OP_FALSE
  else builder.pushScriptint usizeBits data

/-- `push_int` writes the same bytes on every target on which the magnitude survives the cast
to `usize`. -/
theorem pushInt_target (builder : Builder) {usizeBits usizeBits' : Nat} {data : BitVec 64}
    (fits : data.toInt.natAbs < 2 ^ usizeBits) (fits' : data.toInt.natAbs < 2 ^ usizeBits') :
    builder.pushInt usizeBits data = builder.pushInt usizeBits' data := by
  have same : buildScriptint usizeBits data.toInt = buildScriptint usizeBits' data.toInt := by
    simp only [buildScriptint, Nat.mod_eq_of_lt fits, Nat.mod_eq_of_lt fits']
  simp only [pushInt, pushScriptint, same]

theorem pushSlice_bytes_of_lt (builder : Builder) {data : List UInt8}
    (fits : data.length < 0x100000000) (short : data.length < 76) :
    (builder.pushSlice data fits).bytes = builder.bytes ++ data.length.toUInt8 :: data := by
  simp [pushSlice, show OP_PUSHDATA1.code.toNat = 76 from rfl, short]

end Builder

/-- `read_uint(data, size)`: the first `size` bytes of `data` as a little-endian number. -/
def readUint (data : List UInt8) (size : Nat) : Except ScriptError Nat :=
  if data.length < size then .error .earlyEndOfScript
  else .ok ((data.take size).enum.foldl (fun ret (i, item) => ret + (item.toNat <<< (i * 8))) 0)

theorem toNat_toUInt8 (x : Nat) : x.toUInt8.toNat = x % 256 := by
  simp [Nat.toUInt8, UInt8.ofNat, UInt8.toNat, BitVec.toNat_ofNat]

theorem readUint_append {header : List UInt8} (rest : List UInt8) :
    readUint (header ++ rest) header.length = readUint header header.length := by
  simp [readUint]

theorem readUint_one (b : UInt8) : readUint [b] 1 = .ok b.toNat := by
  simp [readUint, List.enum, List.enumFrom]

theorem readUint_two (b0 b1 : UInt8) : readUint [b0, b1] 2 = .ok (b0.toNat + (b1.toNat <<< 8)) := by
  simp [readUint, List.enum, List.enumFrom]

theorem readUint_four (b0 b1 b2 b3 : UInt8) :
    readUint [b0, b1, b2, b3] 4 =
      .ok (b0.toNat + (b1.toNat <<< 8) + (b2.toNat <<< 16) + (b3.toNat <<< 24)) := by
  simp [readUint, List.enum, List.enumFrom]

/-- The `OP_PUSHDATA2` and `OP_PUSHDATA4` arms of the iterator, reading after the opcode: a
`size`-byte length, then that much data, which a minimal script pushes this way only from
`minimum` bytes up.  These arms check minimality before the length of what follows.  Every error
ends the iteration, so the rest is then empty. -/
def pushData (enforceMinimal : Bool) (size minimum : Nat) (rest : List UInt8) :
    Except ScriptError Instruction × List UInt8 :=
  match readUint rest size with
  | .error error => (.error error, [])
  | .ok n =>
    if enforceMinimal ∧ n < minimum then (.error .nonMinimalPush, [])
    else if rest.length < size + n then (.error .earlyEndOfScript, [])
    else (.ok (.pushBytes ((rest.drop size).take n)), rest.drop (size + n))

/-- The `OP_PUSHDATA1` arm, a one-byte length and pushes from 76 bytes up: unlike the other two
arms it checks the length of what follows before minimality. -/
def pushData1 (enforceMinimal : Bool) (rest : List UInt8) :
    Except ScriptError Instruction × List UInt8 :=
  match readUint rest 1 with
  | .error error => (.error error, [])
  | .ok n =>
    if rest.length < 1 + n then (.error .earlyEndOfScript, [])
    else if enforceMinimal ∧ n < 76 then (.error .nonMinimalPush, [])
    else (.ok (.pushBytes ((rest.drop 1).take n)), rest.drop (1 + n))

/-- The two orders of the checks differ only on a push that is both cut short and not minimal:
there `OP_PUSHDATA1` reports the end of the script where the other arms report the push. -/
theorem pushData1_eq_or (enforceMinimal : Bool) (rest : List UInt8) :
    pushData1 enforceMinimal rest = pushData enforceMinimal 1 76 rest ∨
      pushData1 enforceMinimal rest = (.error .earlyEndOfScript, []) ∧
        pushData enforceMinimal 1 76 rest = (.error .nonMinimalPush, []) := by
  unfold pushData1 pushData
  split
  · exact .inl rfl
  · split_ifs <;> simp_all

/-- `Instructions::next`: the next instruction and the bytes after it, or `none` at the end. -/
def Instructions.next (enforceMinimal : Bool) :
    List UInt8 → Option (Except ScriptError Instruction × List UInt8)
  | [] => none
  | opcode :: rest =>
    if opcode.toNat ≤ 75 then
      let n := opcode.toNat
      if rest.length < n then some (.error .earlyEndOfScript, [])
      else if enforceMinimal ∧ n = 1 ∧
          (rest.headD 0 = 0x81 ∨ (0 < rest.headD 0 ∧ rest.headD 0 ≤ 16)) then
        some (.error .nonMinimalPush, [])
      else some (.ok (.pushBytes (rest.take n)), rest.drop n)
    else if opcode = OP_PUSHDATA1.code then some (pushData1 enforceMinimal rest)
    else if opcode = OP_PUSHDATA2.code then some (pushData enforceMinimal 2 0x100 rest)
    else if opcode = OP_PUSHDATA4.code then some (pushData enforceMinimal 4 0x10000 rest)
    else some (.ok (.op ⟨opcode⟩), rest)

theorem next_pushData1 (enforceMinimal : Bool) (rest : List UInt8) :
    Instructions.next enforceMinimal (OP_PUSHDATA1.code :: rest) =
      some (pushData1 enforceMinimal rest) := by
  simp only [Instructions.next]
  rw [if_neg (by decide), if_pos trivial]

theorem next_pushData2 (enforceMinimal : Bool) (rest : List UInt8) :
    Instructions.next enforceMinimal (OP_PUSHDATA2.code :: rest) =
      some (pushData enforceMinimal 2 0x100 rest) := by
  simp only [Instructions.next]
  rw [if_neg (by decide), if_neg (by decide), if_pos trivial]

theorem next_pushData4 (enforceMinimal : Bool) (rest : List UInt8) :
    Instructions.next enforceMinimal (OP_PUSHDATA4.code :: rest) =
      some (pushData enforceMinimal 4 0x10000 rest) := by
  simp only [Instructions.next]
  rw [if_neg (by decide), if_neg (by decide), if_neg (by decide), if_pos trivial]

theorem pushData_of_readUint {enforceMinimal : Bool} {size minimum : Nat}
    {header data rest : List UInt8} (sized : header.length = size)
    (reads : readUint header size = .ok data.length) (minimal : minimum ≤ data.length) :
    pushData enforceMinimal size minimum (header ++ data ++ rest) = (.ok (.pushBytes data), rest) := by
  subst sized
  rw [pushData, List.append_assoc, readUint_append, reads]
  simp only [List.length_append]
  rw [if_neg (by omega), if_neg (by omega)]
  simp

theorem pushData1_of_readUint {enforceMinimal : Bool} {header data rest : List UInt8}
    (sized : header.length = 1) (reads : readUint header 1 = .ok data.length)
    (minimal : 76 ≤ data.length) :
    pushData1 enforceMinimal (header ++ data ++ rest) = (.ok (.pushBytes data), rest) := by
  have accepted := @pushData_of_readUint enforceMinimal 1 76 header data rest sized reads minimal
  rcases pushData1_eq_or enforceMinimal (header ++ data ++ rest) with same | ⟨-, refused⟩
  · rw [same, accepted]
  · rw [accepted] at refused; cases refused

theorem pushData_length_le (enforceMinimal : Bool) (size minimum : Nat) (rest : List UInt8) :
    (pushData enforceMinimal size minimum rest).2.length ≤ rest.length := by
  unfold pushData
  split
  · simp
  · split_ifs <;> simp

theorem pushData1_length_le (enforceMinimal : Bool) (rest : List UInt8) :
    (pushData1 enforceMinimal rest).2.length ≤ rest.length := by
  rcases pushData1_eq_or enforceMinimal rest with same | ⟨cut, -⟩
  · rw [same]; exact pushData_length_le _ _ _ _
  · rw [cut]; exact Nat.zero_le _

theorem Instructions.length_lt_of_next {enforceMinimal : Bool} {data rest : List UInt8}
    {item : Except ScriptError Instruction}
    (stepped : Instructions.next enforceMinimal data = some (item, rest)) :
    rest.length < data.length := by
  cases data with
  | nil => simp [Instructions.next] at stepped
  | cons opcode tail =>
    have bound : ∀ next, Instructions.next enforceMinimal (opcode :: tail) = some next →
        next.2.length ≤ tail.length := by
      intro next stepped
      simp only [Instructions.next] at stepped
      split_ifs at stepped <;> cases stepped <;> simp [pushData_length_le, pushData1_length_le]
    exact Nat.lt_succ_of_le (bound _ stepped)

/-- The instructions of a script, in order, as `Script::instructions` (`enforceMinimal = false`)
or `Script::instructions_minimal` yields them; after an error the iterator yields nothing more. -/
def instructions (enforceMinimal : Bool) (script : List UInt8) :
    List (Except ScriptError Instruction) :=
  match _stepped : Instructions.next enforceMinimal script with
  | none => []
  | some (item, rest) => item :: instructions enforceMinimal rest
termination_by script.length
decreasing_by exact Instructions.length_lt_of_next _stepped

@[simp]
theorem instructions_nil (enforceMinimal : Bool) : instructions enforceMinimal [] = [] := by
  rw [instructions]; rfl

theorem instructions_of_next {enforceMinimal : Bool} {script rest : List UInt8}
    {item : Except ScriptError Instruction}
    (stepped : Instructions.next enforceMinimal script = some (item, rest)) :
    instructions enforceMinimal script = item :: instructions enforceMinimal rest := by
  rw [instructions]
  split <;> simp_all

theorem next_op {enforceMinimal : Bool} {opcode : UInt8} (rest : List UInt8)
    (nonPush : OP_PUSHDATA4.code.toNat < opcode.toNat) :
    Instructions.next enforceMinimal (opcode :: rest) = some (.ok (.op ⟨opcode⟩), rest) := by
  have notPushData : ∀ code : UInt8, code.toNat ≤ OP_PUSHDATA4.code.toNat → opcode ≠ code :=
    fun _ below same => by subst same; omega
  rw [show OP_PUSHDATA4.code.toNat = 78 from rfl] at nonPush notPushData
  simp only [Instructions.next]
  rw [if_neg (by omega),
    if_neg (notPushData _ (by decide)), if_neg (notPushData _ (by decide)),
    if_neg (notPushData _ (by decide))]

theorem next_pushSlice {enforceMinimal : Bool} {data : List UInt8} (rest : List UInt8)
    (short : data.length < 76)
    (minimal : ¬ (enforceMinimal ∧ data.length = 1 ∧
      ((data ++ rest).headD 0 = 0x81 ∨ (0 < (data ++ rest).headD 0 ∧ (data ++ rest).headD 0 ≤ 16)))) :
    Instructions.next enforceMinimal (data.length.toUInt8 :: (data ++ rest)) =
      some (.ok (.pushBytes data), rest) := by
  have lengthByte : data.length.toUInt8.toNat = data.length :=
    UInt8.toNat_ofNat_of_lt (by unfold UInt8.size; omega)
  simp only [Instructions.next, lengthByte]
  rw [if_pos (by omega), if_neg (by simp), if_neg minimal]
  simp

end BtcDk
