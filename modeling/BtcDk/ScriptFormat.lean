import BtcDk.FundingScript

/-!
# The builder and the instruction iterator are inverse

`Script::instructions` reads back whatever a `script::Builder` writes.  For every slice up to the
`2^32` bytes `push_slice` accepts, the iterator finds the length where the builder put it (in the
opcode, or in the one, two or four little-endian bytes after `OP_PUSHDATA1`, `OP_PUSHDATA2`,
`OP_PUSHDATA4`) and returns the slice; every `i64` that `push_int` writes comes back as one
instruction, which a script interpreter reads as the integer that the cast to `usize` left; and a
script built by any chain of such calls reads back call by call.  `Script::instructions_minimal`
reads every script as `instructions` does, up to the first push that has a shorter form, where it
stops: there `instructions` reads the push or, in the two arms that check minimality before the
length, finds the script cut short.  The builder writes such a push only for a one-byte slice that
has an opcode of its own, or for an integer whose magnitude the cast cuts down to one.
-/

namespace BtcDk

open Opcode

/-- A slice with no shorter push: anything but a single byte that `OP_1NEGATE` or one of `OP_1`
to `OP_16` pushes, the check `instructions_minimal` makes of a one-byte push. -/
def minimalSlice : List UInt8 → Bool
  | [byte] => !(byte = 0x81 ∨ (0 < byte ∧ byte ≤ 16))
  | _ => true

theorem minimalSlice_of_length_ne_one {data : List UInt8} (notSingle : data.length ≠ 1) :
    minimalSlice data = true := by
  match data, notSingle with
  | [], _ => rfl
  | _ :: _ :: _, _ => rfl

theorem next_direct (enforceMinimal : Bool) {data : List UInt8} (rest : List UInt8)
    (short : data.length < 76) :
    Instructions.next enforceMinimal (data.length.toUInt8 :: (data ++ rest)) =
      if enforceMinimal ∧ minimalSlice data = false then some (.error .nonMinimalPush, [])
      else some (.ok (.pushBytes data), rest) := by
  have lengthByte : data.length.toUInt8.toNat = data.length := by rw [toNat_toUInt8]; omega
  have check : (enforceMinimal ∧ data.length = 1 ∧ ((data ++ rest).headD 0 = 0x81 ∨
      (0 < (data ++ rest).headD 0 ∧ (data ++ rest).headD 0 ≤ 16))) ↔
      (enforceMinimal ∧ minimalSlice data = false) := by
    match data with
    | [] => simp [minimalSlice]
    | [byte] => simp [minimalSlice, or_iff_not_imp_left]
    | _ :: _ :: _ => simp [minimalSlice]
  simp only [Instructions.next, lengthByte]
  rw [if_pos (by omega), if_neg (by simp)]
  by_cases nonMinimal : enforceMinimal ∧ minimalSlice data = false
  · rw [if_pos (check.2 nonMinimal), if_pos nonMinimal]
  · rw [if_neg (mt check.1 nonMinimal), if_neg nonMinimal]
    simp

/-- Every slice that `push_slice` accepts reads back as its data, whatever follows, through the
direct push and through each `OP_PUSHDATAn` arm; only `instructions_minimal` refuses, and only a
single byte that has an opcode of its own. -/
theorem next_pushSlice_bytes (enforceMinimal : Bool) (data : List UInt8)
    (fits : data.length < 0x100000000) (rest : List UInt8) :
    Instructions.next enforceMinimal ((Builder.new.pushSlice data fits).bytes ++ rest) =
      if enforceMinimal ∧ minimalSlice data = false then some (.error .nonMinimalPush, [])
      else some (.ok (.pushBytes data), rest) := by
  by_cases direct : data.length < 76
  · rw [Builder.pushSlice_bytes_of_lt _ fits direct, Builder.new, List.nil_append, List.cons_append]
    exact next_direct enforceMinimal rest direct
  rw [if_neg (by simp [minimalSlice_of_length_ne_one (show data.length ≠ 1 by omega)])]
  simp only [Builder.pushSlice, Builder.new, show OP_PUSHDATA1.code.toNat = 76 from rfl,
    if_neg direct, List.nil_append]
  split_ifs with pd1 pd2
  · show Instructions.next _ (OP_PUSHDATA1.code :: ([data.length.toUInt8] ++ data ++ rest)) = _
    rw [next_pushData1]
    exact congrArg some (pushData1_of_readUint rfl
      (by rw [readUint_one, toNat_toUInt8, Nat.mod_eq_of_lt pd1]) (by omega))
  · show Instructions.next _ (OP_PUSHDATA2.code ::
      ([(data.length % 0x100).toUInt8, (data.length / 0x100).toUInt8] ++ data ++ rest)) = _
    rw [next_pushData2]
    exact congrArg some (pushData_of_readUint rfl
      (by rw [readUint_two, toNat_toUInt8, toNat_toUInt8, Nat.shiftLeft_eq]; congr 1; omega)
      (by omega))
  · show Instructions.next _ (OP_PUSHDATA4.code ::
      ([(data.length % 0x100).toUInt8, (data.length / 0x100 % 0x100).toUInt8,
        (data.length / 0x10000 % 0x100).toUInt8, (data.length / 0x1000000).toUInt8] ++ data ++
        rest)) = _
    rw [next_pushData4]
    exact congrArg some (pushData_of_readUint rfl
      (by simp only [readUint_four, toNat_toUInt8, Nat.shiftLeft_eq]; congr 1; omega) (by omega))

/-- The instruction `push_int` writes for an integer on a target whose `usize` has `usizeBits`
bits: the empty push for zero, `OP_1NEGATE` for minus one, `OP_1` to `OP_16` for one to sixteen,
and the script number `build_scriptint` writes for anything else. -/
def intPush (usizeBits : Nat) (n : Int) : Instruction :=
  if n = 0 then .pushBytes []
  else if n = -1 then .op ⟨0x4f⟩
  else if 1 ≤ n ∧ n ≤ 16 then .op ⟨(0x50 + n.toNat).toUInt8⟩
  else .pushBytes (buildScriptint usizeBits n)

/-- Whether `instructions_minimal` reads an instruction back: every opcode, and every data push
but a single byte that has an opcode of its own. -/
def minimalPush : Instruction → Bool
  | .pushBytes data => minimalSlice data
  | .op _ => true

theorem minimalSlice_single {byte : UInt8} (large : 17 ≤ byte.toNat) (notNegate : byte.toNat ≠ 0x81) :
    minimalSlice [byte] = true := by
  have notSmall : ¬ (0 < byte ∧ byte ≤ 16) := fun ⟨_, small⟩ => by
    have : byte.toNat ≤ 16 := by simpa [UInt8.le_def, BitVec.le_def] using small
    omega
  have notByte : byte ≠ 0x81 := fun same => notNegate (by rw [same]; rfl)
  simp [minimalSlice, notSmall, notByte]

/-- `push_int` writes a script number only where no opcode pushes the value, so when the magnitude
survives the cast to `usize` the one-byte numbers it writes are minimal pushes. -/
theorem minimalSlice_buildScriptint {usizeBits : Nat} {n : Int} (fits : n.natAbs < 2 ^ usizeBits)
    (nonzero : n ≠ 0) (noOpcode : ¬ (n = -1 ∨ (1 ≤ n ∧ n ≤ 16))) :
    minimalSlice (buildScriptint usizeBits n) = true := by
  have kept : n.natAbs % 2 ^ usizeBits = n.natAbs := Nat.mod_eq_of_lt fits
  have magnitude : buildScriptint usizeBits n.natAbs = scriptNumBytes n.natAbs := by
    rw [buildScriptint_ofNat (by rw [kept]; omega), kept]
  have last := scriptNumBytes_getLastD_lt n.natAbs
  have value := ofDigits_scriptNumBytes n.natAbs
  by_cases notSingle : (buildScriptint usizeBits n).length ≠ 1
  · exact minimalSlice_of_length_ne_one notSingle
  have single : (buildScriptint usizeBits n).length = 1 := not_not.1 notSingle
  rcases Int.lt_trichotomy n 0 with negative | zero | positive
  · have nonempty := scriptNumBytes_ne_nil (m := n.natAbs) (by omega)
    rw [buildScriptint_neg negative, magnitude] at single ⊢
    rw [withSignBit_length nonempty] at single
    obtain ⟨byte, isSingle⟩ := List.length_eq_one.1 single
    rw [isSingle] at last value ⊢
    simp [Nat.ofDigits] at last value
    have set : (byte ||| 0x80).toNat = byte.toNat + 0x80 := by
      rw [byte_or_toNat]; exact or_0x80 last
    show minimalSlice [byte ||| 0x80] = true
    exact minimalSlice_single (by omega) (by omega)
  · exact absurd zero nonzero
  · obtain ⟨m, rfl⟩ := Int.eq_ofNat_of_zero_le positive.le
    rw [Int.natAbs_ofNat] at magnitude last value
    rw [magnitude] at single ⊢
    obtain ⟨byte, isSingle⟩ := List.length_eq_one.1 single
    rw [isSingle] at last value ⊢
    simp [Nat.ofDigits] at last value
    exact minimalSlice_single (by omega) (by omega)

theorem minimalPush_intPush {usizeBits : Nat} {n : Int} (fits : n.natAbs < 2 ^ usizeBits) :
    minimalPush (intPush usizeBits n) = true := by
  unfold intPush
  split_ifs with zero minusOne small
  · rfl
  · rfl
  · rfl
  · exact minimalSlice_buildScriptint fits zero (not_or.2 ⟨minusOne, small⟩)

theorem next_pushInt (usizeBits : Nat) (enforceMinimal : Bool) (data : BitVec 64)
    (rest : List UInt8) :
    Instructions.next enforceMinimal ((Builder.new.pushInt usizeBits data).bytes ++ rest) =
      if enforceMinimal ∧ minimalPush (intPush usizeBits data.toInt) = false then
        some (.error .nonMinimalPush, [])
      else some (.ok (intPush usizeBits data.toInt), rest) := by
  by_cases opcode : data.toInt = -1 ∨ (1 ≤ data.toInt ∧ data.toInt ≤ 16)
  · have code : ((data.toInt - 1 + (OP_TRUE.code.toNat : Int)).toNat.toUInt8).toNat =
        (data.toInt + 0x50).toNat := by
      rw [toNat_toUInt8, show OP_TRUE.code.toNat = 81 from rfl]; omega
    have pushed : intPush usizeBits data.toInt =
        .op ⟨(data.toInt - 1 + OP_TRUE.code.toNat).toNat.toUInt8⟩ := by
      rw [intPush, if_neg (by omega)]
      rcases opcode with minusOne | small
      · rw [if_pos minusOne, minusOne]; rfl
      · rw [if_neg (by omega), if_pos small]
        congr 2
        apply UInt8.toNat.inj
        rw [code, toNat_toUInt8]; omega
    rw [pushed, if_neg (by simp [minimalPush]), Builder.pushInt, if_pos opcode, Builder.pushOpcode,
      Builder.new, List.nil_append, List.singleton_append]
    exact next_op rest (by rw [code, show OP_PUSHDATA4.code.toNat = 78 from rfl]; omega)
  by_cases zero : data.toInt = 0
  · rw [intPush, if_pos zero, if_neg (by simp [minimalPush, minimalSlice]), Builder.pushInt,
      if_neg opcode, if_pos zero]
    simp [Builder.pushOpcode, Builder.new, OP_FALSE, Instructions.next]
  have pushed : intPush usizeBits data.toInt = .pushBytes (buildScriptint usizeBits data.toInt) := by
    rw [intPush, if_neg zero, if_neg fun minusOne => opcode (.inl minusOne),
      if_neg fun small => opcode (.inr small)]
  rw [pushed, Builder.pushInt, if_neg opcode, if_neg zero, Builder.pushScriptint,
    next_pushSlice_bytes]
  rfl

theorem intPush_scriptNum {usizeBits : Nat} (wide : 16 ≤ usizeBits) (n : Int) :
    (intPush usizeBits n).scriptNum =
      if n.natAbs % 2 ^ usizeBits < 2 ^ 31 then some (n.sign * (n.natAbs % 2 ^ usizeBits : Nat))
      else none := by
  unfold intPush
  by_cases opcodeRange : n = 0 ∨ n = -1 ∨ (1 ≤ n ∧ n ≤ 16)
  · have kept : n.natAbs % 2 ^ usizeBits = n.natAbs := Nat.mod_eq_of_lt
      (lt_of_lt_of_le (show n.natAbs < 2 ^ 16 by omega) (Nat.pow_le_pow_right (by norm_num) wide))
    rw [kept, if_pos (show n.natAbs < 2 ^ 31 by omega), Int.sign_mul_natAbs]
    rcases opcodeRange with zero | minusOne | small
    · rw [if_pos zero, zero]; rfl
    · rw [if_neg (by omega), if_pos minusOne, minusOne]; rfl
    · have code : (0x50 + n.toNat).toUInt8.toNat = 0x50 + n.toNat := by rw [toNat_toUInt8]; omega
      have notNegate : (0x50 + n.toNat).toUInt8 ≠ 0x4f := fun same => by
        have := congrArg UInt8.toNat same
        rw [code, show (0x4f : UInt8).toNat = 79 from rfl] at this; omega
      rw [if_neg (by omega), if_neg (by omega), if_pos small]
      simp only [Instruction.scriptNum, notNegate, if_false, code]
      rw [if_pos (by omega)]
      congr 1; omega
  · rw [if_neg (by omega), if_neg (by omega), if_neg (by omega), Instruction.scriptNum,
      readScriptint_buildScriptint]
    split_ifs <;> rfl

/-- Every `i64` that `push_int` writes, on a target whose `usize` has `usizeBits` bits, reads back
as one instruction under `instructions`, and under `instructions_minimal` too unless that refuses
it as not minimal, which it never does when the magnitude survives the cast to `usize`.  A script
interpreter reads the instruction as the sign times the magnitude that survived the cast, when that
fits the four bytes of a script number, and refuses it as a number otherwise. -/
theorem pushInt_reads_back (usizeBits : Nat) (wide : 16 ≤ usizeBits) (enforceMinimal : Bool)
    (data : BitVec 64) (rest : List UInt8) :
    Instructions.next enforceMinimal ((Builder.new.pushInt usizeBits data).bytes ++ rest) =
        (if enforceMinimal ∧ minimalPush (intPush usizeBits data.toInt) = false then
          some (.error .nonMinimalPush, [])
        else some (.ok (intPush usizeBits data.toInt), rest)) ∧
      (data.toInt.natAbs < 2 ^ usizeBits → minimalPush (intPush usizeBits data.toInt) = true) ∧
      (intPush usizeBits data.toInt).scriptNum =
        if data.toInt.natAbs % 2 ^ usizeBits < 2 ^ 31 then
          some (data.toInt.sign * (data.toInt.natAbs % 2 ^ usizeBits : Nat))
        else none :=
  ⟨next_pushInt usizeBits enforceMinimal data rest, minimalPush_intPush,
    intPush_scriptNum wide data.toInt⟩

theorem intPush_wrapped : intPush 32 (4294967301 : BitVec 64).toInt = .pushBytes [5] := by
  have value : (4294967301 : BitVec 64).toInt = 4294967301 := by decide
  have wrapped : (4294967301 : Int).natAbs % 2 ^ 32 = 5 := by norm_num
  rw [value, intPush, if_neg (by norm_num), if_neg (by norm_num), if_neg (by norm_num),
    buildScriptint, if_neg (by norm_num), wrapped, scriptintLoop_of_le (by norm_num)]
  rfl

/-- On a 32-bit target, `push_int(2^32 + 5)` writes the one-byte push of `5`: `instructions_minimal`
refuses it as not minimal, and it reads as the number `5`. -/
theorem pushInt_wraps_on_32_bits :
    Instructions.next true ((Builder.new.pushInt 32 4294967301).bytes ++ []) =
        some (.error .nonMinimalPush, []) ∧
      (intPush 32 (4294967301 : BitVec 64).toInt).scriptNum = some 5 := by
  obtain ⟨reads, -, number⟩ := pushInt_reads_back 32 (by norm_num) true 4294967301 []
  rw [intPush_wrapped] at reads
  exact ⟨by rw [reads]; rfl, by rw [intPush_wrapped]; rfl⟩

/-- A call on a `script::Builder` that writes to the script. -/
inductive BuilderCall where
  | pushOpcode (opcode : Opcode)
  | pushSlice (data : List UInt8) (fits : data.length < 0x100000000)
  | pushInt (data : BitVec 64)

namespace BuilderCall

/-- The builder after the call, on a target whose `usize` has `usizeBits` bits. -/
def run (usizeBits : Nat) (builder : Builder) : BuilderCall → Builder
  | .pushOpcode opcode => builder.pushOpcode opcode
  | .pushSlice data fits => builder.pushSlice data fits
  | .pushInt data => builder.pushInt usizeBits data

/-- The instruction the call writes. -/
def instruction (usizeBits : Nat) : BuilderCall → Instruction
  | .pushOpcode opcode => .op opcode
  | .pushSlice data _ => .pushBytes data
  | .pushInt data => intPush usizeBits data.toInt

/-- Whether an iterator reads the call back as its instruction: an opcode outside the push range,
and any push (under `instructions_minimal`, a minimal one). -/
def readsBack (usizeBits : Nat) (enforceMinimal : Bool) (call : BuilderCall) : Bool :=
  match call with
  | .pushOpcode opcode => OP_PUSHDATA4.code.toNat < opcode.code.toNat
  | _ => !enforceMinimal || minimalPush (call.instruction usizeBits)

theorem run_bytes (usizeBits : Nat) (call : BuilderCall) (builder : Builder) :
    (call.run usizeBits builder).bytes = builder.bytes ++ (call.run usizeBits Builder.new).bytes := by
  cases call with
  | pushOpcode => simp [run, Builder.pushOpcode, Builder.new]
  | pushSlice => simp [run, Builder.pushSlice, Builder.new]
  | pushInt =>
    simp only [run, Builder.pushInt, Builder.pushScriptint]
    split_ifs <;> simp [Builder.pushOpcode, Builder.pushSlice, Builder.new]

theorem next_run {usizeBits : Nat} {enforceMinimal : Bool} {call : BuilderCall} (rest : List UInt8)
    (readsBack : call.readsBack usizeBits enforceMinimal = true) :
    Instructions.next enforceMinimal ((call.run usizeBits Builder.new).bytes ++ rest) =
      some (.ok (call.instruction usizeBits), rest) := by
  have accepted : ¬ (enforceMinimal ∧ minimalPush (call.instruction usizeBits) = false) := by
    cases call <;> cases enforceMinimal <;>
      simp_all [BuilderCall.readsBack, BuilderCall.instruction, minimalPush]
  cases call with
  | pushOpcode opcode =>
    exact next_op rest (by simpa [BuilderCall.readsBack] using readsBack)
  | pushSlice data fits => rw [run, next_pushSlice_bytes]; exact if_neg accepted
  | pushInt data => rw [run, next_pushInt]; exact if_neg accepted

end BuilderCall

/-- The script that a chain of calls from `Builder::new()` writes. -/
def Builder.build (usizeBits : Nat) (calls : List BuilderCall) : Builder :=
  calls.foldl (BuilderCall.run usizeBits) Builder.new

theorem foldl_run_bytes (usizeBits : Nat) (calls : List BuilderCall) (builder : Builder) :
    (calls.foldl (BuilderCall.run usizeBits) builder).bytes =
      builder.bytes ++ calls.flatMap fun call => (call.run usizeBits Builder.new).bytes := by
  induction calls generalizing builder with
  | nil => simp
  | cons call calls ih => rw [List.foldl_cons, ih, BuilderCall.run_bytes]; simp

/-- The iterator reads a script built by any chain of builder calls back as the chain's
instructions, one per call, provided each call reads back on its own. -/
theorem instructions_build (usizeBits : Nat) (enforceMinimal : Bool) (calls : List BuilderCall)
    (readsBack : calls.all (BuilderCall.readsBack usizeBits enforceMinimal) = true) :
    instructions enforceMinimal (Builder.build usizeBits calls).intoScript =
      calls.map fun call => .ok (call.instruction usizeBits) := by
  rw [Builder.build, Builder.intoScript, foldl_run_bytes, show Builder.new.bytes = [] from rfl,
    List.nil_append]
  induction calls with
  | nil => simp
  | cons call calls ih =>
    simp only [List.all_cons, Bool.and_eq_true] at readsBack
    rw [List.flatMap_cons, instructions_of_next (BuilderCall.next_run _ readsBack.1), ih readsBack.2,
      List.map_cons]

theorem funding_shape_reads_back :
    instructions true (Builder.build 32 [.pushInt 144, .pushOpcode OP_CSV, .pushOpcode OP_DROP,
        .pushSlice (List.replicate 80 7) (by decide), .pushOpcode OP_CHECKSIG]).intoScript =
      [.ok (intPush 32 (144 : BitVec 64).toInt), .ok (.op OP_CSV), .ok (.op OP_DROP),
        .ok (.pushBytes (List.replicate 80 7)), .ok (.op OP_CHECKSIG)] :=
  instructions_build 32 true _ (by
    simp only [List.all_cons, List.all_nil, BuilderCall.readsBack, BuilderCall.instruction,
      minimalPush_intPush (show (144 : BitVec 64).toInt.natAbs < 2 ^ 32 by decide)]
    decide)

end BtcDk
