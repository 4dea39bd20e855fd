import Mathlib.Data.Nat.Digits
import Mathlib.Data.Nat.Bitwise

/-!
# Script numbers

`Builder::push_int` pushes every integer outside `-1..=16` as a *script number*: the bytes of
`build_scriptint`, which a script interpreter reads back with `read_scriptint`.  Both live in
the `bitcoin` crate's `script` module; this file models them as that crate writes them and
relates the encoder to the description of a script number as the minimal little-endian bytes of
the magnitude, with one more byte when the top bit of the last one is taken, and the sign in that
top bit.  The encoder casts the magnitude `as usize`, so what it writes depends on the target:
the width of `usize` is a parameter.  Reading back gives the sign with the magnitude that survived
the cast when that fits the four bytes the reader accepts, and a numeric overflow otherwise; on a
64-bit target every `i64` survives, so every integer of magnitude below `2^31` reads back as
itself.
-/

namespace BtcDk

/-- The errors of `script::Error` that reading a script can raise. -/
inductive ScriptError where
  | earlyEndOfScript
  | nonMinimalPush
  | numericOverflow
  deriving DecidableEq, Repr

/-- The `while abs > 0xFF` loop of `build_scriptint`: the bytes it pushes, least significant
first, and the value of `abs` it leaves behind. -/
def scriptintLoop (abs : Nat) : List UInt8 × Nat :=
  if abs > 0xFF then
    let rest := scriptintLoop (abs >>> 8)
    ((abs &&& 0xFF).toUInt8 :: rest.1, rest.2)
  else ([], abs)
termination_by abs
decreasing_by rw [Nat.shiftRight_eq_div_pow]; omega

/-- `script::build_scriptint` on a target whose `usize` has `usizeBits` bits: the magnitude, cast
`as usize` (which keeps its low `usizeBits` bits), in little-endian bytes, the sign in the top bit
of the last byte, and one more byte when the magnitude already uses that bit.  (`-n` overflows for
`i64::MIN`; the model takes the magnitude `2^63`, as a build without overflow checks does.) -/
def buildScriptint (usizeBits : Nat) (n : Int) : List UInt8 :=
  if n = 0 then [] else
    let neg := n < 0
    let loop := scriptintLoop (n.natAbs % 2 ^ usizeBits)
    if loop.2 &&& 0x80 ≠ 0 then loop.1 ++ [loop.2.toUInt8, if neg then 0x80 else 0]
    else loop.1 ++ [(loop.2 ||| if neg then 0x80 else 0).toUInt8]

/-- The closure `read_scriptint` folds over the bytes: add the byte at the current shift, move
the shift on by eight bits. -/
def scriptintFold (accShift : Nat × Nat) (byte : UInt8) : Nat × Nat :=
  (accShift.1 + (byte.toNat <<< accShift.2), accShift.2 + 8)

/-- `script::read_scriptint`: at most four bytes, little-endian, with the top bit of the last byte
as the sign. -/
def readScriptint (v : List UInt8) : Except ScriptError Int :=
  let len := v.length
  if len = 0 then .ok 0
  else if len > 4 then .error .numericOverflow
  else
    let folded := v.foldl scriptintFold (0, 0)
    if v.getLastD 0 &&& 0x80 ≠ 0 then
      .ok (-((folded.1 &&& ((1 <<< (folded.2 - 1)) - 1) : Nat) : Int))
    else .ok folded.1

/-- A non-negative script number as the design describes it: the minimal little-endian bytes of the
value, and an extra `0x00` when the top bit of the last of them is set. -/
def scriptNumBytes (n : Nat) : List UInt8 :=
  let digits := Nat.digits 256 n
  if 0x80 ≤ digits.getLastD 0 then digits.map Nat.toUInt8 ++ [0] else digits.map Nat.toUInt8

/-- The script number of a negative value as the design describes it: the bytes of its magnitude
with the sign bit set in the last byte. -/
def withSignBit (v : List UInt8) : List UInt8 := v.dropLast ++ [v.getLastD 0 ||| 0x80]

theorem scriptintLoop_of_le {abs : Nat} (small : abs ≤ 0xFF) : scriptintLoop abs = ([], abs) := by
  rw [scriptintLoop, if_neg (by omega)]

theorem scriptintLoop_of_lt {abs : Nat} (large : 0xFF < abs) :
    scriptintLoop abs =
      ((abs % 256).toUInt8 :: (scriptintLoop (abs / 256)).1, (scriptintLoop (abs / 256)).2) := by
  rw [scriptintLoop, if_pos large, Nat.shiftRight_eq_div_pow,
    show (0xFF : Nat) = 2 ^ 8 - 1 from rfl, Nat.and_pow_two_sub_one_eq_mod]

theorem toUInt8_toNat (byte : UInt8) : byte.toNat.toUInt8 = byte :=
  UInt8.toNat.inj (UInt8.toNat_ofNat_of_lt byte.toNat_lt_size)

/-- The loop leaves the most significant base-256 digit and pushes all the others. -/
theorem scriptintLoop_digits (abs : Nat) (positive : 0 < abs) :
    (scriptintLoop abs).1.map UInt8.toNat ++ [(scriptintLoop abs).2] = Nat.digits 256 abs := by
  induction abs using Nat.strongRecOn with
  | ind abs ih =>
    by_cases large : 0xFF < abs
    · have rest := ih (abs / 256) (by omega) (by omega)
      rw [scriptintLoop_of_lt large, Nat.digits_def' (by norm_num) positive, ← rest]
      simp [UInt8.toNat_ofNat_of_lt (Nat.mod_lt abs (by norm_num : 256 > 0))]
    · rw [scriptintLoop_of_le (by omega), Nat.digits_of_lt 256 abs (by omega) (by omega)]
      rfl

theorem scriptintLoop_length_le {abs k : Nat} (bound : abs < 256 ^ (k + 1)) :
    (scriptintLoop abs).1.length ≤ k := by
  induction k generalizing abs with
  | zero => rw [scriptintLoop_of_le (by simp at bound; omega)]; simp
  | succ k ih =>
    by_cases large : 0xFF < abs
    · rw [scriptintLoop_of_lt large]
      have : abs / 256 < 256 ^ (k + 1) := by
        rw [Nat.div_lt_iff_lt_mul (by norm_num), ← pow_succ]; exact bound
      simpa using ih this
    · rw [scriptintLoop_of_le (by omega)]; simp

theorem scriptintLoop_snd_le (abs : Nat) : (scriptintLoop abs).2 ≤ 0xFF := by
  induction abs using Nat.strongRecOn with
  | ind abs ih =>
    by_cases large : 0xFF < abs
    · rw [scriptintLoop_of_lt large]; exact ih _ (by omega)
    · rw [scriptintLoop_of_le (by omega)]; omega

theorem buildScriptint_length_le (usizeBits : Nat) (n : Int) (inI64 : n.natAbs ≤ 2 ^ 63) :
    (buildScriptint usizeBits n).length ≤ 9 := by
  have loop := @scriptintLoop_length_le (n.natAbs % 2 ^ usizeBits) 7
    (by have := Nat.mod_le n.natAbs (2 ^ usizeBits); omega)
  simp only [buildScriptint]
  split_ifs <;> simp <;> omega

theorem and_0x80_ne_zero_iff {abs : Nat} (byte : abs < 256) : abs &&& 0x80 ≠ 0 ↔ 0x80 ≤ abs := by
  rw [show (0x80 : Nat) = 2 ^ 7 from rfl, Nat.and_two_pow, Nat.testBit_to_div_mod]
  by_cases top : 2 ^ 7 ≤ abs <;> simp [top] <;> omega

theorem buildScriptint_ofNat {usizeBits n : Nat} (kept : 0 < n % 2 ^ usizeBits) :
    buildScriptint usizeBits n = scriptNumBytes (n % 2 ^ usizeBits) := by
  have positive : 0 < n := Nat.pos_of_ne_zero fun zero => by simp [zero] at kept
  have digits := scriptintLoop_digits _ kept
  have topSmall : (scriptintLoop (n % 2 ^ usizeBits)).2 < 256 :=
    Nat.lt_succ_of_le (scriptintLoop_snd_le _)
  have lastDigit : (Nat.digits 256 (n % 2 ^ usizeBits)).getLastD 0 =
      (scriptintLoop (n % 2 ^ usizeBits)).2 := by
    rw [← digits, List.getLastD_eq_getLast?]; simp
  have mapped : (Nat.digits 256 (n % 2 ^ usizeBits)).map Nat.toUInt8 =
      (scriptintLoop (n % 2 ^ usizeBits)).1 ++ [(scriptintLoop (n % 2 ^ usizeBits)).2.toUInt8] := by
    rw [← digits]; simp [Function.comp_def, toUInt8_toNat]
  simp only [buildScriptint, scriptNumBytes]
  rw [if_neg (by omega), Int.natAbs_ofNat, lastDigit, mapped]
  by_cases top : 0x80 ≤ (scriptintLoop (n % 2 ^ usizeBits)).2
  · simp [(and_0x80_ne_zero_iff topSmall).2 top, top]
  · have clear : ¬ (scriptintLoop (n % 2 ^ usizeBits)).2 &&& 0x80 ≠ 0 :=
      fun set => top ((and_0x80_ne_zero_iff topSmall).1 set)
    have nonneg : ¬ (n : Int) < 0 := by omega
    simp [clear, top, nonneg]

/-- A positive value whose magnitude the cast wipes out is written as the single byte `0`. -/
theorem buildScriptint_ofNat_of_wraps {usizeBits n : Nat} (positive : 0 < n)
    (wraps : n % 2 ^ usizeBits = 0) : buildScriptint usizeBits n = [0] := by
  simp only [buildScriptint, Int.natAbs_ofNat, wraps, scriptintLoop_of_le (Nat.zero_le 0xFF)]
  rw [if_neg (by omega), if_neg (by decide), if_neg (by omega)]
  rfl

theorem byte_and_0x80_ne_zero_iff (byte : UInt8) : byte &&& 0x80 ≠ 0 ↔ 0x80 ≤ byte.toNat := by
  have toNatAnd : (byte &&& 0x80).toNat = byte.toNat &&& 0x80 := UInt8.and_toNat byte 0x80
  rw [← and_0x80_ne_zero_iff byte.toNat_lt_size, ← toNatAnd]
  exact ⟨fun nonzero zero => nonzero (UInt8.toNat.inj zero),
    fun nonzero zero => nonzero (congrArg UInt8.toNat zero)⟩

theorem foldl_scriptintFold (v : List UInt8) (acc shift : Nat) :
    v.foldl scriptintFold (acc, shift) =
      (acc + 2 ^ shift * Nat.ofDigits 256 (v.map UInt8.toNat), shift + 8 * v.length) := by
  induction v generalizing acc shift with
  | nil => simp
  | cons byte bytes ih =>
    simp only [List.foldl_cons, scriptintFold, ih, Nat.shiftLeft_eq, List.map_cons,
      Nat.ofDigits_cons, List.length_cons, Prod.mk.injEq]
    constructor
    · rw [pow_add]; push_cast; ring
    · ring

theorem readScriptint_of_sign_clear {v : List UInt8} (nonempty : v ≠ []) (short : v.length ≤ 4)
    (clear : (v.getLastD 0).toNat < 0x80) :
    readScriptint v = .ok (Nat.ofDigits 256 (v.map UInt8.toNat) : Nat) := by
  have positive : v.length ≠ 0 := by simpa using nonempty
  have sign : ¬ v.getLastD 0 &&& 0x80 ≠ 0 := fun set => by
    have := (byte_and_0x80_ne_zero_iff _).1 set; omega
  simp only [readScriptint, if_neg positive, if_neg (show ¬ v.length > 4 by omega), sign,
    if_false, foldl_scriptintFold]
  simp

theorem map_toNat_map_toUInt8 {digits : List Nat} (bytes : ∀ digit ∈ digits, digit < 256) :
    (digits.map Nat.toUInt8).map UInt8.toNat = digits := by
  rw [List.map_map]
  exact List.map_congr_left (fun digit mem => UInt8.toNat_ofNat_of_lt (bytes digit mem)) |>.trans
    (List.map_id digits)

theorem digits_bytes (m : Nat) : ∀ digit ∈ Nat.digits 256 m, digit < 256 :=
  fun _ => Nat.digits_lt_base (by norm_num)

theorem getLastD_map_toUInt8 (digits : List Nat) :
    (digits.map Nat.toUInt8).getLastD 0 = (digits.getLastD 0).toUInt8 := by
  rw [List.getLastD_eq_getLast?, List.getLast?_map, show (0 : UInt8) = Nat.toUInt8 0 from rfl,
    Option.getD_map, ← List.getLastD_eq_getLast?]

theorem ofDigits_scriptNumBytes (m : Nat) :
    Nat.ofDigits 256 ((scriptNumBytes m).map UInt8.toNat) = m := by
  simp only [scriptNumBytes]
  split <;> simp [map_toNat_map_toUInt8 (digits_bytes m), Nat.ofDigits_append, Nat.ofDigits_digits]

theorem scriptNumBytes_ne_nil {m : Nat} (positive : m ≠ 0) : scriptNumBytes m ≠ [] :=
  fun empty => positive (by rw [← ofDigits_scriptNumBytes m, empty]; rfl)

theorem scriptNumBytes_getLastD_lt (m : Nat) : ((scriptNumBytes m).getLastD 0).toNat < 0x80 := by
  simp only [scriptNumBytes]
  split
  · simp
  · rename_i top
    rw [getLastD_map_toUInt8, UInt8.toNat_ofNat_of_lt (by unfold UInt8.size; omega)]
    omega

/-- A value takes at most the four bytes the reader accepts exactly when it is below `2^31`. -/
theorem scriptNumBytes_length_le_iff (m : Nat) : (scriptNumBytes m).length ≤ 4 ↔ m < 2 ^ 31 := by
  rcases Nat.eq_zero_or_pos m with rfl | positive
  · simp [scriptNumBytes]
  have nonempty : Nat.digits 256 m ≠ [] := Nat.digits_ne_nil_iff_ne_zero.2 (by omega)
  have above := Nat.lt_base_pow_length_digits (b := 256) (m := m) (by norm_num)
  have below := Nat.base_pow_length_digits_le 256 m (by norm_num) (by omega)
  have bytes := digits_bytes m
  obtain ⟨init, top, split⟩ := (List.eq_nil_or_concat (Nat.digits 256 m)).resolve_left nonempty
  rw [List.concat_eq_append] at split
  have value : m = Nat.ofDigits 256 init + 256 ^ init.length * top := by
    conv_lhs => rw [← Nat.ofDigits_digits 256 m, split]
    rw [Nat.ofDigits_append, Nat.ofDigits_singleton]
  have low : Nat.ofDigits 256 init < 256 ^ init.length :=
    Nat.ofDigits_lt_base_pow_length (by norm_num) fun digit mem => bytes digit (by simp [split, mem])
  have topByte : top < 256 := bytes top (by simp [split])
  rw [split, List.length_append, List.length_singleton] at above below
  simp only [scriptNumBytes, split, List.getLastD_concat]
  rcases (show init.length ≤ 2 ∨ init.length = 3 ∨ 4 ≤ init.length by omega) with
    short | three | long
  · have := Nat.pow_le_pow_right (show 0 < 256 by norm_num) (show init.length + 1 ≤ 3 by omega)
    split_ifs <;> simp <;> omega
  · rw [three] at above value low
    norm_num at above value low
    split_ifs <;> simp <;> omega
  · have := Nat.pow_le_pow_right (show 0 < 256 by norm_num) (show 5 ≤ init.length + 1 by omega)
    split_ifs <;> simp <;> omega

theorem readScriptint_scriptNumBytes {n : Nat} (small : n < 2 ^ 31) :
    readScriptint (scriptNumBytes n) = .ok n := by
  rcases Nat.eq_zero_or_pos n with rfl | positive
  · simp [scriptNumBytes, readScriptint]
  rw [readScriptint_of_sign_clear (scriptNumBytes_ne_nil (by omega))
    ((scriptNumBytes_length_le_iff n).2 small) (scriptNumBytes_getLastD_lt n),
    ofDigits_scriptNumBytes]

theorem or_0x80 {x : Nat} (clear : x < 0x80) : x ||| 0x80 = x + 0x80 := by
  have table : ∀ y : Fin 0x80, y.val ||| 0x80 = y.val + 0x80 := by decide
  exact table ⟨x, clear⟩

theorem byte_or_toNat (a b : UInt8) : (a ||| b).toNat = a.toNat ||| b.toNat :=
  BitVec.toNat_or ..

theorem buildScriptint_neg {usizeBits : Nat} {n : Int} (negative : n < 0) :
    buildScriptint usizeBits n = withSignBit (buildScriptint usizeBits n.natAbs) := by
  have top := scriptintLoop_snd_le (n.natAbs % 2 ^ usizeBits)
  simp only [buildScriptint, withSignBit, if_neg (show n ≠ 0 by omega),
    if_neg (show (n.natAbs : Int) ≠ 0 by omega), Int.natAbs_ofNat, negative, if_true,
    show ¬ (n.natAbs : Int) < 0 by omega, if_false]
  split
  · simp [show (0 : UInt8) ||| 0x80 = 0x80 from rfl]
  · rename_i clear
    have small : (scriptintLoop (n.natAbs % 2 ^ usizeBits)).2 < 0x80 := by
      rw [and_0x80_ne_zero_iff (by omega)] at clear; omega
    simp only [Nat.or_zero, List.dropLast_concat, List.getLastD_concat, List.append_cancel_left_eq,
      List.cons.injEq, and_true]
    apply UInt8.toNat.inj
    have combined : ((scriptintLoop (n.natAbs % 2 ^ usizeBits)).2 ||| 0x80).toUInt8.toNat =
        (scriptintLoop (n.natAbs % 2 ^ usizeBits)).2 ||| 0x80 :=
      UInt8.toNat_ofNat_of_lt (by rw [or_0x80 small]; unfold UInt8.size; omega)
    have alone : (scriptintLoop (n.natAbs % 2 ^ usizeBits)).2.toUInt8.toNat =
        (scriptintLoop (n.natAbs % 2 ^ usizeBits)).2 :=
      UInt8.toNat_ofNat_of_lt (by unfold UInt8.size; omega)
    rw [byte_or_toNat, combined, alone]
    rfl

theorem ofDigits_bytes_lt (bytes : List UInt8) :
    Nat.ofDigits 256 (bytes.map UInt8.toNat) < 256 ^ bytes.length := by
  simpa using Nat.ofDigits_lt_base_pow_length (b := 256) (l := bytes.map UInt8.toNat) (by norm_num)
    (by simpa using fun byte _ => byte.toNat_lt_size)

/-- Up to four bytes whose last byte leaves the sign bit clear read back, with the sign bit set,
as the negation of their little-endian value: the reader masks the sign bit off again. -/
theorem readScriptint_withSignBit {v : List UInt8} (nonempty : v ≠ []) (short : v.length ≤ 4)
    (clear : (v.getLastD 0).toNat < 0x80) :
    readScriptint (withSignBit v) = .ok (-((Nat.ofDigits 256 (v.map UInt8.toNat) : Nat) : Int)) := by
  obtain ⟨init, last, rfl⟩ := (List.eq_nil_or_concat v).resolve_left nonempty
  rw [List.concat_eq_append] at short clear ⊢
  rw [List.getLastD_concat] at clear
  rw [List.length_append, List.length_singleton] at short
  have signBit : 2 ^ (8 * (init.length + 1) - 1) = 256 ^ init.length * 0x80 := by
    rw [show 8 * (init.length + 1) - 1 = 8 * init.length + 7 by omega, pow_add, pow_mul]; rfl
  have low := ofDigits_bytes_lt init
  have magnitude : Nat.ofDigits 256 (init.map UInt8.toNat) + 256 ^ init.length * last.toNat <
      256 ^ init.length * 0x80 := by
    have := Nat.mul_le_mul_left (256 ^ init.length) (show last.toNat + 1 ≤ 0x80 by omega)
    rw [Nat.mul_add, Nat.mul_one] at this; omega
  have lastSet : (last ||| 0x80).toNat = last.toNat + 0x80 := by
    rw [byte_or_toNat]; exact or_0x80 clear
  have sign : (last ||| 0x80) &&& 0x80 ≠ 0 := (byte_and_0x80_ne_zero_iff _).2 (by omega)
  simp only [withSignBit, List.dropLast_concat, List.getLastD_concat, readScriptint,
    List.length_append, List.length_singleton, foldl_scriptintFold, sign]
  rw [if_neg (by omega), if_neg (by omega), if_pos sign]
  simp only [List.map_append, List.map_cons, List.map_nil, Nat.ofDigits_append,
    Nat.ofDigits_singleton, lastSet, List.length_map, Nat.shiftLeft_eq, one_mul, zero_add,
    pow_zero]
  rw [Nat.and_pow_two_sub_one_eq_mod, signBit, Nat.mul_add, ← Nat.add_assoc, Nat.add_mod_right,
    Nat.mod_eq_of_lt magnitude]

theorem withSignBit_length {v : List UInt8} (nonempty : v ≠ []) :
    (withSignBit v).length = v.length := by
  have := List.length_pos.2 nonempty
  simp [withSignBit]; omega

theorem readScriptint_of_length_gt {v : List UInt8} (long : 4 < v.length) :
    readScriptint v = .error .numericOverflow := by
  simp only [readScriptint]
  rw [if_neg (by omega), if_pos long]

/-- The reader inverts the encoder on the range it accepts: every integer reads back as its sign
times the magnitude that survived the cast to `usize`, when that is below `2^31`, and as a
numeric overflow otherwise. -/
theorem readScriptint_buildScriptint (usizeBits : Nat) (n : Int) :
    readScriptint (buildScriptint usizeBits n) =
      if n.natAbs % 2 ^ usizeBits < 2 ^ 31 then .ok (n.sign * (n.natAbs % 2 ^ usizeBits : Nat))
      else .error .numericOverflow := by
  rcases Int.lt_trichotomy n 0 with negative | rfl | positive
  · rcases Nat.eq_zero_or_pos (n.natAbs % 2 ^ usizeBits) with wraps | kept
    · rw [buildScriptint_neg negative, buildScriptint_ofNat_of_wraps (by omega) wraps, wraps,
        if_pos (by norm_num), Nat.cast_zero, mul_zero]
      rfl
    have nonempty := scriptNumBytes_ne_nil (m := n.natAbs % 2 ^ usizeBits) (by omega)
    have fits := scriptNumBytes_length_le_iff (n.natAbs % 2 ^ usizeBits)
    rw [buildScriptint_neg negative, buildScriptint_ofNat kept, Int.sign_eq_neg_one_of_neg negative]
    split_ifs with small
    · rw [readScriptint_withSignBit nonempty (fits.2 small) (scriptNumBytes_getLastD_lt _),
        ofDigits_scriptNumBytes, neg_one_mul]
    · exact readScriptint_of_length_gt (by rw [withSignBit_length nonempty]; omega)
  · rfl
  · obtain ⟨m, rfl⟩ := Int.eq_ofNat_of_zero_le positive.le
    rw [Int.natAbs_ofNat, Int.sign_eq_one_of_pos positive, one_mul]
    rcases Nat.eq_zero_or_pos (m % 2 ^ usizeBits) with wraps | kept
    · rw [buildScriptint_ofNat_of_wraps (by omega) wraps, wraps, if_pos (by norm_num)]
      rfl
    have fits := scriptNumBytes_length_le_iff (m % 2 ^ usizeBits)
    rw [buildScriptint_ofNat kept]
    split_ifs with small
    · rw [readScriptint_of_sign_clear (scriptNumBytes_ne_nil (by omega)) (fits.2 small)
        (scriptNumBytes_getLastD_lt _), ofDigits_scriptNumBytes]
    · exact readScriptint_of_length_gt (by omega)

end BtcDk
