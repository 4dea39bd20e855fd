import BtcDk.ScriptNum

/-!
# secp256k1 public keys and `PublicKey::to_bytes`

`ContentStore::funding_script` pushes `tweaked.to_bytes()`: the secp256k1 serialisation of the
tweaked key, 33 bytes when the key is marked compressed and 65 bytes otherwise.  A point of the
curve is given here by its x-coordinate and the parity of its y-coordinate, which is what the
compressed form records; the uncompressed form writes out the y-coordinate, the square root of
`x³ + 7` of that parity.  The main result is that `to_bytes` is injective, so that a script that
embeds it determines the key.
-/

namespace BtcDk

/-- The prime of the field secp256k1 is defined over. -/
def fieldPrime : Nat := 2 ^ 256 - 2 ^ 32 - 977

/-- Modular exponentiation by repeated squaring over the low `bits` bits of the exponent. -/
def powMod : (bits base exponent modulus : Nat) → Nat
  | 0, _, _, modulus => 1 % modulus
  | bits + 1, base, exponent, modulus =>
    let half := powMod bits base (exponent / 2) modulus
    if exponent % 2 = 0 then half * half % modulus else half * half % modulus * base % modulus

/-- A square root of `x³ + 7` modulo the field prime: since the prime is `3 (mod 4)`, raising to
`(p + 1) / 4` (a 254-bit exponent) gives one whenever there is one. -/
@[irreducible]
def curveRoot (x : Nat) : Nat := powMod 256 (x ^ 3 + 7) ((fieldPrime + 1) / 4) fieldPrime

/-- A finite point of secp256k1 (a `secp256k1::PublicKey`), by its x-coordinate and the parity
of its y-coordinate. -/
@[ext]
structure Secp256k1Key where
  x : Nat
  yOdd : Bool
  x_lt : x < fieldPrime
  onCurve : curveRoot x ^ 2 % fieldPrime = (x ^ 3 + 7) % fieldPrime
  deriving DecidableEq

/-- `value` as `width` big-endian bytes. -/
def toBigEndian : (width value : Nat) → List UInt8
  | 0, _ => []
  | width + 1, value => toBigEndian width (value / 256) ++ [(value % 256).toUInt8]

namespace Secp256k1Key

/-- The y-coordinate: the root of `x³ + 7` with the recorded parity. -/
def y (key : Secp256k1Key) : Nat :=
  let root := curveRoot key.x
  if decide (root % 2 = 1) = key.yOdd then root else fieldPrime - root

/-- `PublicKey::serialize`: the tag `0x02` or `0x03` for the parity of y, then x. -/
def serialize (key : Secp256k1Key) : List UInt8 :=
  (if key.yOdd then 0x03 else 0x02) :: toBigEndian 32 key.x

/-- `PublicKey::serialize_uncompressed`: the tag `0x04`, then x and y. -/
def serializeUncompressed (key : Secp256k1Key) : List UInt8 :=
  0x04 :: (toBigEndian 32 key.x ++ toBigEndian 32 key.y)

end Secp256k1Key

/-- `bitcoin::PublicKey`: a secp256k1 key and whether it is written in compressed form. -/
structure PublicKey where
  compressed : Bool
  key : Secp256k1Key
  deriving DecidableEq

/-- `PublicKey::to_bytes`. -/
def PublicKey.toBytes (publicKey : PublicKey) : List UInt8 :=
  if publicKey.compressed then publicKey.key.serialize else publicKey.key.serializeUncompressed

@[simp]
theorem toBigEndian_length (width value : Nat) : (toBigEndian width value).length = width := by
  induction width generalizing value with
  | zero => rfl
  | succ width ih => simp [toBigEndian, ih]

theorem toBigEndian_injective {width first second : Nat} (firstLt : first < 256 ^ width)
    (secondLt : second < 256 ^ width) (same : toBigEndian width first = toBigEndian width second) :
    first = second := by
  induction width generalizing first second with
  | zero => simp at firstLt secondLt; omega
  | succ width ih =>
    obtain ⟨high, low⟩ := List.append_inj same (by simp)
    have lowEq : first % 256 = second % 256 := by
      have := congrArg (fun bytes => (List.headD bytes 0).toNat) low
      simpa [UInt8.toNat_ofNat_of_lt (Nat.mod_lt _ (show 256 > 0 by norm_num))] using this
    have highEq : first / 256 = second / 256 :=
      ih (by rw [Nat.div_lt_iff_lt_mul (by norm_num), ← pow_succ]; exact firstLt)
        (by rw [Nat.div_lt_iff_lt_mul (by norm_num), ← pow_succ]; exact secondLt) high
    omega

theorem powMod_lt (bits base exponent : Nat) {modulus : Nat} (positive : 0 < modulus) :
    powMod bits base exponent modulus < modulus := by
  cases bits with
  | zero => exact Nat.mod_lt _ positive
  | succ bits => simp only [powMod]; split_ifs <;> exact Nat.mod_lt _ positive

theorem curveRoot_lt (x : Nat) : curveRoot x < fieldPrime := by
  rw [curveRoot]; exact powMod_lt _ _ _ (by norm_num [fieldPrime])

theorem fieldPrime_odd : fieldPrime % 2 = 1 := by norm_num [fieldPrime]

theorem fieldPrime_lt : fieldPrime < 256 ^ 32 := by norm_num [fieldPrime]

/-- The y-coordinate has the parity the key records, since the field prime is odd. -/
theorem Secp256k1Key.y_odd (key : Secp256k1Key) : decide (key.y % 2 = 1) = key.yOdd := by
  have rootLt := curveRoot_lt key.x
  have odd := fieldPrime_odd
  simp only [y]
  split
  · assumption
  · rename_i flipped
    cases parity : key.yOdd <;> rw [parity] at flipped <;> simp at flipped ⊢ <;> omega

theorem Secp256k1Key.y_lt (key : Secp256k1Key) : key.y < 256 ^ 32 := by
  have rootLt := curveRoot_lt key.x
  have := fieldPrime_lt
  simp only [y]
  split <;> omega

@[simp]
theorem PublicKey.toBytes_length (publicKey : PublicKey) :
    publicKey.toBytes.length = if publicKey.compressed then 33 else 65 := by
  unfold toBytes Secp256k1Key.serialize Secp256k1Key.serializeUncompressed
  split <;> simp

theorem Secp256k1Key.serialize_injective {first second : Secp256k1Key}
    (same : first.serialize = second.serialize) : first = second := by
  simp only [serialize, List.cons.injEq] at same
  obtain ⟨tag, xBytes⟩ := same
  have xEq := toBigEndian_injective (lt_trans first.x_lt fieldPrime_lt)
    (lt_trans second.x_lt fieldPrime_lt) xBytes
  ext
  · exact xEq
  · revert tag
    cases first.yOdd <;> cases second.yOdd <;> decide

theorem Secp256k1Key.serializeUncompressed_injective {first second : Secp256k1Key}
    (same : first.serializeUncompressed = second.serializeUncompressed) : first = second := by
  simp only [serializeUncompressed, List.cons.injEq, true_and] at same
  obtain ⟨xBytes, yBytes⟩ := List.append_inj same (by simp)
  have xEq := toBigEndian_injective (lt_trans first.x_lt fieldPrime_lt)
    (lt_trans second.x_lt fieldPrime_lt) xBytes
  have yEq := toBigEndian_injective first.y_lt second.y_lt yBytes
  ext
  · exact xEq
  · rw [← first.y_odd, ← second.y_odd, yEq]

/-- `to_bytes` determines the key: the length tells the two forms apart, and each form
determines the point. -/
theorem PublicKey.toBytes_injective : Function.Injective PublicKey.toBytes := by
  intro first second same
  have lengths := congrArg List.length same
  simp only [toBytes_length] at lengths
  cases first with
  | mk firstCompressed firstKey =>
    cases second with
    | mk secondCompressed secondKey =>
      cases firstCompressed <;> cases secondCompressed <;> simp at lengths <;>
        simp only [toBytes, if_true, if_false, Bool.false_eq_true] at same
      · rw [Secp256k1Key.serializeUncompressed_injective same]
      · rw [Secp256k1Key.serialize_injective same]

set_option maxRecDepth 10000 in
/-- The generator of secp256k1 (its y-coordinate is even). -/
def generatorKey : Secp256k1Key :=
  ⟨0x79BE667EF9DCBBAC55A06295CE870B07029BFCDB2DCE28D959F2815B16F81798, false,
    by norm_num [fieldPrime], by with_unfolding_all decide⟩

end BtcDk
