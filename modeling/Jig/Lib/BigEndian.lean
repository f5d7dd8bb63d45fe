import Jig.Lib.Text
import Mathlib.Tactic.Linarith

/-!
# Big-endian numbers

Byte strings as numbers, most significant byte first, and the addition that walks them from the last
byte with a carry. On strings of one length it is addition modulo a power of 256
(`value_addBytes`), and the number determines the bytes (`value_injective`). The bits of a number
come in the same order.
-/

namespace Jig.Lib.BigEndian

/-- The number a byte string stands for. -/
def value : Bytes → Nat
  | [] => 0
  | b :: bs => b.toNat * 256 ^ bs.length + value bs

/-- The bytes of a number, as many as asked for. -/
def ofNat : Nat → Nat → Bytes
  | 0, _ => []
  | width + 1, n => UInt8.ofNat (n / 256 ^ width) :: ofNat width n

def overflowingAdd (a b : UInt8) : UInt8 × Bool :=
  (a + b, decide (256 ≤ a.toNat + b.toNat))

/-- One byte of the addition: both operands, then the carry. -/
def addByte (pair : UInt8 × UInt8) (rest : Bytes × Bool) : Bytes × Bool :=
  let (sum, firstCarry) := overflowingAdd pair.1 pair.2
  let (sum, secondCarry) := overflowingAdd sum (if rest.2 then 1 else 0)
  (sum :: rest.1, firstCarry || secondCarry)

/-- Addition from the last byte to the first; the last carry is dropped. -/
def addBytes (a b : Bytes) : Bytes :=
  ((a.zip b).foldr addByte ([], false)).1

theorem value_lt (bs : Bytes) : value bs < 256 ^ bs.length := by
  induction bs with
  | nil => simp [value]
  | cons b bs ih =>
      have hb : b.toNat ≤ 255 := by have := b.toNat_lt; omega
      have hmul : b.toNat * 256 ^ bs.length ≤ 255 * 256 ^ bs.length := Nat.mul_le_mul_right _ hb
      simp only [value, List.length_cons, Nat.pow_succ]
      omega

theorem length_foldr_addByte (pairs : List (UInt8 × UInt8)) :
    (pairs.foldr addByte ([], false)).1.length = pairs.length := by
  induction pairs with
  | nil => rfl
  | cons pair pairs ih => simp [addByte, ih]

theorem length_addBytes {a b : Bytes} (h : a.length = b.length) :
    (addBytes a b).length = a.length := by
  rw [addBytes, length_foldr_addByte, List.length_zip, h, Nat.min_self]

theorem overflowingAdd_spec (a b : UInt8) :
    (overflowingAdd a b).1.toNat + (overflowingAdd a b).2.toNat * 256 = a.toNat + b.toNat := by
  have ha := a.toNat_lt
  have hb := b.toNat_lt
  simp only [overflowingAdd, UInt8.toNat_add]
  by_cases hover : 256 ≤ a.toNat + b.toNat
  · simp only [hover, decide_true, Bool.toNat_true]
    omega
  · simp only [hover, decide_false, Bool.toNat_false]
    omega

/-- One byte: the sum and the carry out account for both operands and the carry in. -/
theorem addByte_spec (pair : UInt8 × UInt8) (rest : Bytes × Bool) :
    ∃ b : UInt8, (addByte pair rest).1 = b :: rest.1 ∧
      b.toNat + (addByte pair rest).2.toNat * 256 =
        pair.1.toNat + pair.2.toNat + rest.2.toNat := by
  obtain ⟨a, b⟩ := pair
  obtain ⟨bytes, carry⟩ := rest
  have ha := a.toNat_lt
  have hb := b.toNat_lt
  have hfirst := overflowingAdd_spec a b
  rcases hf : overflowingAdd a b with ⟨sum, firstCarry⟩
  have hsecond := overflowingAdd_spec sum (if carry then 1 else 0)
  rcases hs : overflowingAdd sum (if carry then 1 else 0) with ⟨total, secondCarry⟩
  have hcarry : (if carry then 1 else 0 : UInt8).toNat = carry.toNat := by
    cases carry <;> rfl
  rw [hf] at hfirst
  rw [hs, hcarry] at hsecond
  refine ⟨total, by simp [addByte, hf, hs], ?_⟩
  simp only [addByte, hf, hs] at hfirst hsecond ⊢
  -- the two carries are not both set: after the first one the byte is at most 254
  have hone : (firstCarry || secondCarry).toNat = firstCarry.toNat + secondCarry.toNat := by
    have hc : carry.toNat ≤ 1 := Bool.toNat_le carry
    cases firstCarry with
    | false => simp
    | true =>
        cases secondCarry with
        | false => rfl
        | true =>
            simp only [Bool.toNat_true] at hfirst hsecond
            omega
  rw [hone, Nat.add_mul]
  linarith only [hfirst, hsecond]

/-- The whole loop: the bytes and the last carry account for both operands. -/
theorem foldr_addByte_spec {a b : Bytes} (h : a.length = b.length) :
    value ((a.zip b).foldr addByte ([], false)).1 +
        ((a.zip b).foldr addByte ([], false)).2.toNat * 256 ^ a.length =
      value a + value b := by
  induction a generalizing b with
  | nil =>
      obtain rfl := List.length_eq_zero_iff.mp h.symm
      rfl
  | cons x a ih =>
      cases b with
      | nil => cases h
      | cons y b =>
          have hlen : a.length = b.length := Nat.succ.inj h
          rw [List.zip_cons_cons, List.foldr_cons]
          obtain ⟨z, hbytes, hz⟩ := addByte_spec (x, y) ((a.zip b).foldr addByte ([], false))
          rw [hbytes]
          have hrest := ih hlen
          have hlength : ((a.zip b).foldr addByte ([], false)).1.length = a.length := by
            rw [length_foldr_addByte, List.length_zip, hlen, Nat.min_self]
          simp only [value, hlength, List.length_cons, Nat.pow_succ, ← hlen]
          generalize ((a.zip b).foldr addByte ([], false)).2.toNat = carryIn at *
          generalize (addByte (x, y) _).2.toNat = carryOut at *
          -- both sides are linear in the weight of the first byte
          have hweight := congrArg (· * 256 ^ a.length) hz
          simp only [Nat.add_mul] at hweight
          nlinarith

/-- **Addition.** -/
theorem value_addBytes {a b : Bytes} (h : a.length = b.length) :
    value (addBytes a b) = (value a + value b) % 256 ^ a.length := by
  have hspec := foldr_addByte_spec h
  have hlt : value (addBytes a b) < 256 ^ a.length := by
    rw [← length_addBytes h]
    exact value_lt _
  rw [← hspec, Nat.add_mul_mod_self_right]
  exact (Nat.mod_eq_of_lt hlt).symm

/-- **Uniqueness.** -/
theorem value_injective {a b : Bytes} (hlen : a.length = b.length)
    (h : value a = value b) : a = b := by
  induction a generalizing b with
  | nil => exact (List.length_eq_zero_iff.mp hlen.symm).symm
  | cons x a ih =>
      cases b with
      | nil => cases hlen
      | cons y b =>
          have hlen' : a.length = b.length := Nat.succ.inj hlen
          simp only [value, hlen'] at h
          have ha : value a < 256 ^ b.length := hlen' ▸ value_lt a
          have hb : value b < 256 ^ b.length := value_lt b
          have hpos : 0 < 256 ^ b.length := Nat.pow_pos (by decide)
          -- the first byte is the quotient, the rest is the remainder
          have hquot := congrArg (· / 256 ^ b.length) h
          have hrem := congrArg (· % 256 ^ b.length) h
          simp only [Nat.mul_comm _ (256 ^ b.length), Nat.mul_add_div hpos,
            Nat.div_eq_of_lt ha, Nat.div_eq_of_lt hb, Nat.add_zero] at hquot
          simp only [Nat.mul_comm _ (256 ^ b.length), Nat.mul_add_mod, Nat.mod_eq_of_lt ha,
            Nat.mod_eq_of_lt hb] at hrem
          rw [UInt8.toNat_inj.mp hquot, ih hlen' hrem]

@[simp]
theorem length_ofNat (width n : Nat) : (ofNat width n).length = width := by
  induction width with
  | zero => rfl
  | succ width ih => simp [ofNat, ih]

theorem value_ofNat_mod (width n : Nat) : value (ofNat width n) = n % 256 ^ width := by
  induction width with
  | zero => simp [ofNat, value, Nat.mod_one]
  | succ width ih =>
      have hsplit : n % 256 ^ (width + 1) =
          n % 256 ^ width + 256 ^ width * (n / 256 ^ width % 256) := by
        rw [Nat.pow_succ]
        exact Nat.mod_mul
      rw [ofNat, value, length_ofNat, ih, UInt8.toNat_ofNat', hsplit, Nat.add_comm, Nat.mul_comm]

/-- A number that has room is read back. -/
theorem value_ofNat {width n : Nat} (h : n < 256 ^ width) : value (ofNat width n) = n := by
  rw [value_ofNat_mod, Nat.mod_eq_of_lt h]

/-- Bytes are those of their number. -/
theorem ofNat_value (bs : Bytes) : ofNat bs.length (value bs) = bs :=
  value_injective (length_ofNat ..) (value_ofNat (value_lt bs))

/-- A check value of 32 bytes that every byte enters: what a model that hashes can be run with. -/
def checksum (bytes : Bytes) : Bytes :=
  ofNat 32 (bytes.foldl (fun sum b => (sum * 257 + b.toNat + 1) % (256 ^ 32 - 189)) 0)

theorem length_checksum (bytes : Bytes) : (checksum bytes).length = 32 :=
  length_ofNat ..

/-! ### Bits -/

/-- The lowest bits of a number, the highest of them first. -/
def lowBits : Nat → Nat → List Bool
  | 0, _ => []
  | k + 1, n => n.testBit k :: lowBits k n

def ofBits (bits : List Bool) : Nat :=
  bits.foldl (fun n bit => 2 * n + bit.toNat) 0

theorem ofBits_lowBits (k n : Nat) : ofBits (lowBits k n) = n % 2 ^ k := by
  have hfrom (start : Nat) : (lowBits k n).foldl (fun n bit => 2 * n + bit.toNat) start =
      start * 2 ^ k + n % 2 ^ k := by
    induction k generalizing start with
    | zero => simp [lowBits, Nat.mod_one]
    | succ k ih =>
        rw [lowBits, List.foldl_cons, ih, Nat.mod_pow_succ, Nat.toNat_testBit, Nat.pow_succ]
        linarith
  rw [ofBits, hfrom, Nat.zero_mul, Nat.zero_add]

theorem lowBits_add (k m n : Nat) : lowBits (k + m) n = lowBits k (n >>> m) ++ lowBits m n := by
  induction k with
  | zero => simp [lowBits]
  | succ k ih =>
      rw [Nat.succ_add, lowBits, lowBits, ih, Nat.testBit_shiftRight, Nat.add_comm m k]
      rfl

theorem lowBits_congr {k n n' : Nat} (h : ∀ i < k, n.testBit i = n'.testBit i) :
    lowBits k n = lowBits k n' := by
  induction k with
  | zero => rfl
  | succ k ih =>
      rw [lowBits, lowBits, h k (Nat.lt_succ_self k), ih fun i hi => h i (Nat.lt_succ_of_lt hi)]

end Jig.Lib.BigEndian
