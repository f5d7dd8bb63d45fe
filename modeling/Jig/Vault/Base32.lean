import Jig.Lib.BigEndian

/-!
# Base32

`base32` of the redaction (`jig-vault`, `redact.rs`) shifts the bytes of a secret through a buffer
of 16 bits and takes five bits at a time from it. What has been taken is shifted out but never
cleared. `standardBase32` is the encoding as the standard describes it, and `base32_eq` says that
the two agree on every byte string.
-/

namespace Jig.Vault

open Lib Lib.BigEndian

/-! ### The code -/

def alphabet : List Char := "ABCDEFGHIJKLMNOPQRSTUVWXYZ234567".toList

/-- `ALPHABET[index] as char`; an index has five bits. -/
def letter (index : Nat) : Char :=
  alphabet.getD index 'A'

example : ∀ n : Fin 32,
    letter n = Char.ofNat (if n.val < 26 then 'A'.toNat + n else '2'.toNat + (n - 26)) := by decide

/-- The variables of the loop. The counter is at most 12. -/
structure Base32State where
  output : List Char
  buffer : BitVec 16
  bits : Nat

/-- `while bits >= 5`. -/
def Base32State.drain (s : Base32State) : Base32State :=
  if 5 ≤ s.bits then
    let shift := s.bits - 5
    let index := (s.buffer >>> shift &&& 0b11111#16).toNat
    drain { s with output := s.output ++ [letter index], bits := s.bits - 5 }
  else
    s
termination_by s.bits

variable (s : Base32State)

/-- The body of the loop over the bytes. -/
def Base32State.step (byte : UInt8) : Base32State :=
  drain { s with buffer := s.buffer <<< 8 ||| byte.toBitVec.setWidth 16, bits := s.bits + 8 }

/-- The last group. -/
def Base32State.finish : List Char :=
  if 0 < s.bits then
    s.output ++ [letter (s.buffer <<< (5 - s.bits) &&& 0b11111#16).toNat]
  else
    s.output

/-- The loop that pads. Every character is one byte. -/
def padOutput (output : List Char) : List Char :=
  if output.length % 8 = 0 then output else padOutput (output ++ ['='])
termination_by (8 - output.length % 8) % 8
decreasing_by
  simp only [List.length_append, List.length_singleton]
  omega

def base32 (bytes : Bytes) (padded : Bool) : String :=
  let output := (bytes.foldl Base32State.step ⟨[], 0, 0⟩).finish
  String.ofList (if padded then padOutput output else output)

/-! ### The encoding -/

def inputBits (bytes : Bytes) : List Bool :=
  bytes.flatMap fun byte => lowBits 8 byte.toNat

/-- Groups of five bits; zeros are added on the right of the last one. -/
def fiveBitGroups : List Bool → List (List Bool)
  | [] => []
  | a :: b :: c :: d :: e :: rest => [a, b, c, d, e] :: fiveBitGroups rest
  | last => [last ++ List.replicate (5 - last.length) false]

def encodeBits (bits : List Bool) : List Char :=
  (fiveBitGroups bits).map fun group => letter (ofBits group)

/-- The standard encoding. With padding the length is the next multiple of eight. -/
def standardBase32 (bytes : Bytes) (padded : Bool) : String :=
  let text := encodeBits (inputBits bytes)
  String.ofList (if padded then text ++ List.replicate ((text.length + 7) / 8 * 8 - text.length) '='
    else text)

example : standardBase32 [0x66, 0x6f, 0x6f, 0x62] true = "MZXW6YQ=" := by decide

/-! ### Agreement -/

/-- A group in front. -/
theorem encodeBits_lowBits_append (n : Nat) (rest : List Bool) :
    encodeBits (lowBits 5 n ++ rest) = letter (n % 2 ^ 5) :: encodeBits rest := by
  show letter (ofBits (lowBits 5 n)) :: encodeBits rest = _
  rw [ofBits_lowBits]

/-- A last group that is not full. -/
theorem encodeBits_lowBits {k : Nat} (hpos : 0 < k) (hlt : k < 5) (n : Nat) :
    encodeBits (lowBits k n) = [letter (n <<< (5 - k) % 2 ^ 5)] := by
  have hgroup : fiveBitGroups (lowBits k n) = [lowBits 5 (n <<< (5 - k))] := by
    have : k = 1 ∨ k = 2 ∨ k = 3 ∨ k = 4 := by omega
    rcases this with rfl | rfl | rfl | rfl <;> simp [lowBits, fiveBitGroups, Nat.testBit_shiftLeft]
  rw [encodeBits, hgroup, List.map_singleton, ofBits_lowBits]

theorem toNat_mask (x : BitVec 16) : (x &&& 0b11111#16).toNat = x.toNat % 2 ^ 5 :=
  Nat.and_two_pow_sub_one_eq_mod _ 5

namespace Base32State

/-- What is written once the unread bits of the buffer and the bits behind them are. -/
def total (rest : List Bool) : List Char :=
  s.output ++ encodeBits (lowBits s.bits s.buffer.toNat ++ rest)

/-- **Taking bits** changes nothing but where they are. -/
theorem drain_spec (rest : List Bool) : s.drain.total rest = s.total rest ∧ s.drain.bits < 5 := by
  fun_induction drain s with
  | case1 s h shift index ih =>
      refine ⟨ih.1.trans ?_, ih.2⟩
      have hindex : index = s.buffer.toNat >>> shift % 2 ^ 5 := by
        rw [← BitVec.toNat_ushiftRight]
        exact toNat_mask _
      have hsplit := lowBits_add 5 shift s.buffer.toNat
      rw [show 5 + shift = s.bits by omega] at hsplit
      rw [total, total, hsplit, List.append_assoc _ (lowBits shift _), encodeBits_lowBits_append,
        ← hindex, List.append_assoc]
      rfl
  | case2 s h => exact ⟨rfl, Nat.lt_of_not_le h⟩

/-- The byte comes behind the unread bits, and pushes none of them out of the buffer. -/
theorem lowBits_push (buffer : BitVec 16) (byte : UInt8) {k : Nat} (hk : k ≤ 8) :
    lowBits (k + 8) (buffer <<< 8 ||| byte.toBitVec.setWidth 16).toNat =
      lowBits k buffer.toNat ++ lowBits 8 byte.toNat := by
  have hbit {i : Nat} (hi : i < 16) : (buffer <<< 8 ||| byte.toBitVec.setWidth 16).toNat.testBit i =
      (!decide (i < 8) && buffer.getLsbD (i - 8) || byte.toBitVec.getLsbD i) := by
    rw [BitVec.testBit_toNat, BitVec.getLsbD_or, BitVec.getLsbD_shiftLeft, BitVec.getLsbD_setWidth]
    simp [hi]
  rw [lowBits_add]
  congr 1
  · refine lowBits_congr fun i hi => ?_
    rw [Nat.testBit_shiftRight, hbit (by omega)]
    simp [BitVec.testBit_toNat]
  · refine lowBits_congr fun i hi => ?_
    rw [hbit (by omega), decide_eq_true hi]
    rfl

variable {s}

theorem step_spec (hbits : s.bits < 5) (byte : UInt8) (rest : List Bool) :
    (s.step byte).total rest = s.total (lowBits 8 byte.toNat ++ rest) ∧ (s.step byte).bits < 5 := by
  obtain ⟨htotal, hlt⟩ := drain_spec
    { s with buffer := s.buffer <<< 8 ||| byte.toBitVec.setWidth 16, bits := s.bits + 8 } rest
  refine ⟨htotal.trans ?_, hlt⟩
  rw [total, total, lowBits_push _ _ (by omega), List.append_assoc]

/-- **The loop.** -/
theorem foldl_step_spec (hbits : s.bits < 5) (bytes : Bytes) :
    (bytes.foldl step s).total [] = s.total (inputBits bytes) ∧ (bytes.foldl step s).bits < 5 := by
  induction bytes generalizing s with
  | nil => exact ⟨rfl, hbits⟩
  | cons byte bytes ih =>
      obtain ⟨htotal, hlt⟩ := step_spec hbits byte (inputBits bytes)
      obtain ⟨hrest, hlast⟩ := ih hlt
      exact ⟨hrest.trans htotal, hlast⟩

theorem finish_eq (hbits : s.bits < 5) : s.finish = s.total [] := by
  unfold finish total
  rw [List.append_nil]
  split
  · next hpos =>
      rw [encodeBits_lowBits hpos hbits, toNat_mask, BitVec.toNat_shiftLeft,
        Nat.mod_mod_of_dvd _ (by decide)]
  · next hzero =>
      rw [Nat.eq_zero_of_not_pos hzero]
      exact (List.append_nil _).symm

end Base32State

theorem padOutput_eq (output : List Char) :
    padOutput output =
      output ++ List.replicate ((output.length + 7) / 8 * 8 - output.length) '=' := by
  fun_induction padOutput output with
  | case1 output h =>
      have hnone : (output.length + 7) / 8 * 8 - output.length = 0 := by omega
      rw [hnone, List.replicate_zero, List.append_nil]
  | case2 output h ih =>
      have hsucc : (output.length + 7) / 8 * 8 - output.length =
          (output.length + 1 + 7) / 8 * 8 - (output.length + 1) + 1 := by omega
      rw [ih, hsucc, List.length_append, List.length_singleton, List.append_assoc,
        List.replicate_succ]
      rfl

/-- **Base32.** What the loop writes is the standard encoding, with and without padding. -/
theorem base32_eq (bytes : Bytes) (padded : Bool) :
    base32 bytes padded = standardBase32 bytes padded := by
  obtain ⟨htotal, hbits⟩ := Base32State.foldl_step_spec (s := ⟨[], 0, 0⟩) (by decide) bytes
  unfold base32 standardBase32
  simp only [Base32State.finish_eq hbits, htotal, padOutput_eq]
  rfl

end Jig.Vault
