import Mathlib.Algebra.Group.Nat.Defs
import Mathlib.Data.List.Palindrome
import Mathlib.Data.Nat.Digits.Defs

set_option autoImplicit false

namespace Endian

inductive ByteOrder where
  | big
  | little
deriving DecidableEq, Repr

def fromLittle (bytes : List UInt8) : Nat := Nat.ofDigits 256 (bytes.map UInt8.toNat)

def toLittle : Nat → Nat → List UInt8
  | 0, _ => []
  | width + 1, value => UInt8.ofNat value :: toLittle width (value / 256)

def decode (order : ByteOrder) (bytes : List UInt8) : Nat :=
  match order with
  | .big => fromLittle bytes.reverse
  | .little => fromLittle bytes

def encode (order : ByteOrder) (width value : Nat) : List UInt8 :=
  match order with
  | .big => (toLittle width value).reverse
  | .little => toLittle width value

@[simp] theorem to_little_length (width value : Nat) : (toLittle width value).length = width := by
  induction width generalizing value with
  | zero => rfl
  | succ width ih => rw [toLittle, List.length_cons, ih]

@[simp] theorem encode_length (order : ByteOrder) (width value : Nat) : (encode order width value).length = width := by
  cases order with
  | big => rw [encode, List.length_reverse, to_little_length]
  | little => exact to_little_length width value

theorem from_little_cons (byte : UInt8) (rest : List UInt8) :
    fromLittle (byte :: rest) = byte.toNat + 256 * fromLittle rest := rfl

theorem from_to_little (width value : Nat) (fits : value < 256 ^ width) : fromLittle (toLittle width value) = value := by
  induction width generalizing value with
  | zero =>
      have zero : value = 0 := by simpa using fits
      rw [zero]
      rfl
  | succ width ih =>
      have rest : value / 256 < 256 ^ width := by
        rw [Nat.pow_succ, Nat.mul_comm] at fits
        exact Nat.div_lt_of_lt_mul fits
      have low : (UInt8.ofNat value).toNat = value % 256 := rfl
      rw [toLittle, from_little_cons, ih _ rest, low]
      exact Nat.mod_add_div value 256

theorem decode_encode (order : ByteOrder) (width value : Nat) (fits : value < 256 ^ width) :
    decode order (encode order width value) = value := by
  cases order with
  | big => rw [decode, encode, List.reverse_reverse, from_to_little width value fits]
  | little => exact from_to_little width value fits

theorem from_little_lt (bytes : List UInt8) : fromLittle bytes < 256 ^ bytes.length := by
  have digits : ∀ digit ∈ bytes.map UInt8.toNat, digit < 254 + 2 := by
    intro digit member
    obtain ⟨byte, _, rfl⟩ := List.mem_map.mp member
    exact byte.toNat_lt
  have bound := Nat.ofDigits_lt_base_pow_length' digits
  rwa [List.length_map] at bound

theorem decode_lt (order : ByteOrder) (bytes : List UInt8) : decode order bytes < 256 ^ bytes.length := by
  cases order with
  | big =>
      have bound := from_little_lt bytes.reverse
      rwa [List.length_reverse] at bound
  | little => exact from_little_lt bytes

theorem to_from_little (bytes : List UInt8) : toLittle bytes.length (fromLittle bytes) = bytes := by
  induction bytes with
  | nil => rfl
  | cons byte rest ih =>
      have small := byte.toNat_lt
      have high : (byte.toNat + 256 * fromLittle rest) / 256 = fromLittle rest := by omega
      have low : UInt8.ofNat (byte.toNat + 256 * fromLittle rest) = byte := by
        apply UInt8.toNat_inj.mp
        rw [UInt8.toNat_ofNat']
        omega
      rw [List.length_cons, from_little_cons, toLittle, high, ih, low]

theorem encode_decode (order : ByteOrder) (bytes : List UInt8) : encode order bytes.length (decode order bytes) = bytes := by
  cases order with
  | big =>
      have same := to_from_little bytes.reverse
      rw [List.length_reverse] at same
      rw [encode, decode, same, List.reverse_reverse]
  | little => exact to_from_little bytes

section Hosts

-- A number in the order that is not the host's.
def swapBytes (width value : Nat) : Nat := decode .big (encode .little width value)

-- `to_be`, and `from_be`: the host's own number if that is how it lays out numbers.
def toBe (host : ByteOrder) (width value : Nat) : Nat :=
  match host with
  | .big => value
  | .little => swapBytes width value

def toBeBytes (host : ByteOrder) (width value : Nat) : List UInt8 := encode host width (toBe host width value)

def fromBeBytes (host : ByteOrder) (bytes : List UInt8) : Nat := toBe host bytes.length (decode host bytes)

theorem to_be_bytes (host : ByteOrder) (width value : Nat) : toBeBytes host width value = encode .big width value := by
  cases host with
  | big => rfl
  | little =>
      have swapped := to_from_little (toLittle width value).reverse
      rw [List.length_reverse, to_little_length] at swapped
      exact swapped

theorem from_be_bytes (host : ByteOrder) (bytes : List UInt8) : fromBeBytes host bytes = decode .big bytes := by
  cases host with
  | big => rfl
  | little =>
      have read : encode .little bytes.length (decode .little bytes) = bytes := to_from_little bytes
      rw [fromBeBytes, toBe, swapBytes, read]

theorem decode_encode_swaps {encoding decoding : ByteOrder} (differ : encoding ≠ decoding) (width value : Nat) :
    decode decoding (encode encoding width value) = swapBytes width value := by
  cases encoding with
  | big =>
      cases decoding with
      | big => exact absurd rfl differ
      | little => rfl
  | little =>
      cases decoding with
      | big => rfl
      | little => exact absurd rfl differ

theorem swap_bytes_lt (width value : Nat) : swapBytes width value < 256 ^ width := by
  have bound := decode_lt .big (encode .little width value)
  rwa [encode_length] at bound

theorem swap_bytes_iff {width value : Nat} (fits : value < 256 ^ width) :
    swapBytes width value = value ↔ (encode .big width value).Palindrome := by
  have swapped : encode .little width (swapBytes width value) = encode .big width value := to_be_bytes .little width value
  rw [List.Palindrome.iff_reverse_eq, encode, List.reverse_reverse]
  constructor
  · intro same
    rw [same] at swapped
    exact swapped
  · intro same
    have read := congrArg fromLittle same
    rw [from_to_little width value fits] at read
    exact read.symm

end Hosts

end Endian
