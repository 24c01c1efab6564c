import Mathlib.Algebra.Order.Ring.Int
import Mathlib.Data.List.Basic

/-!
# Little-endian bytes

The bytes of a number, lowest first, and the number that bytes encode.
-/

namespace Sdp.Lib

/-- The lowest `n` bytes of a number. -/
def toBytes : (n : Nat) → Nat → List UInt8
  | 0, _ => []
  | n + 1, value => UInt8.ofNat (value % 256) :: toBytes n (value / 256)

def ofBytes : List UInt8 → Nat
  | [] => 0
  | byte :: bytes => byte.toNat + 256 * ofBytes bytes

@[simp] theorem length_toBytes (n value : Nat) : (toBytes n value).length = n := by
  induction n generalizing value with
  | zero => rfl
  | succ n ih => simp [toBytes, ih]

theorem ofBytes_toBytes {n value : Nat} (h : value < 256 ^ n) : ofBytes (toBytes n value) = value := by
  induction n generalizing value with
  | zero =>
    rw [Nat.pow_zero] at h
    simp only [toBytes, ofBytes]
    omega
  | succ n ih =>
    have hquotient : value / 256 < 256 ^ n := by
      rw [Nat.pow_succ] at h
      omega
    have hbyte : (UInt8.ofNat (value % 256)).toNat = value % 256 := by
      rw [UInt8.toNat_ofNat']
      omega
    simp only [toBytes, ofBytes, ih hquotient, hbyte]
    omega

end Sdp.Lib
