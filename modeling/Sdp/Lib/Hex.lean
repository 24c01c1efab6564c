import Mathlib.Data.List.Induction
import Mathlib.Tactic.IntervalCases

/-!
# Hexadecimal numbers

The digits of a number in base 16, lower case, and the value of digits of either case.
-/

namespace Sdp.Lib

/-- A lower case digit. -/
def isLowerHex (c : Char) : Bool := ('0' ≤ c && c ≤ '9') || ('a' ≤ c && c ≤ 'f')

def isHex (c : Char) : Bool := isLowerHex c || ('A' ≤ c && c ≤ 'F')

def hexValue (c : Char) : Nat :=
  if c ≤ '9' then c.toNat - '0'.toNat else if 'a' ≤ c then c.toNat - 'a'.toNat + 10 else c.toNat - 'A'.toNat + 10

def parseHex (digits : List Char) : Nat := digits.foldl (fun n c => 16 * n + hexValue c) 0

theorem digitChar_hex {n : Nat} (h : n < 16) : isLowerHex n.digitChar = true ∧ hexValue n.digitChar = n := by
  interval_cases n <;> decide

theorem parseHex_append (digits : List Char) (c : Char) : parseHex (digits ++ [c]) = 16 * parseHex digits + hexValue c := by
  simp [parseHex]

theorem isLowerHex_of_mem {c : Char} {n : Nat} (h : c ∈ Nat.toDigits 16 n) : isLowerHex c = true := by
  induction n using Nat.strongRecOn with
  | ind n ih =>
    rw [Nat.toDigits_eq_if (by decide)] at h
    split at h
    · next hlt =>
      rw [List.mem_singleton.mp h]
      exact (digitChar_hex hlt).1
    · next hge =>
      rcases List.mem_append.mp h with h | h
      · exact ih (n / 16) (Nat.div_lt_self (by omega) (by decide)) h
      · rw [List.mem_singleton.mp h]
        exact (digitChar_hex (Nat.mod_lt _ (by decide))).1

theorem parseHex_toDigits (n : Nat) : parseHex (Nat.toDigits 16 n) = n := by
  induction n using Nat.strongRecOn with
  | ind n ih =>
    rw [Nat.toDigits_eq_if (by decide)]
    split
    · next hlt => simp [parseHex, (digitChar_hex hlt).2]
    · next hge =>
      rw [parseHex_append, ih (n / 16) (Nat.div_lt_self (by omega) (by decide)),
        (digitChar_hex (Nat.mod_lt n (by decide))).2]
      omega

theorem toDigits_four {n : Nat} (h : 16 ^ 3 ≤ n) (h' : n < 16 ^ 4) :
    Nat.toDigits 16 n =
      [(n / 4096).digitChar, (n / 256 % 16).digitChar, (n / 16 % 16).digitChar, (n % 16).digitChar] := by
  rw [Nat.toDigits_eq_if (by decide), if_neg (by omega), Nat.toDigits_eq_if (by decide), if_neg (by omega),
    Nat.toDigits_eq_if (by decide), if_neg (by omega), Nat.toDigits_of_lt_base (by omega)]
  simp [Nat.div_div_eq_div_mul]

end Sdp.Lib
