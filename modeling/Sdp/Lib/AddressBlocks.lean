import Mathlib.Data.Nat.Digits.Defs

/-!
# Blocks of addresses

An address is a number written in groups, first the highest. A block is the addresses that begin with the same bits.
-/

namespace Sdp.Lib

structure Address (count base : Nat) where
  groups : List Nat
  length : groups.length = count
  lt : ∀ g ∈ groups, g < base

abbrev Ipv4 := Address 4 256

abbrev Ipv6 := Address 8 65536

def valueOf (base : Nat) (groups : List Nat) : Nat := Nat.ofDigits base groups.reverse

def Address.value {count base : Nat} (a : Address count base) : Nat := valueOf base a.groups

@[simp] theorem valueOf_nil (base : Nat) : valueOf base [] = 0 := rfl

theorem valueOf_append (base : Nat) (head tail : List Nat) :
    valueOf base (head ++ tail) = valueOf base head * base ^ tail.length + valueOf base tail := by
  unfold valueOf
  rw [List.reverse_append, Nat.ofDigits_append, List.length_reverse, Nat.mul_comm, Nat.add_comm]

theorem valueOf_cons (base g : Nat) (groups : List Nat) :
    valueOf base (g :: groups) = g * base ^ groups.length + valueOf base groups := by
  rw [← List.singleton_append, valueOf_append]
  rfl

@[simp] theorem valueOf_replicate (base n : Nat) : valueOf base (List.replicate n 0) = 0 := by
  rw [valueOf, List.reverse_replicate, Nat.ofDigits_replicate_zero]

theorem valueOf_lt {base : Nat} {groups : List Nat} (h : ∀ g ∈ groups, g < base) :
    valueOf base groups < base ^ groups.length := by
  induction groups with
  | nil => simp
  | cons g groups ih =>
    have hg := h g List.mem_cons_self
    have hrest := ih fun g hg => h g (List.mem_cons_of_mem _ hg)
    rw [valueOf_cons, List.length_cons, Nat.pow_succ']
    calc g * base ^ groups.length + valueOf base groups
        < g * base ^ groups.length + base ^ groups.length := Nat.add_lt_add_left hrest _
      _ = (g + 1) * base ^ groups.length := (Nat.succ_mul _ _).symm
      _ ≤ base * base ^ groups.length := Nat.mul_le_mul_right _ hg

theorem eq_replicate_of_valueOf {base : Nat} (hbase : 0 < base) {groups : List Nat} (h : valueOf base groups = 0) :
    groups = List.replicate groups.length 0 := by
  induction groups with
  | nil => rfl
  | cons g groups ih =>
    rw [valueOf_cons, Nat.add_eq_zero_iff, Nat.mul_eq_zero] at h
    rw [h.1.resolve_right (Nat.pow_pos hbase).ne', List.length_cons, List.replicate_succ, ← ih h.2]

/-- The addresses of `bits` bits that begin with the first `length` bits of `network`. -/
structure Block (bits : Nat) where
  network : Nat
  length : Nat

namespace Block

variable {bits : Nat}

def Mem (b : Block bits) (value : Nat) : Prop :=
  value / 2 ^ (bits - b.length) = b.network / 2 ^ (bits - b.length)

instance (b : Block bits) (value : Nat) : Decidable (b.Mem value) := inferInstanceAs (Decidable (_ = _))

/-- The image of a block of the shorter addresses behind the prefix `::ffff:0:0`. -/
def mapped (b : Block 32) : Block 128 := ⟨0xffff * 2 ^ 32 + b.network, 96 + b.length⟩

theorem mem_mapped {b : Block 32} (hnetwork : b.network < 2 ^ 32) (hlength : b.length ≤ 32) {value : Nat} :
    b.mapped.Mem value ↔ ∃ low, low < 2 ^ 32 ∧ value = 0xffff * 2 ^ 32 + low ∧ b.Mem low := by
  unfold Mem mapped
  have hwidth : 128 - (96 + b.length) = 32 - b.length := by omega
  rw [hwidth]
  set k := 32 - b.length with hk
  have hsplit : (2 : Nat) ^ 32 = 2 ^ k * 2 ^ b.length := by rw [← Nat.pow_add, hk, Nat.sub_add_cancel hlength]
  have hpos : 0 < 2 ^ k := Nat.two_pow_pos k
  have hshift : ∀ low, (0xffff * 2 ^ 32 + low) / 2 ^ k = 0xffff * 2 ^ b.length + low / 2 ^ k := fun low => by
    rw [hsplit, ← Nat.mul_assoc, Nat.mul_comm 0xffff, Nat.mul_assoc, Nat.mul_add_div hpos]
  constructor
  · intro h
    rw [hshift] at h
    have hhigh : value / 2 ^ 32 = 0xffff := by
      rw [hsplit, ← Nat.div_div_eq_div_mul, h, Nat.mul_comm, Nat.mul_add_div (Nat.two_pow_pos _),
        Nat.div_div_eq_div_mul, ← hsplit, Nat.div_eq_of_lt hnetwork]
    have hvalue : value = 0xffff * 2 ^ 32 + value % 2 ^ 32 := by omega
    refine ⟨value % 2 ^ 32, Nat.mod_lt _ (by decide), hvalue, ?_⟩
    rw [hvalue, hshift] at h
    exact Nat.add_left_cancel h
  · rintro ⟨low, -, rfl, h⟩
    rw [hshift, hshift, h]

end Block

end Sdp.Lib
