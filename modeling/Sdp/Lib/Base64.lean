import Mathlib.Data.List.DropRight
import Mathlib.Tactic.IntervalCases

/-!
# Base64

`encode` with padding and the forgiving decoder of the web platform: it skips white space, takes padding only where it
completes a group, and drops the bits that are left over.
-/

namespace Sdp.Lib.Base64

/-! ## Digits -/

def digit (n : Nat) : Char :=
  if n < 26 then Char.ofNat (65 + n)
  else if n < 52 then Char.ofNat (71 + n)
  else if n < 62 then Char.ofNat (n - 4)
  else if n = 62 then '+'
  else '/'

def value? (c : Char) : Option Nat :=
  if 65 ≤ c.toNat ∧ c.toNat ≤ 90 then some (c.toNat - 65)
  else if 97 ≤ c.toNat ∧ c.toNat ≤ 122 then some (c.toNat - 71)
  else if 48 ≤ c.toNat ∧ c.toNat ≤ 57 then some (c.toNat + 4)
  else if c = '+' then some 62
  else if c = '/' then some 63
  else none

theorem value?_digit {n : Nat} (h : n < 64) : value? (digit n) = some n := by
  interval_cases n <;> rfl

theorem mapM_value?_digits {ns : List Nat} (h : ∀ n ∈ ns, n < 64) : (ns.map digit).mapM value? = some ns := by
  induction ns with
  | nil => rfl
  | cons n ns ih =>
    have hn := value?_digit (h n List.mem_cons_self)
    have hns := ih fun m hm => h m (List.mem_cons_of_mem _ hm)
    rw [List.map_cons, List.mapM_cons, hn, hns]
    rfl

/-! ## Groups -/

/-- Three bytes are four digits. -/
def sextets : List Nat → List Nat
  | [] => []
  | [a] => [a / 4, a % 4 * 16]
  | [a, b] => [a / 4, a % 4 * 16 + b / 16, b % 16 * 4]
  | a :: b :: c :: rest => a / 4 :: (a % 4 * 16 + b / 16) :: (b % 16 * 4 + c / 64) :: c % 64 :: sextets rest

/-- A single digit has too few bits for a byte. -/
def octets : List Nat → Option (List Nat)
  | [] => some []
  | [_] => none
  | [p, q] => some [p * 4 + q / 16]
  | [p, q, r] => some [p * 4 + q / 16, q % 16 * 16 + r / 4]
  | p :: q :: r :: s :: rest =>
    (octets rest).map fun bytes => (p * 4 + q / 16) :: (q % 16 * 16 + r / 4) :: (r % 4 * 64 + s) :: bytes

theorem octets_sextets {bytes : List Nat} (h : ∀ b ∈ bytes, b < 256) : octets (sextets bytes) = some bytes := by
  induction bytes using sextets.induct with
  | case1 => rfl
  | case2 a =>
    simp only [sextets, octets, Option.some.injEq, List.cons.injEq, and_true]
    omega
  | case3 a b =>
    have hb := h b (by simp)
    simp only [sextets, octets, Option.some.injEq, List.cons.injEq, and_true]
    omega
  | case4 a b c rest ih =>
    have hb := h b (by simp)
    have hc := h c (by simp)
    have hrest := ih fun x hx => h x (by simp [hx])
    simp only [sextets, octets, hrest, Option.map_some, Option.some.injEq, List.cons.injEq, and_true]
    omega

theorem sextets_lt {bytes : List Nat} (h : ∀ b ∈ bytes, b < 256) : ∀ n ∈ sextets bytes, n < 64 := by
  induction bytes using sextets.induct with
  | case1 => simp [sextets]
  | case2 a =>
    have ha := h a (by simp)
    simp only [sextets, List.mem_cons, List.not_mem_nil, or_false]
    omega
  | case3 a b =>
    have ha := h a (by simp)
    have hb := h b (by simp)
    simp only [sextets, List.mem_cons, List.not_mem_nil, or_false]
    omega
  | case4 a b c rest ih =>
    have ha := h a (by simp)
    have hb := h b (by simp)
    have hc := h c (by simp)
    intro n hn
    simp only [sextets, List.mem_cons] at hn
    rcases hn with hn | hn | hn | hn | hn
    · omega
    · omega
    · omega
    · omega
    · exact ih (fun x hx => h x (by simp [hx])) n hn

/-! ## Texts -/

def encode (bytes : List Nat) : List Char :=
  (sextets bytes).map digit ++ List.replicate ((3 - bytes.length % 3) % 3) '='

def isSpace (c : Char) : Bool := c.toNat ∈ [9, 10, 12, 13, 32]

/-- Up to two padding characters of a text whose length is a multiple of four. -/
def dropPadding (text : List Char) : List Char :=
  if text.length % 4 = 0 then
    match text.reverse with
    | '=' :: '=' :: rest => rest.reverse
    | '=' :: rest => rest.reverse
    | _ => text
  else text

def decode (text : List Char) : Option (List Nat) :=
  ((dropPadding (text.filter fun c => !isSpace c)).mapM value?).bind octets

theorem digit_ne {n : Nat} (h : n < 64) : digit n ≠ '=' ∧ isSpace (digit n) = false := by
  interval_cases n <;> exact ⟨by decide, by decide⟩

theorem dropPadding_of_ne {text : List Char} (h : '=' ∉ text) : dropPadding text = text := by
  unfold dropPadding
  split
  · split
    · next rest heq =>
      exact absurd (List.mem_reverse.mp (heq ▸ List.mem_cons_self)) h
    · next rest _ heq =>
      exact absurd (List.mem_reverse.mp (heq ▸ List.mem_cons_self)) h
    · rfl
  · rfl

theorem decode_digits {bytes : List Nat} (h : ∀ b ∈ bytes, b < 256) :
    decode ((sextets bytes).map digit) = some bytes := by
  have hlt := sextets_lt h
  have hspace : ((sextets bytes).map digit).filter (fun c => !isSpace c) = (sextets bytes).map digit := by
    refine List.filter_eq_self.mpr fun c hc => ?_
    obtain ⟨n, hn, rfl⟩ := List.mem_map.mp hc
    rw [(digit_ne (hlt n hn)).2]
    rfl
  have hpadding : '=' ∉ (sextets bytes).map digit := fun hmem => by
    obtain ⟨n, hn, heq⟩ := List.mem_map.mp hmem
    exact (digit_ne (hlt n hn)).1 heq
  rw [decode, hspace, dropPadding_of_ne hpadding, mapM_value?_digits hlt]
  exact octets_sextets h

theorem rdropWhile_encode {bytes : List Nat} (h : ∀ b ∈ bytes, b < 256) :
    (encode bytes).rdropWhile (· = '=') = (sextets bytes).map digit := by
  have hpadding : ∀ k, ((sextets bytes).map digit ++ List.replicate k '=').rdropWhile (· = '=') =
      (sextets bytes).map digit := by
    intro k
    induction k with
    | zero =>
      rw [List.replicate_zero, List.append_nil, List.rdropWhile_eq_self_iff]
      intro hne hlast
      obtain ⟨n, hn, heq⟩ := List.mem_map.mp (List.getLast_mem hne)
      exact (digit_ne (sextets_lt h n hn)).1 (heq.trans (of_decide_eq_true hlast))
    | succ k ih =>
      rw [List.replicate_succ', ← List.append_assoc, List.rdropWhile_concat_pos _ _ _ (by decide), ih]
  exact hpadding _

end Sdp.Lib.Base64
