import Sdp.Code.GuardedEgress

/-!
# The blocked ranges

The filter of outbound connections is exact: on the text of any address it is the membership in the listed blocks.
-/

namespace Sdp.GuardedEgress

open Sdp.Amount
open Sdp.Lib

def quadBlock (a b c d length : Nat) : Block 32 := ⟨valueOf 256 [a, b, c, d], length⟩

def blockedIpv4 : List (Block 32) :=
  [quadBlock 0 0 0 0 8, quadBlock 127 0 0 0 8, quadBlock 10 0 0 0 8, quadBlock 172 16 0 0 12, quadBlock 192 168 0 0 16,
    quadBlock 169 254 0 0 16, quadBlock 100 64 0 0 10, quadBlock 192 0 0 0 16, quadBlock 198 18 0 0 15,
    quadBlock 224 0 0 0 3]

def groupBlock (g length : Nat) : Block 128 := ⟨g * 2 ^ 112, length⟩

def blockedIpv6 : List (Block 128) :=
  blockedIpv4.map Block.mapped ++
    [⟨0, 128⟩, ⟨1, 128⟩, groupBlock 0xfc00 7, groupBlock 0xfe80 10, groupBlock 0xff00 8]

/-! ## Quads -/

theorem valueOf_quad (a b c d : Nat) : valueOf 256 [a, b, c, d] = a * 2 ^ 24 + b * 2 ^ 16 + c * 2 ^ 8 + d := by
  simp only [valueOf_cons, valueOf_nil, List.length_cons, List.length_nil]
  omega

/-- What the comparisons of the code say of the first two octets. -/
def BlockedOctets (a b : Nat) : Prop :=
  a = 0 ∨ a = 127 ∨ a = 10 ∨ (a = 172 ∧ 16 ≤ b ∧ b ≤ 31) ∨ (a = 192 ∧ b = 168) ∨ (a = 169 ∧ b = 254) ∨
    (a = 100 ∧ 64 ≤ b ∧ b ≤ 127) ∨ (a = 192 ∧ b = 0) ∨ (a = 198 ∧ (b = 18 ∨ b = 19)) ∨ 224 ≤ a

theorem mem_quadBlock_octet {a b c d : Nat} (x : Nat) (hb : b < 256) (hc : c < 256) (hd : d < 256) :
    (quadBlock x 0 0 0 8).Mem (valueOf 256 [a, b, c, d]) ↔ a = x := by
  simp only [Block.Mem, quadBlock, valueOf_quad]
  omega

theorem mem_quadBlock_octets {a b c d : Nat} (x y : Nat) (hb : b < 256) (hy : y < 256) (hc : c < 256) (hd : d < 256) :
    (quadBlock x y 0 0 16).Mem (valueOf 256 [a, b, c, d]) ↔ a = x ∧ b = y := by
  simp only [Block.Mem, quadBlock, valueOf_quad]
  omega

theorem mem_blockedIpv4 {a b c d : Nat} (ha : a < 256) (hb : b < 256) (hc : c < 256) (hd : d < 256) :
    (∃ r ∈ blockedIpv4, r.Mem (valueOf 256 [a, b, c, d])) ↔ BlockedOctets a b := by
  have h172 : (quadBlock 172 16 0 0 12).Mem (valueOf 256 [a, b, c, d]) ↔ a = 172 ∧ 16 ≤ b ∧ b ≤ 31 := by
    simp only [Block.Mem, quadBlock, valueOf_quad]
    omega
  have h100 : (quadBlock 100 64 0 0 10).Mem (valueOf 256 [a, b, c, d]) ↔ a = 100 ∧ 64 ≤ b ∧ b ≤ 127 := by
    simp only [Block.Mem, quadBlock, valueOf_quad]
    omega
  have h198 : (quadBlock 198 18 0 0 15).Mem (valueOf 256 [a, b, c, d]) ↔ a = 198 ∧ (b = 18 ∨ b = 19) := by
    simp only [Block.Mem, quadBlock, valueOf_quad]
    omega
  have h224 : (quadBlock 224 0 0 0 3).Mem (valueOf 256 [a, b, c, d]) ↔ 224 ≤ a := by
    simp only [Block.Mem, quadBlock, valueOf_quad]
    omega
  simp only [blockedIpv4, List.exists_mem_cons_iff, List.not_mem_nil, false_and, exists_false, or_false,
    mem_quadBlock_octet _ hb hc hd, mem_quadBlock_octets _ _ hb (by decide : 168 < 256) hc hd,
    mem_quadBlock_octets _ _ hb (by decide : 254 < 256) hc hd, mem_quadBlock_octets _ _ hb (by decide : 0 < 256) hc hd,
    h172, h100, h198, h224, BlockedOctets]

theorem mapM_number {octets : List Nat} (h : ∀ octet ∈ octets, octet < 256) :
    (octets.map (Nat.toDigits 10)).mapM number = some (octets.map fun octet : Nat => (octet : ℚ)) := by
  induction octets with
  | nil => rfl
  | cons octet octets ih =>
    have hoctet := number_toDigits (lt_trans (h octet List.mem_cons_self) (by decide))
    rw [List.map_cons, List.mapM_cons, hoctet, ih fun octet hmem => h octet (List.mem_cons_of_mem _ hmem)]
    rfl

theorem isBlockedIpv4_quadText {a b c d : Nat} (ha : a < 256) (hb : b < 256) (hc : c < 256) (hd : d < 256) :
    isBlockedIpv4 (quadText [a, b, c, d]) = true ↔ BlockedOctets a b := by
  have hparse : ((quadText [a, b, c, d]).splitOn '.').mapM number = some [(a : ℚ), b, c, d] := by
    rw [splitOn_quadText (by simp), mapM_number (by simp [ha, hb, hc, hd])]
    rfl
  have hint : ∀ n : Nat, ((n : ℚ).isInt) = true := fun n => by simp [Rat.isInt]
  have hany : ([(a : ℚ), b, c, d].any fun octet => !octet.isInt || octet < 0) = false := by
    simp [hint]
  unfold isBlockedIpv4 BlockedOctets
  simp only [hparse, hany, Bool.false_eq_true, if_false, Bool.if_true_left, Bool.if_false_right, Bool.and_true,
    Bool.or_eq_true, decide_eq_true_eq, or_assoc]
  norm_cast

/-! ## The host of an address -/

def IsAddressChar (c : Char) : Prop := c = '.' ∨ IsGroupChar c

theorem isAddressChar_digit {c : Char} (h : isDigit c = true) : IsAddressChar c := by
  simp only [isDigit, decide_eq_true_eq] at h
  exact .inr (.inr (by simp [isLowerHex, h]))

theorem IsAddressChar.toNat {c : Char} (h : IsAddressChar c) :
    c.toNat = 46 ∨ (48 ≤ c.toNat ∧ c.toNat ≤ 58) ∨ 97 ≤ c.toNat ∧ c.toNat ≤ 102 := by
  rcases h with rfl | rfl | h
  · decide
  · decide
  · simp only [isLowerHex, Bool.or_eq_true, Bool.and_eq_true, decide_eq_true_eq] at h
    rcases h with ⟨hge, hle⟩ | ⟨hge, hle⟩
    · have hge : 48 ≤ c.toNat := hge
      have hle : c.toNat ≤ 57 := hle
      omega
    · have hge : 97 ≤ c.toNat := hge
      have hle : c.toNat ≤ 102 := hle
      omega

theorem IsAddressChar.toLower {c : Char} (h : IsAddressChar c) : c.toLower = c := by
  have hc := h.toNat
  unfold Char.toLower
  rw [dif_neg]
  rintro ⟨hge, hle⟩
  have hge : 65 ≤ c.toNat := UInt32.le_iff_toNat_le.mp hge
  have hle : c.toNat ≤ 90 := UInt32.le_iff_toNat_le.mp hle
  omega

theorem IsAddressChar.ne {c d : Char} (h : IsAddressChar c) (hd : d.toNat < 46 ∨ 58 < d.toNat ∧ d.toNat < 97) : c ≠ d := by
  rintro rfl
  have hc := h.toNat
  omega

def zoneText : Option (List Char) → List Char
  | none => []
  | some zone => '%' :: zone

theorem map_toLower {text : List Char} (h : ∀ c ∈ text, IsAddressChar c) : text.map Char.toLower = text :=
  (List.map_congr_left fun c hc => (h c hc).toLower).trans (List.map_id' _)

theorem head?_ne {text : List Char} (h : ∀ c ∈ text, IsAddressChar c) (hne : text ≠ []) (rest : List Char) :
    (text ++ rest).head? ≠ some '[' := by
  obtain ⟨c, text, rfl⟩ := List.exists_cons_of_ne_nil hne
  intro hhead
  exact (h c List.mem_cons_self).ne (by decide) (Option.some.inj hhead)

theorem dropLast_zone (text zone : List Char) (h : (text ++ '%' :: zone).getLast? = some ']') :
    (text ++ '%' :: zone).dropLast = text ++ '%' :: zone.dropLast := by
  have hne : zone ≠ [] := by
    rintro rfl
    simp at h
  rw [List.dropLast_append_cons, List.dropLast_cons_of_ne_nil hne]

theorem host_eq {text : List Char} (h : ∀ c ∈ text, IsAddressChar c) (hne : text ≠ []) (zone : Option (List Char)) :
    host (text ++ zoneText zone) = text := by
  have hpercent : '%' ∉ text := fun hmem => (h '%' hmem).ne (by decide) rfl
  unfold host
  cases zone with
  | none =>
    have hlast : text.getLast? ≠ some ']' := fun hlast => (h ']' (List.mem_of_getLast? hlast)).ne (by decide) rfl
    have hhead := head?_ne h hne []
    rw [List.append_nil] at hhead
    simp only [zoneText, List.append_nil, map_toLower h, if_neg hhead, if_neg hlast]
    rw [List.splitOn_eq_singleton hpercent]
    rfl
  | some zone =>
    have hlower : (text ++ '%' :: zone).map Char.toLower = text ++ '%' :: zone.map Char.toLower := by
      rw [List.map_append, map_toLower h]
      rfl
    simp only [zoneText, hlower, if_neg (head?_ne h hne _)]
    split
    · next hlast =>
      rw [dropLast_zone _ _ hlast, List.splitOn_append_cons_self_of_not_mem hpercent]
      rfl
    · rw [List.splitOn_append_cons_self_of_not_mem hpercent]
      rfl

/-! ## The first group -/

theorem leads_colon (second third fourth : Char → Bool) (rest : List Char) :
    leads second third fourth (':' :: rest) = false := rfl

theorem leads_toDigits {second third fourth : Char → Bool} (hsecond : second ':' = false) (hthird : third ':' = false)
    (hfourth : fourth ':' = false) {g : Nat} (hg : g < 65536) (more : List Char) :
    leads second third fourth (Nat.toDigits 16 g ++ ':' :: more) = true ↔
      g / 4096 = 15 ∧ second (g / 256 % 16).digitChar = true ∧ third (g / 16 % 16).digitChar = true ∧
        fourth (g % 16).digitChar = true := by
  by_cases hfour : 16 ^ 3 ≤ g
  · rw [toDigits_four hfour hg]
    by_cases hf : g / 4096 = 15
    · simp [leads, hf, and_assoc, show Nat.digitChar 15 = 'f' from rfl]
    · have hne : (g / 4096).digitChar ≠ 'f' := mt Nat.digitChar_eq_f.mp hf
      simp only [hf, false_and, iff_false]
      unfold leads
      split
      · next heq => exact absurd (List.cons.inj heq).1 hne
      · simp
  · have hne : Nat.toDigits 16 g ≠ [] := Nat.toDigits_ne_nil
    have hlength := (Nat.length_toDigits_le_iff (by decide : 1 < 16) (by decide : 0 < 3)).mpr (Nat.lt_of_not_le hfour)
    have hzero : g / 4096 = 0 := by omega
    simp only [hzero, show ¬(0 = 15) by decide, false_and, iff_false, Bool.not_eq_true]
    match Nat.toDigits 16 g, hne, hlength with
    | [a], _, _ =>
      unfold leads
      split
      · next heq =>
        obtain ⟨-, rfl, -⟩ : _ := by simpa using heq
        simp [hsecond]
      · rfl
    | [a, b], _, _ =>
      unfold leads
      split
      · next heq =>
        obtain ⟨-, -, rfl, -⟩ : _ := by simpa using heq
        simp [hthird]
      · rfl
    | [a, b, c], _, _ =>
      unfold leads
      split
      · next heq =>
        obtain ⟨-, -, -, rfl, -⟩ : _ := by simpa using heq
        simp [hfourth]
      · rfl

/-- The blocks that the first group decides. -/
def BlockedGroup (g : Nat) : Prop := g / 2 ^ 9 = 126 ∨ g / 2 ^ 6 = 1018 ∨ g / 2 ^ 8 = 255

theorem isLowerHex_digitChar {n : Nat} (h : n < 16) : isLowerHex n.digitChar = true := (digitChar_hex h).1

theorem isBlockedHost_group {g : Nat} (hg : g < 65536) (more : List Char) :
    isBlockedHost (Nat.toDigits 16 g ++ ':' :: more) = true ↔ BlockedGroup g := by
  obtain ⟨c, digits, hdigits⟩ := List.exists_cons_of_ne_nil (Nat.toDigits_ne_nil : Nat.toDigits 16 g ≠ [])
  have hcolon : c ≠ ':' := by
    rintro rfl
    exact absurd (isLowerHex_of_mem (hdigits ▸ List.mem_cons_self) : isLowerHex ':' = true) (by decide)
  have hnot : ¬(Nat.toDigits 16 g ++ ':' :: more = "::".toList ∨ Nat.toDigits 16 g ++ ':' :: more = "::1".toList) := by
    simp [hdigits, hcolon]
  have hlast := isLowerHex_digitChar (Nat.mod_lt g (by decide : 0 < 16))
  have hthird := isLowerHex_digitChar (Nat.mod_lt (g / 16) (by decide : 0 < 16))
  have hunique : isUniqueLocal (Nat.toDigits 16 g ++ ':' :: more) = true ↔ g / 2 ^ 9 = 126 := by
    rw [isUniqueLocal, leads_toDigits rfl rfl rfl hg, hlast, hthird]
    simp only [Bool.or_eq_true, decide_eq_true_eq, Nat.digitChar_eq_c, Nat.digitChar_eq_d, and_true]
    omega
  have hlink : isLinkLocal (Nat.toDigits 16 g ++ ':' :: more) = true ↔ g / 2 ^ 6 = 1018 := by
    rw [isLinkLocal, leads_toDigits rfl rfl rfl hg, hlast]
    simp only [Bool.or_eq_true, decide_eq_true_eq, Nat.digitChar_eq_e, Nat.digitChar_eq_eight, Nat.digitChar_eq_nine,
      Nat.digitChar_eq_a, Nat.digitChar_eq_b, and_true]
    omega
  have hmulticast : isMulticast (Nat.toDigits 16 g ++ ':' :: more) = true ↔ g / 2 ^ 8 = 255 := by
    rw [isMulticast, leads_toDigits rfl rfl rfl hg, hlast, hthird]
    simp only [decide_eq_true_eq, Nat.digitChar_eq_f, and_true]
    omega
  simp only [isBlockedHost, if_neg hnot, Bool.if_true_left, Bool.if_false_right, Bool.and_true, Bool.or_eq_true,
    decide_eq_true_eq, hunique, hlink, hmulticast, BlockedGroup]

/-! ## The blocks of the longer addresses -/

theorem blockedIpv4_valid : ∀ r ∈ blockedIpv4, r.network < 2 ^ 32 ∧ r.length ≤ 32 := by decide

def MappedBlocked (value : Nat) : Prop :=
  ∃ low, low < 2 ^ 32 ∧ value = 0xffff * 2 ^ 32 + low ∧ ∃ r ∈ blockedIpv4, r.Mem low

theorem mem_mapped_blockedIpv4 {value : Nat} :
    (∃ r ∈ blockedIpv4.map Block.mapped, r.Mem value) ↔ MappedBlocked value := by
  constructor
  · rintro ⟨_, himage, hmem⟩
    obtain ⟨r, hr, rfl⟩ := List.mem_map.mp himage
    obtain ⟨hnetwork, hlength⟩ := blockedIpv4_valid r hr
    obtain ⟨low, hlow, hvalue, hmem⟩ := (Block.mem_mapped hnetwork hlength).mp hmem
    exact ⟨low, hlow, hvalue, r, hr, hmem⟩
  · rintro ⟨low, hlow, hvalue, r, hr, hmem⟩
    obtain ⟨hnetwork, hlength⟩ := blockedIpv4_valid r hr
    exact ⟨r.mapped, List.mem_map_of_mem hr, (Block.mem_mapped hnetwork hlength).mpr ⟨low, hlow, hvalue, hmem⟩⟩

theorem mem_groupBlock {g v : Nat} (hv : v < 2 ^ 112) (x : Nat) {length : Nat} (hlength : length ≤ 16) :
    (groupBlock x length).Mem (g * 2 ^ 112 + v) ↔ g / 2 ^ (16 - length) = x / 2 ^ (16 - length) := by
  have hwidth : (2 : Nat) ^ (128 - length) = 2 ^ 112 * 2 ^ (16 - length) := by
    rw [← Nat.pow_add]
    congr 1
    omega
  have hfirst : (g * 2 ^ 112 + v) / 2 ^ 112 = g := by
    rw [Nat.mul_comm, Nat.mul_add_div (Nat.two_pow_pos _), Nat.div_eq_of_lt hv, Nat.add_zero]
  have hnetwork : x * 2 ^ 112 / 2 ^ 112 = x := Nat.mul_div_cancel x (Nat.two_pow_pos _)
  rw [Block.Mem, groupBlock, hwidth, ← Nat.div_div_eq_div_mul, ← Nat.div_div_eq_div_mul, hfirst, hnetwork]

theorem mem_blockedIpv6 {g v : Nat} (hv : v < 2 ^ 112) :
    (∃ r ∈ blockedIpv6, r.Mem (g * 2 ^ 112 + v)) ↔
      MappedBlocked (g * 2 ^ 112 + v) ∨ g * 2 ^ 112 + v = 0 ∨ g * 2 ^ 112 + v = 1 ∨ BlockedGroup g := by
  have hhost : ∀ n value : Nat, (Block.mk n 128 : Block 128).Mem value ↔ value = n := fun n value => by
    simp [Block.Mem]
  simp only [blockedIpv6, List.mem_append, or_and_right, exists_or, mem_mapped_blockedIpv4,
    List.exists_mem_cons_iff, List.not_mem_nil, false_and, exists_false, or_false, hhost,
    mem_groupBlock hv _ (by decide : 7 ≤ 16), mem_groupBlock hv _ (by decide : 10 ≤ 16),
    mem_groupBlock hv _ (by decide : 8 ≤ 16), BlockedGroup]
  norm_num

/-! ## An address that starts with its first group -/

theorem isBlockedIpv6_of_part {address part : List Char} {parts : List (List Char)}
    (h : (host address).splitOn ':' = part :: parts) (hpart : part ≠ []) :
    isBlockedIpv6 address = isBlockedHost (host address) := by
  unfold isBlockedIpv6
  simp only [h]
  split
  · next heq => exact absurd (List.cons.inj heq).1 hpart
  · next heq => exact absurd (List.cons.inj heq).1 hpart
  · rfl

theorem zeros_of_valueOf_lt {groups : List Nat} (hlength : groups.length = 8) (h : valueOf 65536 groups < 2 ^ 48) :
    List.replicate 5 0 <+: groups := by
  have hsplit : groups.take 5 ++ groups.drop 5 = groups := List.take_append_drop 5 groups
  have hvalue := valueOf_append 65536 (groups.take 5) (groups.drop 5)
  rw [hsplit, List.length_drop, hlength] at hvalue
  have hzero : valueOf 65536 (groups.take 5) = 0 := by omega
  have hzeros := eq_replicate_of_valueOf (by decide) hzero
  rw [List.length_take, hlength] at hzeros
  exact ⟨groups.drop 5, by rw [← hsplit, hzeros]; simp⟩

theorem blocked_leading {g : Nat} {rest : List Nat} {more : List Char} (hlt : ∀ x ∈ g :: rest, x < 65536)
    (hlength : (g :: rest).length = 8) (hzeros : ¬List.replicate 5 0 <+: g :: rest)
    (hchars : ∀ c ∈ Nat.toDigits 16 g ++ ':' :: more, IsAddressChar c) (zone : Option (List Char)) :
    isBlockedIpv6 (Nat.toDigits 16 g ++ ':' :: more ++ zoneText zone) = true ↔
      ∃ r ∈ blockedIpv6, r.Mem (valueOf 65536 (g :: rest)) := by
  have hg : g < 65536 := hlt g List.mem_cons_self
  have hhost := host_eq hchars (by simp) zone
  have hcolon : ':' ∉ Nat.toDigits 16 g := fun hmem => absurd (isLowerHex_of_mem hmem) (by decide)
  have hparts := List.splitOn_append_cons_self_of_not_mem hcolon more
  rw [isBlockedIpv6_of_part (by rw [hhost, hparts]) Nat.toDigits_ne_nil, hhost, isBlockedHost_group hg]
  have hrest : rest.length = 7 := by simpa using hlength
  have hv : valueOf 65536 rest < 2 ^ 112 := by
    simpa [hrest] using valueOf_lt fun x hx => hlt x (List.mem_cons_of_mem _ hx)
  have hvalue : valueOf 65536 (g :: rest) = g * 2 ^ 112 + valueOf 65536 rest := by
    rw [valueOf_cons, hrest]
    rfl
  have hlarge : 2 ^ 48 ≤ valueOf 65536 (g :: rest) := not_lt.mp (mt (zeros_of_valueOf_lt hlength) hzeros)
  have hmapped : ¬MappedBlocked (valueOf 65536 (g :: rest)) := by
    rintro ⟨low, hlow, hlowvalue, -⟩
    omega
  rw [hvalue, mem_blockedIpv6 hv, ← hvalue]
  simp only [hmapped, false_or]
  constructor
  · exact fun h => .inr (.inr h)
  · rintro (h | h | h)
    · omega
    · omega
    · exact h

/-! ## An address that starts with the elision -/

theorem mappedBlocked_iff {low : Nat} (hlow : low < 2 ^ 32) :
    MappedBlocked (0xffff * 2 ^ 32 + low) ↔ ∃ r ∈ blockedIpv4, r.Mem low := by
  constructor
  · rintro ⟨low', -, hvalue, hmem⟩
    obtain rfl : low = low' := by omega
    exact hmem
  · exact fun hmem => ⟨low, hlow, rfl, hmem⟩

theorem toDigits_hex_inj {m n : Nat} (h : Nat.toDigits 16 m = Nat.toDigits 16 n) : m = n := by
  rw [← parseHex_toDigits m, h, parseHex_toDigits]

theorem isHextet_toDigits {x : Nat} (hx : x < 65536) : isHextet (Nat.toDigits 16 x) = true := by
  have hpos : 1 ≤ (Nat.toDigits 16 x).length := Nat.length_toDigits_pos
  have hlength := (Nat.length_toDigits_le_iff (by decide : 1 < 16) (by decide : 0 < 4)).mpr hx
  simpa [isHextet, hlength] using ⟨hpos, fun c hc => isLowerHex_of_mem hc⟩

theorem isDottedQuad_toDigits (x : Nat) : isDottedQuad (Nat.toDigits 16 x) = false := by
  have hdot : '.' ∉ Nat.toDigits 16 x := fun hmem => absurd (isLowerHex_of_mem hmem) (by decide)
  simp [isDottedQuad, List.splitOn_eq_singleton hdot]

theorem isBlockedIpv4_groups {high low : Nat} (hhigh : high < 65536) (hlow : low < 65536) :
    isBlockedIpv4 (quadText [high >>> 8, high &&& 0xff, low >>> 8, low &&& 0xff]) = true ↔
      ∃ r ∈ blockedIpv4, r.Mem (high * 2 ^ 16 + low) := by
  have hmask : ∀ n : Nat, n &&& 0xff = n % 256 := fun n => Nat.and_two_pow_sub_one_eq_mod n 8
  rw [Nat.shiftRight_eq_div_pow, Nat.shiftRight_eq_div_pow, hmask, hmask]
  have hvalue : high * 2 ^ 16 + low = valueOf 256 [high / 2 ^ 8, high % 256, low / 2 ^ 8, low % 256] := by
    rw [valueOf_quad]
    omega
  rw [hvalue, mem_blockedIpv4 (by omega) (by omega) (by omega) (by omega),
    isBlockedIpv4_quadText (by omega) (by omega) (by omega) (by omega)]

theorem splitOn_colons (rest : List Char) : (':' :: ':' :: rest).splitOn ':' = [] :: [] :: rest.splitOn ':' := by
  have hstep : ∀ rest : List Char, (':' :: rest).splitOn ':' = [] :: rest.splitOn ':' := fun rest =>
    List.splitOn_append_cons_self_of_not_mem List.not_mem_nil rest
  rw [hstep, hstep]

theorem isBlockedHost_colons (rest : List Char) :
    isBlockedHost (':' :: ':' :: rest) = true ↔ rest = [] ∨ rest = ['1'] := by
  simp [isBlockedHost, isUniqueLocal, isLinkLocal, isMulticast, leads_colon]

theorem groupsText_eq_one {groups : List Nat} (h : groupsText groups = ['1']) : groups = [1] := by
  have hne : groups ≠ [] := by
    rintro rfl
    cases h
  have hsplit : [['1']] = groups.map (Nat.toDigits 16) := by
    rw [← splitOn_groupsText hne, h]
    rfl
  obtain ⟨g, rfl⟩ := List.length_eq_one_iff.mp (by simpa using (congrArg List.length hsplit).symm)
  have hg : Nat.toDigits 16 1 = Nat.toDigits 16 g := (List.cons.inj hsplit).1
  rw [toDigits_hex_inj hg]

theorem groupsText_eq_nil {groups : List Nat} (h : groupsText groups = []) : groups = [] := by
  by_contra hne
  have hsplit := splitOn_groupsText hne
  rw [h] at hsplit
  obtain ⟨g, rfl⟩ := List.length_eq_one_iff.mp (by simpa using (congrArg List.length hsplit).symm)
  exact Nat.toDigits_ne_nil (List.cons.inj hsplit).1.symm

theorem isBlockedHost_groupsText (tail : List Nat) :
    isBlockedHost (':' :: ':' :: groupsText tail) = true ↔ tail = [] ∨ tail = [1] := by
  rw [isBlockedHost_colons]
  exact or_congr ⟨groupsText_eq_nil, fun h => h ▸ rfl⟩ ⟨groupsText_eq_one, fun h => h ▸ rfl⟩

theorem isBlockedIpv6_colons {address : List Char} {tail : List Nat} (hhost : host address = ':' :: ':' :: groupsText tail)
    (hlt : ∀ x ∈ tail, x < 65536) :
    isBlockedIpv6 address = true ↔
      (∃ high low, tail = [0xffff, high, low] ∧ ∃ r ∈ blockedIpv4, r.Mem (high * 2 ^ 16 + low)) ∨ tail = [] ∨ tail = [1] := by
  have hffff : Nat.toDigits 16 0xffff = ['f', 'f', 'f', 'f'] := by decide
  rcases eq_or_ne tail [] with rfl | hne
  · rw [isBlockedIpv6, hhost]
    simp only [or_true, true_or]
    exact iff_of_true rfl trivial
  · unfold isBlockedIpv6
    simp only [hhost, splitOn_colons, splitOn_groupsText hne]
    split
    · next quad heq =>
      obtain ⟨x, y, rfl⟩ := List.length_eq_two.mp (by simpa using congrArg List.length heq)
      obtain rfl : Nat.toDigits 16 y = quad := by simpa using congrArg List.getLast? heq
      rw [isDottedQuad_toDigits, if_neg Bool.false_ne_true, isBlockedHost_groupsText]
      simp
    · next high low heq =>
      obtain ⟨x, y, z, rfl⟩ := List.length_eq_three.mp (by simpa using congrArg List.length heq)
      simp only [List.map_cons, List.map_nil, List.cons.injEq, true_and, and_true] at heq
      obtain ⟨hx, rfl, rfl⟩ := heq
      obtain rfl := toDigits_hex_inj (hx.trans hffff.symm)
      have hy : y < 65536 := hlt y (by simp)
      have hz : z < 65536 := hlt z (by simp)
      simp only [isHextet_toDigits hy, isHextet_toDigits hz, Bool.and_true, if_true, parseHex_toDigits,
        isBlockedIpv4_groups hy hz]
      simp
    · next hquad hgroups =>
      rw [isBlockedHost_groupsText]
      refine ⟨.inr, fun h => h.resolve_left ?_⟩
      rintro ⟨high, low, rfl, -⟩
      exact hgroups (Nat.toDigits 16 high) (Nat.toDigits 16 low) (by simp [hffff])

theorem mapped_tail {tail : List Nat} (hlt : ∀ x ∈ tail, x < 65536) (hhead : tail.head? ≠ some 0) :
    (MappedBlocked (valueOf 65536 tail) ↔
        ∃ high low, tail = [0xffff, high, low] ∧ ∃ r ∈ blockedIpv4, r.Mem (high * 2 ^ 16 + low)) ∧
      (valueOf 65536 tail = 0 ↔ tail = []) ∧ (valueOf 65536 tail = 1 ↔ tail = [1]) := by
  have hnot : ∀ {value}, value < 2 ^ 32 ∨ 2 ^ 48 ≤ value → ¬MappedBlocked value := by
    rintro value hvalue ⟨low, hlow, rfl, -⟩
    omega
  match tail, hlt, hhead with
  | [], _, _ => exact ⟨by simp [hnot], by simp, by simp⟩
  | [x], hlt, hhead =>
    have hx : x < 65536 := hlt x (by simp)
    have hne : x ≠ 0 := by simpa using hhead
    have hvalue : valueOf 65536 [x] = x := by simp [valueOf_cons]
    rw [hvalue]
    exact ⟨iff_of_false (hnot (.inl (by omega))) (by simp), by simpa using hne, by simp⟩
  | [x, y], hlt, hhead =>
    have hx : x < 65536 := hlt x (by simp)
    have hy : y < 65536 := hlt y (by simp)
    have hne : x ≠ 0 := by simpa using hhead
    have hvalue : valueOf 65536 [x, y] = x * 65536 + y := by simp [valueOf_cons]
    rw [hvalue]
    refine ⟨iff_of_false (hnot (.inl (by omega))) (by simp), iff_of_false (by omega) (by simp),
      iff_of_false (by omega) (by simp)⟩
  | [x, y, z], hlt, hhead =>
    have hy : y < 65536 := hlt y (by simp)
    have hz : z < 65536 := hlt z (by simp)
    have hne : x ≠ 0 := by simpa using hhead
    have hvalue : valueOf 65536 [x, y, z] = x * 2 ^ 32 + (y * 2 ^ 16 + z) := by
      simp only [valueOf_cons, valueOf_nil, List.length_cons, List.length_nil]
      omega
    rw [hvalue]
    refine ⟨?_, iff_of_false (by omega) (by simp), iff_of_false (by omega) (by simp)⟩
    rcases eq_or_ne x 0xffff with rfl | hffff
    · rw [mappedBlocked_iff (by omega)]
      simp
    · refine iff_of_false ?_ (by simp [hffff])
      rintro ⟨low, hlow, heq, -⟩
      omega
  | x :: y :: z :: w :: rest, hlt, hhead =>
    have hne : x ≠ 0 := by simpa using hhead
    have hlarge : 2 ^ 48 ≤ valueOf 65536 (x :: y :: z :: w :: rest) := by
      rw [valueOf_cons]
      calc 2 ^ 48 = 1 * 65536 ^ 3 := rfl
        _ ≤ x * 65536 ^ (y :: z :: w :: rest).length :=
          Nat.mul_le_mul (by omega) (Nat.pow_le_pow_right (by decide) (by simp))
        _ ≤ x * 65536 ^ (y :: z :: w :: rest).length + valueOf 65536 (y :: z :: w :: rest) := Nat.le_add_right _ _
    exact ⟨iff_of_false (hnot (.inr hlarge)) (by simp), iff_of_false (by omega) (by simp),
      iff_of_false (by omega) (by simp)⟩

theorem blocked_elided {n : Nat} {tail : List Nat} (hlt : ∀ x ∈ tail, x < 65536) (hlength : n + tail.length = 8)
    (htwo : 2 ≤ n) (hhead : tail.head? ≠ some 0) (zone : Option (List Char)) :
    isBlockedIpv6 (':' :: ':' :: groupsText tail ++ zoneText zone) = true ↔
      ∃ r ∈ blockedIpv6, r.Mem (valueOf 65536 (List.replicate n 0 ++ tail)) := by
  have hhost : host (':' :: ':' :: groupsText tail ++ zoneText zone) = ':' :: ':' :: groupsText tail := by
    refine host_eq (fun c hc => ?_) (by simp) zone
    rcases List.mem_cons.mp hc with rfl | hc
    · exact .inr (.inl rfl)
    · rcases List.mem_cons.mp hc with rfl | hc
      · exact .inr (.inl rfl)
      · exact .inr (isGroupChar_groupsText hc)
  have hvalue : valueOf 65536 (List.replicate n 0 ++ tail) = 0 * 2 ^ 112 + valueOf 65536 tail := by
    rw [valueOf_append, valueOf_replicate, Nat.zero_mul, Nat.zero_mul]
  have hv : valueOf 65536 tail < 2 ^ 112 :=
    calc valueOf 65536 tail < 65536 ^ tail.length := valueOf_lt hlt
      _ ≤ 65536 ^ 7 := Nat.pow_le_pow_right (by decide) (by omega)
      _ = 2 ^ 112 := rfl
  obtain ⟨hmapped, hzero, hone⟩ := mapped_tail hlt hhead
  rw [isBlockedIpv6_colons hhost hlt, hvalue, mem_blockedIpv6 hv, Nat.zero_mul, Nat.zero_add, hmapped, hzero, hone]
  simp [BlockedGroup]

/-! ## The filter is exact -/

/-- The canonical text of an address, or the one with the quad of an image. -/
inductive Ipv6Text (a : Ipv6) : List Char → Prop
  | canonical {text : List Char} (h : Canonical a.groups text) : Ipv6Text a text
  | mapped (quad : Ipv4) (h : a.value = 0xffff * 2 ^ 32 + quad.value) :
      Ipv6Text a ("::ffff:".toList ++ quadText quad.groups)

theorem isAddressChar_quadText {octets : List Nat} {c : Char} (h : c ∈ quadText octets) : IsAddressChar c := by
  rcases mem_intercalate h with rfl | ⟨part, hpart, hc⟩
  · exact .inl rfl
  · obtain ⟨octet, -, rfl⟩ := List.mem_map.mp hpart
    exact isAddressChar_digit (isDigit_of_mem_toDigits hc)

theorem colon_not_mem_quadText (octets : List Nat) : ':' ∉ quadText octets := fun h => by
  rcases mem_intercalate h with h | ⟨part, hpart, hc⟩
  · exact absurd h (by decide)
  · obtain ⟨octet, -, rfl⟩ := List.mem_map.mp hpart
    exact absurd (isDigit_of_mem_toDigits hc) (by decide)

theorem isDottedQuad_quadText (a : Ipv4) : isDottedQuad (quadText a.groups) = true := by
  have hne : a.groups ≠ [] := by
    rw [← List.length_pos_iff, a.length]
    decide
  simp only [isDottedQuad, splitOn_quadText hne, List.length_map, a.length, decide_true, Bool.true_and,
    List.all_eq_true]
  intro part hpart
  obtain ⟨octet, -, rfl⟩ := List.mem_map.mp hpart
  have hparts : Nat.toDigits 10 octet ≠ [] := Nat.toDigits_ne_nil
  simpa [hparts] using fun c => isDigit_of_mem_toDigits

theorem isBlockedIpv4_exact (a : Ipv4) :
    isBlockedIpv4 (quadText a.groups) = true ↔ ∃ r ∈ blockedIpv4, r.Mem a.value := by
  obtain ⟨groups, hlength, hlt⟩ := a
  match groups, hlength with
  | [a, b, c, d], _ =>
    have ha : a < 256 := hlt a (by simp)
    have hb : b < 256 := hlt b (by simp)
    have hc : c < 256 := hlt c (by simp)
    have hd : d < 256 := hlt d (by simp)
    rw [isBlockedIpv4_quadText ha hb hc hd]
    exact (mem_blockedIpv4 ha hb hc hd).symm

theorem ipv4_exact (a : Ipv4) :
    isBlockedAddress (String.ofList (quadText a.groups)) = true ↔ ∃ r ∈ blockedIpv4, r.Mem a.value := by
  rw [isBlockedAddress, String.toList_ofList, if_neg (colon_not_mem_quadText a.groups), isBlockedIpv4_exact]

theorem blocked_mapped (a : Ipv6) (quad : Ipv4) (h : a.value = 0xffff * 2 ^ 32 + quad.value) (zone : Option (List Char)) :
    isBlockedIpv6 ("::ffff:".toList ++ quadText quad.groups ++ zoneText zone) = true ↔
      ∃ r ∈ blockedIpv6, r.Mem a.value := by
  have hchars : ∀ c ∈ "::ffff:".toList ++ quadText quad.groups, IsAddressChar c := fun c hc => by
    rcases List.mem_append.mp hc with hc | hc
    · have hall : "::ffff:".toList.all (fun c => c = ':' || isLowerHex c) = true := by decide
      exact .inr (by simpa [IsGroupChar] using List.all_eq_true.mp hall c hc)
    · exact isAddressChar_quadText hc
  have hhost := host_eq hchars (by simp) zone
  have hparts : ("::ffff:".toList ++ quadText quad.groups).splitOn ':' =
      [[], [], ['f', 'f', 'f', 'f'], quadText quad.groups] := by
    have hffff : ':' ∉ ['f', 'f', 'f', 'f'] := by decide
    have hsplit := List.splitOn_append_cons_self_of_not_mem hffff (quadText quad.groups)
    rw [List.splitOn_eq_singleton (colon_not_mem_quadText quad.groups)] at hsplit
    exact (splitOn_colons _).trans (congrArg (fun parts => [] :: [] :: parts) hsplit)
  have hlow : quad.value < 2 ^ 32 := by
    simpa [Address.value, quad.length] using valueOf_lt quad.lt
  have hv : a.value < 2 ^ 112 := by omega
  have hvalue : a.value = 0 * 2 ^ 112 + a.value := by omega
  rw [isBlockedIpv6, hhost]
  simp only [hparts, isDottedQuad_quadText, if_true, isBlockedIpv4_exact]
  rw [hvalue, mem_blockedIpv6 hv, ← hvalue, h, mappedBlocked_iff hlow]
  refine (or_iff_left ?_).symm
  rintro (hzero | hone | hgroup)
  · omega
  · omega
  · exact absurd hgroup (by simp [BlockedGroup])

theorem ipv6_exact {a : Ipv6} {text : List Char} (h : Ipv6Text a text) (zone : Option (List Char)) :
    isBlockedAddress (String.ofList (text ++ zoneText zone)) = true ↔ ∃ r ∈ blockedIpv6, r.Mem a.value := by
  have hsix : isBlockedIpv6 (text ++ zoneText zone) = true ↔ ∃ r ∈ blockedIpv6, r.Mem a.value := by
    cases h with
    | mapped quad hvalue => exact blocked_mapped a quad hvalue zone
    | canonical h =>
      have hchars : ∀ c ∈ text, IsAddressChar c := fun c hc => .inr (h.isGroupChar c hc)
      have hlt := a.lt
      have hlength := a.length
      rw [Address.value]
      rcases h.leads hlength with ⟨g, rest, more, hgroups, rfl, hzeros⟩ | ⟨n, tail, hgroups, htwo, hhead, rfl⟩
      · rw [hgroups] at hlt hlength hzeros ⊢
        exact blocked_leading hlt hlength hzeros hchars zone
      · rw [hgroups] at hlt hlength ⊢
        exact blocked_elided (fun x hx => hlt x (List.mem_append_right _ hx)) (by simpa using hlength) htwo hhead zone
  have hcolon : ':' ∈ text ++ zoneText zone := by
    refine List.mem_append_left _ ?_
    cases h with
    | mapped quad hvalue => simp
    | canonical h =>
      rcases h.leads a.length with ⟨g, rest, more, -, rfl, -⟩ | ⟨n, tail, -, -, -, rfl⟩
      · simp
      · simp
  rw [isBlockedAddress, String.toList_ofList, if_pos hcolon, hsix]

/-- On the texts of addresses the filter is the membership in the blocks. -/
theorem isBlockedAddress_exact :
    (∀ a : Ipv4, isBlockedAddress (String.ofList (quadText a.groups)) = true ↔ ∃ r ∈ blockedIpv4, r.Mem a.value) ∧
    ∀ (a : Ipv6) (text : List Char) (zone : Option (List Char)), Ipv6Text a text →
      (isBlockedAddress (String.ofList (text ++ zoneText zone)) = true ↔ ∃ r ∈ blockedIpv6, r.Mem a.value) :=
  ⟨ipv4_exact, fun _ _ zone h => ipv6_exact h zone⟩

/-- A link-local address with its zone, and the metadata address as an image, are kept away from. -/
theorem metadata_is_blocked :
    isBlockedAddress "fe80:1:2:3:4:5:6:7%eth0" = true ∧ isBlockedAddress "::ffff:169.254.169.254" = true := by
  have halone : ∀ head tail, [0xfe80, 1, 2, 3, 4, 5, 6, 7] ≠ head ++ 0 :: 0 :: tail := fun head tail h =>
    absurd (h ▸ List.mem_append_right head List.mem_cons_self : 0 ∈ [0xfe80, 1, 2, 3, 4, 5, 6, 7]) (by decide)
  have hlink := (isBlockedAddress_exact.2 ⟨[0xfe80, 1, 2, 3, 4, 5, 6, 7], rfl, by decide⟩ _ (some "eth0".toList)
    (.canonical (.full halone))).mpr (by decide)
  have hmapped := (isBlockedAddress_exact.2 ⟨[0, 0, 0, 0, 0, 0xffff, 0xa9fe, 0xa9fe], rfl, by decide⟩ _ none
    (.mapped ⟨[169, 254, 169, 254], rfl, by decide⟩ rfl)).mpr (by decide)
  exact ⟨hlink, hmapped⟩

end Sdp.GuardedEgress
