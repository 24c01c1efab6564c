import Sdp.Lib.IpText

/-!
# The texts of addresses that are read

A group is up to four hexadecimal digits of either case, and a quad may stand for the last two groups. Zero groups may
be left out in one place.
-/

namespace Sdp.Lib

/-- One group as it is read. -/
structure H16 (part : List Char) (group : Nat) : Prop where
  pos : 0 < part.length
  le : part.length ≤ 4
  hex : ∀ c ∈ part, isHex c = true
  value : group = parseHex part

/-- The two groups of a quad. -/
def quadGroups (a : Ipv4) : List Nat := [a.value / 65536, a.value % 65536]

/-- The groups of the parts between colons, of which the last may be a quad. -/
inductive GroupParts (quad : Bool) : List (List Char) → List Nat → Prop
  | nil : GroupParts quad [] []
  | group {part : List Char} {g : Nat} {parts : List (List Char)} {groups : List Nat} (h : H16 part g)
      (rest : GroupParts quad parts groups) : GroupParts quad (part :: parts) (g :: groups)
  | quad (hquad : quad = true) (a : Ipv4) : GroupParts quad [quadText a.groups] (quadGroups a)

def joinParts (parts : List (List Char)) : List Char := [':'].intercalate parts

/-- A text of eight groups. With `quadAhead` a quad may also end what is in front of the elision. -/
inductive Ipv6Grammar (quadAhead : Bool) : List Char → List Nat → Prop
  | full {parts : List (List Char)} {groups : List Nat} (h : GroupParts true parts groups) (eight : groups.length = 8) :
      Ipv6Grammar quadAhead (joinParts parts) groups
  | elided {head tail : List (List Char)} {hs ts : List Nat} (hhead : GroupParts quadAhead head hs)
      (htail : GroupParts true tail ts) (fewer : hs.length + ts.length ≤ 7) :
      Ipv6Grammar quadAhead (joinParts head ++ ':' :: ':' :: joinParts tail)
        (hs ++ List.replicate (8 - hs.length - ts.length) 0 ++ ts)

/-! ## The characters of the parts -/

/-- A character of a part, as told by what stands between parts. -/
def IsPartChar (c : Char) : Prop := c = '.' ∨ isHex c = true

/-- What all parts between colons look like. -/
structure IsPart (part : List Char) : Prop where
  ne : part ≠ []
  chars : ∀ c ∈ part, IsPartChar c

theorem IsPartChar.toNat {c : Char} (h : IsPartChar c) :
    c.toNat = 46 ∨ (48 ≤ c.toNat ∧ c.toNat ≤ 57) ∨ (65 ≤ c.toNat ∧ c.toNat ≤ 70) ∨ 97 ≤ c.toNat ∧ c.toNat ≤ 102 := by
  rcases h with rfl | h
  · decide
  · simp only [isHex, isLowerHex, Bool.or_eq_true, Bool.and_eq_true, decide_eq_true_eq] at h
    rcases h with (⟨hge, hle⟩ | ⟨hge, hle⟩) | ⟨hge, hle⟩
    · exact .inr (.inl ⟨hge, hle⟩)
    · exact .inr (.inr (.inr ⟨hge, hle⟩))
    · exact .inr (.inr (.inl ⟨hge, hle⟩))

theorem IsPart.colon_not_mem {part : List Char} (h : IsPart part) : ':' ∉ part := fun hmem => by
  have hcolon := (h.chars ':' hmem).toNat
  simp at hcolon

theorem H16.isPart {part : List Char} {g : Nat} (h : H16 part g) : IsPart part :=
  ⟨List.length_pos_iff.mp h.pos, fun c hc => .inr (h.hex c hc)⟩

theorem isHex_of_mem_decimal {c : Char} {n : Nat} (h : c ∈ Nat.toDigits 10 n) : isHex c = true := by
  have hdigit := Nat.isDigit_of_mem_toDigits (by decide) (by decide) h
  simp only [Char.isDigit, Bool.and_eq_true, decide_eq_true_eq] at hdigit
  simp only [isHex, isLowerHex, Bool.or_eq_true, Bool.and_eq_true, decide_eq_true_eq]
  exact .inl (.inl hdigit)

theorem isPart_quadText (a : Ipv4) : IsPart (quadText a.groups) := by
  refine ⟨?_, fun c hc => ?_⟩
  · obtain ⟨groups, hlength, -⟩ := a
    match groups, hlength with
    | [a, b, c, d], _ => simp [quadText]
  · refine (mem_intercalate hc).imp_right fun ⟨part, hpart, hc⟩ => ?_
    obtain ⟨octet, -, rfl⟩ := List.mem_map.mp hpart
    exact isHex_of_mem_decimal hc

theorem GroupParts.isPart {quad : Bool} {parts : List (List Char)} {groups : List Nat}
    (h : GroupParts quad parts groups) : ∀ part ∈ parts, IsPart part := by
  induction h with
  | nil => simp
  | group h rest ih => exact List.forall_mem_cons.mpr ⟨h.isPart, ih⟩
  | quad hquad a => exact List.forall_mem_singleton.mpr (isPart_quadText a)

theorem joinParts_cons_cons (part part' : List Char) (parts : List (List Char)) :
    joinParts (part :: part' :: parts) = part ++ ':' :: joinParts (part' :: parts) := by
  simp [joinParts, List.intercalate_cons_cons]

theorem joinParts_singleton (part : List Char) : joinParts [part] = part := List.intercalate_singleton

theorem splitOn_joinParts {parts : List (List Char)} (h : ∀ part ∈ parts, IsPart part) (hne : parts ≠ []) :
    (joinParts parts).splitOn ':' = parts :=
  List.splitOn_intercalate ':' (fun part hpart => (h part hpart).colon_not_mem) hne

theorem chars_joinParts {parts : List (List Char)} (h : ∀ part ∈ parts, IsPart part) :
    ∀ c ∈ joinParts parts, c = ':' ∨ IsPartChar c := fun c hc =>
  (mem_intercalate hc).imp_right fun ⟨part, hpart, hc⟩ => (h part hpart).chars c hc

theorem head_joinParts {parts : List (List Char)} (h : ∀ part ∈ parts, IsPart part) (hne : parts ≠ []) :
    ∃ c rest, joinParts parts = c :: rest ∧ c ≠ ':' := by
  obtain ⟨part, parts, rfl⟩ := List.exists_cons_of_ne_nil hne
  have hpart := h part List.mem_cons_self
  obtain ⟨c, part, rfl⟩ := List.exists_cons_of_ne_nil hpart.ne
  have hc : c ≠ ':' := fun heq => hpart.colon_not_mem (heq ▸ List.mem_cons_self)
  cases parts with
  | nil => exact ⟨c, part, joinParts_singleton _, hc⟩
  | cons part' parts => exact ⟨c, _, joinParts_cons_cons _ _ _, hc⟩

theorem Ipv6Grammar.chars {quadAhead : Bool} {text : List Char} {groups : List Nat}
    (h : Ipv6Grammar quadAhead text groups) : ∀ c ∈ text, c = ':' ∨ IsPartChar c := by
  intro c hc
  cases h with
  | full h eight => exact chars_joinParts h.isPart c hc
  | elided hhead htail fewer =>
    rcases List.mem_append.mp hc with hc | hc
    · exact chars_joinParts hhead.isPart c hc
    · rcases List.mem_cons.mp hc with rfl | hc
      · exact .inl rfl
      · rcases List.mem_cons.mp hc with rfl | hc
        · exact .inl rfl
        · exact chars_joinParts htail.isPart c hc

theorem GroupParts.length_le {quad : Bool} {parts : List (List Char)} {groups : List Nat}
    (h : GroupParts quad parts groups) : groups.length ≤ parts.length + 1 := by
  induction h with
  | nil => exact Nat.zero_le _
  | group h rest ih => exact Nat.succ_le_succ ih
  | quad hquad a => exact Nat.le_refl 2

theorem Ipv6Grammar.colon_mem {quadAhead : Bool} {text : List Char} {groups : List Nat}
    (h : Ipv6Grammar quadAhead text groups) : ':' ∈ text := by
  cases h with
  | @full parts _ h eight =>
    have hlength := h.length_le
    rw [eight] at hlength
    match parts, hlength with
    | part :: part' :: parts, _ => simp [joinParts_cons_cons]
  | elided hhead htail fewer => simp

/-! ## A quad ahead of the elision -/

theorem GroupParts.mono {parts : List (List Char)} {groups : List Nat} (h : GroupParts false parts groups) :
    GroupParts true parts groups := by
  induction h with
  | nil => exact .nil
  | group h rest ih => exact .group h ih
  | quad hquad a => cases hquad

theorem GroupParts.append_quad {parts : List (List Char)} {groups : List Nat} (h : GroupParts false parts groups)
    (a : Ipv4) : GroupParts true (parts ++ [quadText a.groups]) (groups ++ quadGroups a) := by
  induction h with
  | nil => exact .quad rfl a
  | group h rest ih => exact .group h ih
  | quad hquad a => cases hquad

theorem GroupParts.cases_quad {parts : List (List Char)} {groups : List Nat} (h : GroupParts true parts groups) :
    GroupParts false parts groups ∨ ∃ parts' groups' a, GroupParts false parts' groups' ∧
      parts = parts' ++ [quadText a.groups] ∧ groups = groups' ++ quadGroups a := by
  induction h with
  | nil => exact .inl .nil
  | group h rest ih =>
    rcases ih with ih | ⟨parts', groups', a, hparts, rfl, rfl⟩
    · exact .inl (.group h ih)
    · exact .inr ⟨_, _, a, .group h hparts, rfl, rfl⟩
  | quad hquad a => exact .inr ⟨[], [], a, .nil, rfl, rfl⟩

theorem dot_mem_quadText (a : Ipv4) : '.' ∈ quadText a.groups := by
  obtain ⟨groups, hlength, -⟩ := a
  match groups, hlength with
  | [a, b, c, d], _ => simp [quadText, List.intercalate_cons_cons]

theorem H16.dot_not_mem {part : List Char} {g : Nat} (h : H16 part g) : '.' ∉ part := fun hmem =>
  absurd (h.hex '.' hmem) (by decide)

theorem GroupParts.dot_not_mem {parts : List (List Char)} {groups : List Nat} (h : GroupParts false parts groups) :
    ∀ part ∈ parts, '.' ∉ part := by
  induction h with
  | nil => simp
  | group h rest ih => exact List.forall_mem_cons.mpr ⟨h.dot_not_mem, ih⟩
  | quad hquad a => cases hquad

theorem mem_joinParts {part : List Char} {parts : List (List Char)} (hpart : part ∈ parts) {c : Char} (hc : c ∈ part) :
    c ∈ joinParts parts := by
  induction parts with
  | nil => cases hpart
  | cons first parts ih =>
    cases parts with
    | nil =>
      rw [joinParts_singleton]
      exact List.mem_singleton.mp hpart ▸ hc
    | cons second parts =>
      rw [joinParts_cons_cons]
      rcases List.mem_cons.mp hpart with rfl | hpart
      · exact List.mem_append_left _ hc
      · exact List.mem_append_right _ (List.mem_cons_of_mem _ (ih hpart))

/-! ## Canonical texts -/

theorem h16_toDigits {g : Nat} (h : g < 65536) : H16 (Nat.toDigits 16 g) g where
  pos := Nat.length_toDigits_pos
  le := (Nat.length_toDigits_le_iff (by decide) (by decide)).mpr h
  hex c hc := by
    have hlower := isLowerHex_of_mem hc
    simp [isHex, hlower]
  value := (parseHex_toDigits g).symm

theorem groupParts_toDigits {quad : Bool} {groups : List Nat} (h : ∀ g ∈ groups, g < 65536) :
    GroupParts quad (groups.map (Nat.toDigits 16)) groups := by
  induction groups with
  | nil => exact .nil
  | cons g groups ih =>
    exact .group (h16_toDigits (h g List.mem_cons_self)) (ih fun g hg => h g (List.mem_cons_of_mem _ hg))

/-- The canonical text of an address is one of its texts. -/
theorem Canonical.grammar {quadAhead : Bool} {groups : List Nat} {text : List Char} (h : Canonical groups text)
    (hlength : groups.length = 8) (hlt : ∀ g ∈ groups, g < 65536) : Ipv6Grammar quadAhead text groups := by
  cases h with
  | full alone => exact .full (groupParts_toDigits hlt) hlength
  | elided head tail n hgroups two longest first =>
    have hsum : head.length + n + tail.length = 8 := by
      rw [← hlength, hgroups, List.length_append, List.length_append, List.length_replicate]
    have hn : n = 8 - head.length - tail.length := by omega
    rw [hgroups, hn]
    refine .elided (groupParts_toDigits fun g hg => hlt g ?_) (groupParts_toDigits fun g hg => hlt g ?_) (by omega)
    · rw [hgroups]
      simp [hg]
    · rw [hgroups]
      simp [hg]

end Sdp.Lib
