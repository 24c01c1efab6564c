import Sdp.Code.IpAllowlist
import Sdp.Digits
import Sdp.Lib.IpGrammar

/-!
# Reading an address range

The parser reads a text if and only if it is one of the grammar, save that a quad may also stand right in front of `::`.
-/

namespace Sdp.IpAllowlist

open Sdp.Amount
open Sdp.Lib

/-! ## Quads -/

theorem isPlainDecimal_iff {digits : List Char} :
    isPlainDecimal digits = true ↔ Plain digits ∧ ∀ c ∈ digits, isDigit c = true := by
  unfold isPlainDecimal Plain
  split
  · simp [isDigit]
  · next c rest hne =>
    have hhead : isDigit c = true ∧ c ≠ '0' ↔ '1' ≤ c ∧ c ≤ '9' := by
      have hzero : c = '0' ↔ c.toNat = 48 := by rw [← Char.toNat_inj]; rfl
      have hge : ∀ d : Char, d ≤ c ↔ d.toNat ≤ c.toNat := fun d => Iff.rfl
      have hle : ∀ d : Char, c ≤ d ↔ c.toNat ≤ d.toNat := fun d => Iff.rfl
      simp only [isDigit, decide_eq_true_eq, ne_eq, hzero, hge, hle, show '0'.toNat = 48 from rfl,
        show '1'.toNat = 49 from rfl, show '9'.toNat = 57 from rfl]
      omega
    have hlone : c :: rest ≠ ['0'] := fun heq => hne (List.cons.inj heq).1 (List.cons.inj heq).2
    simp only [Bool.and_eq_true, decide_eq_true_eq, List.all_eq_true, List.forall_mem_cons, List.head?_cons,
      Option.mem_some_iff, forall_eq', ne_eq, hlone, false_or, reduceCtorEq, not_false_eq_true, true_and, ← hhead]
    tauto
  · simp

theorem isPlainDecimal_iff_toDigits {digits : List Char} :
    isPlainDecimal digits = true ↔ Nat.toDigits 10 (digitsValue digits) = digits := by
  rw [isPlainDecimal_iff]
  constructor
  · rintro ⟨hplain, hdigits⟩
    exact hplain.toDigits hdigits
  · intro h
    rw [← h]
    exact ⟨plain_toDigits _, fun _ => isDigit_of_mem_toDigits⟩

theorem isPlainDecimal_toDigits (n : Nat) : isPlainDecimal (Nat.toDigits 10 n) = true := by
  rw [isPlainDecimal_iff_toDigits, digitsValue_toDigits]

theorem parseOctet_iff {part : List Char} {octet : Nat} :
    parseOctet part = some octet ↔ octet < 256 ∧ part = Nat.toDigits 10 octet := by
  unfold parseOctet
  constructor
  · intro h
    split at h
    · cases h
    · next hplain =>
      dsimp only at h
      split at h
      · cases h
      · next hle =>
        obtain rfl := Option.some.inj h
        simp only [Bool.not_eq_true', Bool.not_eq_false, Bool.and_eq_true] at hplain
        exact ⟨by omega, (isPlainDecimal_iff_toDigits.mp hplain.1).symm⟩
  · rintro ⟨hlt, rfl⟩
    have hlength : (Nat.toDigits 10 octet).length ≤ 3 :=
      (Nat.length_toDigits_le_iff (by decide) (by decide)).mpr (lt_trans hlt (by decide))
    rw [digitsValue_toDigits, if_neg (by simp [isPlainDecimal_toDigits, hlength]), if_neg (by omega)]

theorem mapM_parseOctet {parts : List (List Char)} {octets : List Nat} :
    parts.mapM parseOctet = some octets ↔ (∀ octet ∈ octets, octet < 256) ∧ parts = octets.map (Nat.toDigits 10) := by
  induction parts generalizing octets with
  | nil => cases octets <;> simp
  | cons part parts ih =>
    rw [List.mapM_cons]
    constructor
    · intro h
      obtain ⟨octet, hoctet, h⟩ := Option.bind_eq_some_iff.mp h
      obtain ⟨rest, hrest, h⟩ := Option.bind_eq_some_iff.mp h
      obtain rfl := Option.some.inj h
      obtain ⟨hlt, rfl⟩ := parseOctet_iff.mp hoctet
      obtain ⟨hltrest, rfl⟩ := ih.mp hrest
      exact ⟨List.forall_mem_cons.mpr ⟨hlt, hltrest⟩, rfl⟩
    · rintro ⟨hlt, h⟩
      cases octets with
      | nil => cases h
      | cons octet octets =>
        obtain ⟨rfl, rfl⟩ := List.cons.inj h
        obtain ⟨hoctet, hrest⟩ := List.forall_mem_cons.mp hlt
        rw [parseOctet_iff.mpr ⟨hoctet, rfl⟩, ih.mpr ⟨hrest, rfl⟩]
        rfl

theorem parseIpv4Octets_iff {text : List Char} {octets : List Nat} :
    parseIpv4Octets text = some octets ↔ ∃ a : Ipv4, text = quadText a.groups ∧ octets = a.groups := by
  unfold parseIpv4Octets
  constructor
  · intro h
    dsimp only at h
    split at h
    · cases h
    · next hlength =>
      obtain ⟨hlt, hparts⟩ := mapM_parseOctet.mp h
      have hfour : octets.length = 4 := by
        rw [not_not, hparts, List.length_map] at hlength
        exact hlength
      refine ⟨⟨octets, hfour, hlt⟩, ?_, rfl⟩
      have hjoin : ['.'].intercalate (text.splitOn '.') = text := List.intercalate_splitOn '.'
      rw [← hjoin, hparts]
      rfl
  · rintro ⟨a, rfl, rfl⟩
    have hne : a.groups ≠ [] := List.length_pos_iff.mp (by rw [a.length]; decide)
    rw [splitOn_quadText hne, if_neg (by simp [a.length]), mapM_parseOctet]
    exact ⟨a.lt, rfl⟩

/-! ## Groups -/

theorem quadHextets_groups (a : Ipv4) : quadHextets a.groups = quadGroups a := by
  obtain ⟨groups, hlength, hlt⟩ := a
  match groups, hlength with
  | [a, b, c, d], _ =>
    have hb : b < 2 ^ 8 := hlt b (by simp)
    have hc : c < 256 := hlt c (by simp)
    have hd : d < 2 ^ 8 := hlt d (by simp)
    have hvalue : valueOf 256 [a, b, c, d] = (a * 2 ^ 8 + b) * 65536 + (c * 2 ^ 8 + d) := by
      simp only [valueOf_cons, valueOf_nil, List.length_cons, List.length_nil]
      omega
    have hlow : c * 2 ^ 8 + d < 65536 := by omega
    simp only [quadHextets, quadGroups, Address.value]
    rw [← Nat.shiftLeft_add_eq_or_of_lt hb, ← Nat.shiftLeft_add_eq_or_of_lt hd, Nat.shiftLeft_eq, Nat.shiftLeft_eq,
      hvalue]
    simp only [List.cons.injEq, and_true]
    omega

theorem isHextet_iff {part : List Char} : isHextet part = true ↔ H16 part (parseHex part) := by
  simp only [isHextet, Bool.and_eq_true, decide_eq_true_eq, List.all_eq_true]
  exact ⟨fun ⟨⟨hpos, hle⟩, hhex⟩ => ⟨hpos, hle, hhex, rfl⟩, fun h => ⟨⟨h.pos, h.le⟩, h.hex⟩⟩

theorem toHextets_iff {parts : List (List Char)} {groups : List Nat} :
    toHextets parts = some groups ↔ GroupParts true parts groups := by
  constructor
  · intro h
    induction parts generalizing groups with
    | nil =>
      obtain rfl := Option.some.inj h
      exact .nil
    | cons part rest ih =>
      unfold toHextets at h
      split at h
      · split at h
        · cases h
        · next hlast =>
          obtain rfl := not_not.mp hlast
          obtain ⟨octets, hoctets, rfl⟩ := Option.map_eq_some_iff.mp h
          obtain ⟨a, rfl, rfl⟩ := parseIpv4Octets_iff.mp hoctets
          rw [quadHextets_groups]
          exact .quad rfl a
      · split at h
        · cases h
        · next hhextet =>
          obtain ⟨groups, hgroups, rfl⟩ := Option.map_eq_some_iff.mp h
          exact .group (isHextet_iff.mp (by simpa using hhextet)) (ih hgroups)
  · intro h
    induction h with
    | nil => rfl
    | group h rest ih =>
      obtain rfl := h.value
      rw [toHextets, if_neg h.dot_not_mem, if_neg (by simp [isHextet_iff.mpr h]), ih]
      rfl
    | quad hquad a =>
      rw [toHextets, if_pos (dot_mem_quadText a), if_neg (by simp), parseIpv4Octets_iff.mpr ⟨a, rfl, rfl⟩,
        Option.map_some, quadHextets_groups]

theorem splitGroups_joinParts {parts : List (List Char)} (h : ∀ part ∈ parts, IsPart part) :
    splitGroups (joinParts parts) = parts := by
  rcases eq_or_ne parts [] with rfl | hne
  · rfl
  · obtain ⟨c, rest, hjoin, -⟩ := head_joinParts h hne
    rw [splitGroups, if_pos (by simp [hjoin]), splitOn_joinParts h hne]

theorem joinParts_splitGroups (text : List Char) : joinParts (splitGroups text) = text := by
  unfold splitGroups
  split
  · exact List.intercalate_splitOn ':'
  · next hempty =>
    rw [not_not.mp hempty]
    rfl

/-! ## The elision -/

theorem cutElision_nil : cutElision [] = none := rfl

theorem cutElision_start (tail : List Char) : cutElision (':' :: ':' :: tail) = some ([], tail) := rfl

theorem cutElision_step {c : Char} {rest : List Char} (h : ∀ tail, c = ':' → rest = ':' :: tail → False) :
    cutElision (c :: rest) = (cutElision rest).map fun (head, tail) => (c :: head, tail) := by
  rw [cutElision]
  exact h

theorem cutElision_some {text head tail : List Char} (h : cutElision text = some (head, tail)) :
    text = head ++ ':' :: ':' :: tail := by
  induction text generalizing head with
  | nil => cases h
  | cons c rest ih =>
    by_cases hcolons : ∃ tail, c = ':' ∧ rest = ':' :: tail
    · obtain ⟨tail', rfl, rfl⟩ := hcolons
      obtain ⟨rfl, rfl⟩ := Prod.mk.inj (Option.some.inj h)
      rfl
    · rw [cutElision_step fun tail hc hrest => hcolons ⟨tail, hc, hrest⟩] at h
      obtain ⟨⟨head', tail'⟩, hrest, heq⟩ := Option.map_eq_some_iff.mp h
      obtain ⟨rfl, rfl⟩ := Prod.mk.inj heq
      rw [ih hrest]
      rfl

theorem cutElision_cons {c : Char} (hc : c ≠ ':') (rest : List Char) :
    cutElision (c :: rest) = (cutElision rest).map fun (head, tail) => (c :: head, tail) :=
  cutElision_step fun _ heq _ => hc heq

theorem cutElision_colon {c : Char} (hc : c ≠ ':') (rest : List Char) :
    cutElision (':' :: c :: rest) = (cutElision (c :: rest)).map fun (head, tail) => (':' :: head, tail) :=
  cutElision_step fun _ _ heq => hc (List.cons.inj heq).1

theorem cutElision_part {part : List Char} (h : ':' ∉ part) (rest : List Char) :
    cutElision (part ++ rest) = (cutElision rest).map fun (head, tail) => (part ++ head, tail) := by
  induction part with
  | nil => simp
  | cons c part ih =>
    have hc : c ≠ ':' := fun heq => h (heq ▸ List.mem_cons_self)
    rw [List.cons_append, cutElision_cons hc, ih fun hmem => h (List.mem_cons_of_mem _ hmem), Option.map_map]
    rfl

theorem cutElision_joinParts {parts : List (List Char)} (h : ∀ part ∈ parts, IsPart part) (rest : List Char) :
    cutElision (joinParts parts ++ rest) = (cutElision rest).map fun (head, tail) => (joinParts parts ++ head, tail) := by
  induction parts with
  | nil => simp [joinParts, List.intercalate_nil]
  | cons part parts ih =>
    have hpart := (h part List.mem_cons_self).colon_not_mem
    have hrest := fun part hmem => h part (List.mem_cons_of_mem _ hmem)
    cases parts with
    | nil => rw [joinParts_singleton, cutElision_part hpart]
    | cons part' parts =>
      obtain ⟨c, more, hjoin, hc⟩ := head_joinParts hrest (by simp)
      have hih := ih hrest
      rw [joinParts_cons_cons, List.append_assoc, cutElision_part hpart]
      rw [hjoin] at hih ⊢
      rw [List.cons_append, List.cons_append, cutElision_colon hc, ← List.cons_append, hih, Option.map_map, Option.map_map]
      simp [Function.comp_def]

theorem cutElision_tail {parts : List (List Char)} (h : ∀ part ∈ parts, IsPart part) :
    cutElision (':' :: joinParts parts) = none := by
  have hnone : cutElision (joinParts parts) = none := by simpa [cutElision_nil] using cutElision_joinParts h []
  rcases eq_or_ne parts [] with rfl | hne
  · rfl
  · obtain ⟨c, rest, hjoin, hc⟩ := head_joinParts h hne
    rw [hjoin] at hnone ⊢
    rw [cutElision_colon hc, hnone]
    rfl

theorem parseIpv6Hextets_iff {text : List Char} {groups : List Nat} :
    parseIpv6Hextets text = some groups ↔ Ipv6Grammar true text groups := by
  constructor
  · intro h
    unfold parseIpv6Hextets at h
    split at h
    · obtain ⟨hextets, hhextets, h⟩ := Option.bind_eq_some_iff.mp h
      split at h
      · next height =>
        obtain rfl := Option.some.inj h
        have hjoin : joinParts (text.splitOn ':') = text := List.intercalate_splitOn ':'
        rw [← hjoin]
        exact .full (toHextets_iff.mp hhextets) height
      · cases h
    · next headText tailText hcut =>
      split at h
      · cases h
      · obtain ⟨head, hhead, h⟩ := Option.bind_eq_some_iff.mp h
        obtain ⟨tail, htail, h⟩ := Option.bind_eq_some_iff.mp h
        dsimp only at h
        split at h
        · cases h
        · next helided =>
          obtain rfl := Option.some.inj h
          rw [cutElision_some hcut, ← joinParts_splitGroups headText, ← joinParts_splitGroups tailText]
          exact .elided (toHextets_iff.mp hhead) (toHextets_iff.mp htail) (by omega)
  · intro h
    unfold parseIpv6Hextets
    cases h with
    | @full parts _ h eight =>
      have hne : parts ≠ [] := by
        rintro rfl
        cases h
        cases eight
      have hcut : cutElision (joinParts parts) = none := by simpa [cutElision_nil] using cutElision_joinParts h.isPart []
      simp only [hcut, splitOn_joinParts h.isPart hne, toHextets_iff.mpr h, Option.bind_some, eight, if_true]
    | @elided head tail hs ts hhead htail fewer =>
      have hcut := cutElision_joinParts hhead.isPart (':' :: ':' :: joinParts tail)
      simp only [cutElision_start, Option.map_some, List.append_nil] at hcut
      simp only [hcut, cutElision_tail htail.isPart, Option.isSome_none, Bool.false_eq_true, if_false,
        splitGroups_joinParts hhead.isPart, splitGroups_joinParts htail.isPart, toHextets_iff.mpr hhead,
        toHextets_iff.mpr htail, Option.bind_eq_bind, Option.bind_some, if_neg (by omega : ¬8 - hs.length - ts.length < 1)]

/-! ## Ranges -/

inductive AddressText (quadAhead : Bool) : IpType → List Char → List Nat → Prop
  | ipv4 (a : Ipv4) : AddressText quadAhead .ipv4 (quadText a.groups) a.groups
  | ipv6 {text : List Char} {groups : List Nat} (h : Ipv6Grammar quadAhead text groups) :
      AddressText quadAhead .ipv6 text groups

/-- An address, or one with the length of a prefix that is no longer than the address. -/
inductive RangeText (quadAhead : Bool) : List Char → ParsedIpRange → Prop
  | address {type : IpType} {text : List Char} {groups : List Nat} (h : AddressText quadAhead type text groups) :
      RangeText quadAhead text ⟨text, groups, maximumPrefix type, type⟩
  | network {type : IpType} {text : List Char} {groups : List Nat} (h : AddressText quadAhead type text groups) (n : Nat)
      (hn : n ≤ maximumPrefix type) : RangeText quadAhead (text ++ '/' :: Nat.toDigits 10 n) ⟨text, groups, n, type⟩

theorem AddressText.chars {quadAhead : Bool} {type : IpType} {text : List Char} {groups : List Nat}
    (h : AddressText quadAhead type text groups) : ∀ c ∈ text, c = ':' ∨ IsPartChar c := by
  cases h with
  | ipv4 a => exact fun c hc => .inr ((isPart_quadText a).chars c hc)
  | ipv6 h => exact h.chars

theorem AddressText.ne_nil {quadAhead : Bool} {type : IpType} {text : List Char} {groups : List Nat}
    (h : AddressText quadAhead type text groups) : text ≠ [] := by
  cases h with
  | ipv4 a => exact (isPart_quadText a).ne
  | ipv6 h => exact List.ne_nil_of_mem h.colon_mem

theorem parse_iff_addressText {text : List Char} {groups : List Nat} {type : IpType} :
    (type = if ':' ∈ text then .ipv6 else .ipv4) ∧
        (if type = .ipv4 then parseIpv4Octets text else parseIpv6Hextets text) = some groups ↔
      AddressText true type text groups := by
  constructor
  · rintro ⟨htype, h⟩
    cases type with
    | ipv4 =>
      obtain ⟨a, rfl, rfl⟩ := parseIpv4Octets_iff.mp (by simpa using h)
      exact .ipv4 a
    | ipv6 => exact .ipv6 (parseIpv6Hextets_iff.mp (by simpa using h))
  · intro h
    cases h with
    | ipv4 a =>
      rw [if_neg (isPart_quadText a).colon_not_mem]
      exact ⟨rfl, by simpa using parseIpv4Octets_iff.mpr ⟨a, rfl, rfl⟩⟩
    | ipv6 h =>
      rw [if_pos h.colon_mem]
      exact ⟨rfl, by simpa using parseIpv6Hextets_iff.mpr h⟩

theorem isTrimmed_addressChar {c : Char} (h : c = ':' ∨ IsPartChar c) : isTrimmed c = false := by
  have hc : 46 ≤ c.toNat ∧ c.toNat ≤ 102 := by
    rcases h with rfl | h
    · decide
    · have hc := h.toNat
      omega
  simp only [isTrimmed, decide_eq_false_iff_not, not_or, List.mem_cons, List.not_mem_nil, or_false]
  omega

theorem addressChar_ne {c d : Char} (h : c = ':' ∨ IsPartChar c) (hd : d.toNat < 46 ∨ d.toNat = 47) : c ≠ d := by
  rintro rfl
  rcases h with rfl | h
  · exact absurd hd (by decide)
  · have hc := h.toNat
    omega

theorem RangeText.trim {quadAhead : Bool} {value : List Char} {r : ParsedIpRange} (h : RangeText quadAhead value r) :
    value ≠ [] ∧ value = trim value := by
  cases h with
  | address h => exact ⟨h.ne_nil, (trim_of_none fun c hc => isTrimmed_addressChar (h.chars c hc)).symm⟩
  | network h n hn =>
    refine ⟨by simp, (trim_of_none fun c hc => ?_).symm⟩
    rcases List.mem_append.mp hc with hc | hc
    · exact isTrimmed_addressChar (h.chars c hc)
    · rcases List.mem_cons.mp hc with rfl | hc
      · decide
      · exact isDigit_not_trimmed c (isDigit_of_mem_toDigits hc)

/-- What is read of a text that is one of an address before a slash, if there is any. -/
theorem parseIpRange_iff {value : List Char} {r : ParsedIpRange} : parseIpRange value = some r ↔ RangeText true value r := by
  constructor
  · intro h
    have hjoin : ['/'].intercalate (value.splitOn '/') = value := List.intercalate_splitOn '/'
    unfold parseIpRange at h
    split at h
    · cases h
    · dsimp only at h
      split at h
      · cases h
      · next hsegments =>
        split at h
        · cases h
        · generalize htype : (if ':' ∈ (value.splitOn '/').headD [] then IpType.ipv6 else IpType.ipv4) = type at h
          split at h
          · cases h
          · next groups hgroups =>
            have haddress := parse_iff_addressText.mp ⟨htype.symm, hgroups⟩
            match hparts : value.splitOn '/', hsegments with
            | [], _ => exact absurd hparts (List.splitOn_ne_nil _ _)
            | [address], _ =>
              rw [hparts] at h haddress hjoin
              obtain rfl := Option.some.inj h
              rw [List.intercalate_singleton] at hjoin
              rw [← hjoin]
              exact .address haddress
            | [address, rawPrefix], _ =>
              rw [hparts] at h haddress hjoin
              simp only [List.getElem?_cons_succ, List.getElem?_cons_zero] at h
              split at h
              · cases h
              · next hplain =>
                split at h
                · cases h
                · next hle =>
                  obtain rfl := Option.some.inj h
                  have hdigits := isPlainDecimal_iff_toDigits.mp (by simpa using hplain)
                  have hvalue : value = address ++ '/' :: Nat.toDigits 10 (digitsValue rawPrefix) := by
                    rw [← hjoin, hdigits]
                    simp [List.intercalate_cons_cons]
                  rw [hvalue]
                  exact .network haddress _ (Nat.le_of_not_lt hle)
            | _ :: _ :: _ :: _, hlong => exact absurd hlong (by simp)
  · intro h
    obtain ⟨hne, htrim⟩ := h.trim
    unfold parseIpRange
    rw [if_neg (by simp [hne, ← htrim])]
    cases h with
    | address h =>
      have hslash : '/' ∉ value := fun hmem => addressChar_ne (h.chars _ hmem) (by decide) rfl
      have hpercent : '%' ∉ value := fun hmem => addressChar_ne (h.chars _ hmem) (by decide) rfl
      obtain ⟨htype, hgroups⟩ := parse_iff_addressText.mpr h
      simp only [List.splitOn_eq_singleton hslash, List.length_singleton, List.headD_cons, if_neg hpercent, ← htype,
        hgroups, List.getElem?_cons_succ, List.getElem?_nil, show ¬2 < 1 by decide, if_false]
    | @network type text groups h n hn =>
      have hslash : '/' ∉ text := fun hmem => addressChar_ne (h.chars _ hmem) (by decide) rfl
      have hpercent : '%' ∉ text := fun hmem => addressChar_ne (h.chars _ hmem) (by decide) rfl
      have hdigits : '/' ∉ Nat.toDigits 10 n := fun hmem => absurd (isDigit_of_mem_toDigits hmem) (by decide)
      obtain ⟨htype, hgroups⟩ := parse_iff_addressText.mpr h
      simp only [List.splitOn_append_cons_self_of_not_mem hslash, List.splitOn_eq_singleton hdigits, List.length_cons,
        List.length_nil, List.headD_cons, if_neg hpercent, ← htype, hgroups, List.getElem?_cons_succ,
        List.getElem?_cons_zero, isPlainDecimal_toDigits, digitsValue_toDigits, if_neg (Nat.not_lt.mpr hn), Bool.not_true,
        Bool.false_eq_true, if_false]
      simp

/-! ## The grammar -/

/-- A quad ends what is in front of the elision of a text that is read otherwise. -/
def Misplaced (value : List Char) : Prop :=
  ∃ (head tail : List (List Char)) (hs ts : List Nat) (a : Ipv4) (rest : List Char),
    GroupParts false head hs ∧ GroupParts true tail ts ∧ hs.length + 2 + ts.length ≤ 7 ∧
      (rest = [] ∨ ∃ n, n ≤ 128 ∧ rest = '/' :: Nat.toDigits 10 n) ∧
      value = joinParts (head ++ [quadText a.groups]) ++ ':' :: ':' :: joinParts tail ++ rest

theorem AddressText.mono {type : IpType} {text : List Char} {groups : List Nat} (h : AddressText false type text groups) :
    AddressText true type text groups := by
  cases h with
  | ipv4 a => exact .ipv4 a
  | ipv6 h =>
    cases h with
    | full h eight => exact .ipv6 (.full h eight)
    | elided hhead htail fewer => exact .ipv6 (.elided hhead.mono htail fewer)

theorem RangeText.mono {value : List Char} {r : ParsedIpRange} (h : RangeText false value r) : RangeText true value r := by
  cases h with
  | address h => exact .address h.mono
  | network h n hn => exact .network h.mono n hn

theorem AddressText.cases_ahead {type : IpType} {text : List Char} {groups : List Nat}
    (h : AddressText true type text groups) :
    AddressText false type text groups ∨ (type = .ipv6 ∧ ∃ (head tail : List (List Char)) (hs ts : List Nat) (a : Ipv4),
      GroupParts false head hs ∧ GroupParts true tail ts ∧ hs.length + 2 + ts.length ≤ 7 ∧
        text = joinParts (head ++ [quadText a.groups]) ++ ':' :: ':' :: joinParts tail) := by
  cases h with
  | ipv4 a => exact .inl (.ipv4 a)
  | ipv6 h =>
    cases h with
    | full h eight => exact .inl (.ipv6 (.full h eight))
    | @elided _ tail _ ts hhead htail fewer =>
      rcases hhead.cases_quad with hplain | ⟨head, hs, a, hplain, rfl, rfl⟩
      · exact .inl (.ipv6 (.elided hplain htail fewer))
      · refine .inr ⟨rfl, head, tail, hs, ts, a, hplain, htail, ?_, rfl⟩
        simpa [quadGroups] using fewer

theorem RangeText.cases_ahead {value : List Char} {r : ParsedIpRange} (h : RangeText true value r) :
    RangeText false value r ∨ Misplaced value := by
  cases h with
  | address h =>
    rcases h.cases_ahead with h | ⟨-, head, tail, hs, ts, a, hhead, htail, hfewer, rfl⟩
    · exact .inl (.address h)
    · exact .inr ⟨head, tail, hs, ts, a, [], hhead, htail, hfewer, .inl rfl, by simp⟩
  | network h n hn =>
    rcases h.cases_ahead with h | ⟨rfl, head, tail, hs, ts, a, hhead, htail, hfewer, rfl⟩
    · exact .inl (.network h n hn)
    · exact .inr ⟨head, tail, hs, ts, a, _, hhead, htail, hfewer, .inr ⟨n, hn, rfl⟩, rfl⟩

theorem RangeText.address_eq {quadAhead : Bool} {value : List Char} {r : ParsedIpRange} (h : RangeText quadAhead value r) :
    (value.splitOn '/').headD [] = r.address ∧ AddressText quadAhead r.type r.address r.groups := by
  cases h with
  | address h =>
    have hslash : '/' ∉ value := fun hmem => addressChar_ne (h.chars _ hmem) (by decide) rfl
    exact ⟨by rw [List.splitOn_eq_singleton hslash]; rfl, h⟩
  | @network type text groups h n hn =>
    have hslash : '/' ∉ text := fun hmem => addressChar_ne (h.chars _ hmem) (by decide) rfl
    exact ⟨by rw [List.splitOn_append_cons_self_of_not_mem hslash]; rfl, h⟩

theorem cutElision_elided {parts : List (List Char)} (h : ∀ part ∈ parts, IsPart part) (rest : List Char) :
    cutElision (joinParts parts ++ ':' :: ':' :: rest) = some (joinParts parts, rest) := by
  simp [cutElision_joinParts h, cutElision_start]

theorem not_addressText {head : List (List Char)} {a : Ipv4} (h : ∀ part ∈ head ++ [quadText a.groups], IsPart part)
    (rest : List Char) {type : IpType} {groups : List Nat} :
    ¬AddressText false type (joinParts (head ++ [quadText a.groups]) ++ ':' :: ':' :: rest) groups := by
  intro htext
  have hcut := cutElision_elided h rest
  generalize heq : joinParts (head ++ [quadText a.groups]) ++ ':' :: ':' :: rest = text at htext hcut
  cases htext with
  | ipv4 a' => exact absurd (heq ▸ by simp) (isPart_quadText a').colon_not_mem
  | ipv6 hgrammar =>
    cases hgrammar with
    | full hparts eight =>
      have hnone := cutElision_joinParts hparts.isPart []
      rw [List.append_nil, hcut] at hnone
      cases hnone
    | @elided head' tail' _ _ hhead htail fewer =>
      rw [cutElision_elided hhead.isPart] at hcut
      have hjoin : joinParts head' = joinParts (head ++ [quadText a.groups]) := (Prod.mk.inj (Option.some.inj hcut)).1
      have hdot := mem_joinParts (List.mem_append_right head (List.mem_singleton_self _)) (dot_mem_quadText a)
      rw [← hjoin] at hdot
      rcases mem_intercalate hdot with hdot | ⟨part, hpart, hdot⟩
      · exact absurd hdot (by decide)
      · exact hhead.dot_not_mem part hpart hdot

theorem Misplaced.range {value : List Char} (h : Misplaced value) :
    ∃ (r : ParsedIpRange) (head : List (List Char)) (a : Ipv4) (rest : List Char), RangeText true value r ∧
      (∀ part ∈ head ++ [quadText a.groups], IsPart part) ∧
      r.address = joinParts (head ++ [quadText a.groups]) ++ ':' :: ':' :: rest := by
  obtain ⟨head, tail, hs, ts, a, rest, hhead, htail, hfewer, hrest, rfl⟩ := h
  have hquad := hhead.append_quad a
  have haddress : AddressText true .ipv6 _ _ := .ipv6 (.elided hquad htail (by simpa [quadGroups] using hfewer))
  rcases hrest with rfl | ⟨n, hn, rfl⟩
  · rw [List.append_nil]
    exact ⟨_, head, a, joinParts tail, .address haddress, hquad.isPart, rfl⟩
  · exact ⟨_, head, a, joinParts tail, .network haddress n hn, hquad.isPart, rfl⟩

theorem Misplaced.accepted {value : List Char} (h : Misplaced value) : ∃ r, parseIpRange value = some r := by
  obtain ⟨r, -, -, -, hr, -⟩ := h.range
  exact ⟨r, parseIpRange_iff.mpr hr⟩

theorem Misplaced.not_grammar {value : List Char} (h : Misplaced value) (r : ParsedIpRange) : ¬RangeText false value r := by
  intro hr
  obtain ⟨r', head, a, rest, hr', hparts, haddress⟩ := h.range
  have hsame : r.address = r'.address := hr.address_eq.1.symm.trans hr'.address_eq.1
  have htext := hr.address_eq.2
  rw [hsame, haddress] at htext
  exact not_addressText hparts rest htext

/-- The parser reads exactly the grammar, unless a quad stands in front of the elision. -/
theorem parser_exact_iff (value : List Char) :
    (∀ r, parseIpRange value = some r ↔ RangeText false value r) ↔ ¬Misplaced value := by
  constructor
  · intro h hmisplaced
    obtain ⟨r, hr⟩ := hmisplaced.accepted
    exact hmisplaced.not_grammar r ((h r).mp hr)
  · intro h r
    rw [parseIpRange_iff]
    exact ⟨fun hr => hr.cases_ahead.resolve_right h, RangeText.mono⟩

/-- A quad in front of `::` is accepted, which no address has. -/
theorem quad_ahead_is_accepted :
    parseIpRange "1.2.3.4::".toList = some ⟨"1.2.3.4::".toList, [0x102, 0x304, 0, 0, 0, 0, 0, 0], 128, .ipv6⟩ ∧
      ∀ r, ¬RangeText false "1.2.3.4::".toList r :=
  ⟨by decide, Misplaced.not_grammar
    ⟨[], [], [], [], ⟨[1, 2, 3, 4], rfl, by decide⟩, [], .nil, .nil, by decide, .inl rfl, by decide⟩⟩

end Sdp.IpAllowlist
