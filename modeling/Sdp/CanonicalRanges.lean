import Sdp.IpAllowlist

/-!
# What an entry is rewritten to

The form that is stored is the one canonical text of the range: the address is cut to its prefix, and the longest run of
zero groups is left out. The parser takes it back as the range that the entry had.
-/

open Sdp.Lib

namespace Sdp.IpAllowlist

/-! ## Runs of zeros -/

def IsRun (groups : List Nat) (start length : Nat) : Prop := ∀ i, start ≤ i → i < start + length → groups[i]? = some 0

theorem isRun_of_append {groups head tail : List Nat} {n : Nat} (h : groups = head ++ List.replicate n 0 ++ tail) :
    IsRun groups head.length n := by
  intro i hge hlt
  rw [h, List.append_assoc, List.getElem?_append_right hge, List.getElem?_append_left (by simp; omega),
    List.getElem?_replicate_of_lt (by omega)]

theorem IsRun.append {groups : List Nat} {start n : Nat} (h : IsRun groups start n) (hle : start + n ≤ groups.length) :
    groups = groups.take start ++ List.replicate n 0 ++ groups.drop (start + n) := by
  have hrun : (groups.drop start).take n = List.replicate n 0 := by
    refine List.eq_replicate_iff.mpr ⟨by simp; omega, fun g hg => ?_⟩
    obtain ⟨i, hi, rfl⟩ := List.mem_iff_getElem.mp hg
    have hlt : i < n := by
      simp only [List.length_take] at hi
      omega
    have hzero := h (start + i) (Nat.le_add_right _ _) (Nat.add_lt_add_left hlt _)
    rw [List.getElem?_eq_getElem (by omega)] at hzero
    simpa using Option.some.inj hzero
  rw [← hrun, List.append_assoc, ← List.drop_drop, List.take_append_drop, List.take_append_drop]

/-- What the loop has found in the groups in front of an index. -/
structure Found (groups : List Nat) (index : Nat) (runs : ZeroRuns) : Prop where
  within : runs.bestStart + runs.bestLength ≤ index
  best : IsRun groups runs.bestStart runs.bestLength
  current : ∀ start, runs.runStart = some start → start ≤ index ∧ IsRun groups start (index - start)
  /-- A run that ends here is within the current one. -/
  suffix : ∀ a, a < index → IsRun groups a (index - a) → ∃ start, runs.runStart = some start ∧ start ≤ a
  longest : ∀ a n, a + n ≤ index → IsRun groups a n →
    n ≤ runs.bestLength ∨ ∃ start, runs.runStart = some start ∧ start ≤ a
  first : 0 < runs.bestLength → ∀ a, a + runs.bestLength ≤ index → IsRun groups a runs.bestLength → runs.bestStart ≤ a

namespace Found

variable {groups : List Nat} {index : Nat} {runs : ZeroRuns}

theorem start : Found groups 0 ⟨0, 0, none⟩ where
  within := le_rfl
  best := fun i _ hi => absurd hi (Nat.not_lt_zero i)
  current _ h := by cases h
  suffix a ha := absurd ha (Nat.not_lt_zero a)
  longest a n h _ := .inl (by simp only; omega)
  first h := absurd h (Nat.lt_irrefl 0)

theorem zero (h : Found groups index runs) (hzero : groups[index]? = some 0) :
    Found groups (index + 1) { runs with runStart := some (runs.runStart.getD index) } := by
  have hstart : ∀ start, runs.runStart = some start → runs.runStart.getD index = start := by
    intro start hsome
    rw [hsome, Option.getD_some]
  have hle : runs.runStart.getD index ≤ index := by
    cases hrun : runs.runStart with
    | none => exact le_rfl
    | some start => exact (h.current start hrun).1
  refine ⟨h.within.trans (Nat.le_succ _), h.best, ?_, ?_, ?_, ?_⟩
  · rintro start ⟨⟩
    refine ⟨hle.trans (Nat.le_succ _), fun i hge hlt => ?_⟩
    rcases Nat.lt_or_ge i index with hi | hi
    · cases hrun : runs.runStart with
      | none =>
        rw [hrun, Option.getD_none] at hge
        omega
      | some start =>
        rw [hstart start hrun] at hge
        exact (h.current start hrun).2 i hge (by omega)
    · obtain rfl : i = index := by omega
      exact hzero
  · intro a ha hrun
    refine ⟨_, rfl, ?_⟩
    rcases Nat.lt_or_ge a index with hlt | hge
    · obtain ⟨start, hsome, hstart'⟩ := h.suffix a hlt fun i hi hi' => hrun i hi (by omega)
      exact (hstart start hsome).trans_le hstart'
    · exact hle.trans hge
  · intro a n hn hrun
    rcases Nat.lt_or_ge index (a + n) with hlt | hge
    · -- It ends at the zero.
      refine .inr ⟨_, rfl, ?_⟩
      rcases Nat.lt_or_ge a index with ha | ha
      · obtain ⟨start, hsome, hstart'⟩ := h.suffix a ha fun i hi hi' => hrun i hi (by omega)
        exact (hstart start hsome).trans_le hstart'
      · exact hle.trans ha
    · exact (h.longest a n hge hrun).imp_right fun ⟨start, hsome, hstart'⟩ =>
        ⟨_, rfl, (hstart start hsome).trans_le hstart'⟩
  · intro hpos a ha hrun
    rcases Nat.lt_or_ge index (a + runs.bestLength) with hlt | hge
    · have hwithin := h.within
      simp only
      omega
    · exact h.first hpos a hge hrun

theorem close (h : Found groups index runs) :
    (runs.close index).runStart = none ∧ (runs.close index).bestStart + (runs.close index).bestLength ≤ index ∧
      IsRun groups (runs.close index).bestStart (runs.close index).bestLength ∧
      (∀ a n, a + n ≤ index → IsRun groups a n → n ≤ (runs.close index).bestLength) ∧
      (0 < (runs.close index).bestLength → ∀ a, a + (runs.close index).bestLength ≤ index →
        IsRun groups a (runs.close index).bestLength → (runs.close index).bestStart ≤ a) := by
  unfold ZeroRuns.close
  split
  · next hnone =>
    refine ⟨hnone, h.within, h.best, fun a n hn hrun => ?_, h.first⟩
    obtain hle | ⟨start, hsome, -⟩ := h.longest a n hn hrun
    · exact hle
    · rw [hnone] at hsome
      cases hsome
  · next start hsome =>
    obtain ⟨hle, hcurrent⟩ := h.current start hsome
    have hlongest : ∀ a n, a + n ≤ index → IsRun groups a n → n ≤ runs.bestLength ∨ start ≤ a := by
      intro a n hn hrun
      refine (h.longest a n hn hrun).imp_right ?_
      rintro ⟨start', hsome', hle'⟩
      rw [hsome] at hsome'
      cases hsome'
      exact hle'
    split
    · next hlonger =>
      refine ⟨rfl, by simp only; omega, hcurrent, fun a n hn hrun => ?_, fun _ a ha hrun => ?_⟩
      · rcases hlongest a n hn hrun with hshort | hstart
        · exact hshort.trans hlonger.le
        · simp only
          omega
      · exact (hlongest a _ ha hrun).resolve_left (Nat.not_le.mpr hlonger)
    · next hshorter =>
      refine ⟨rfl, h.within, h.best, fun a n hn hrun => ?_, h.first⟩
      rcases hlongest a n hn hrun with hshort | hstart
      · exact hshort
      · simp only
        omega

theorem nonzero (h : Found groups index runs) (hne : groups[index]? ≠ some 0) :
    Found groups (index + 1) (runs.close index) := by
  obtain ⟨hnone, hwithin, hbest, hlongest, hfirst⟩ := h.close
  -- No run reaches over the group.
  have hends : ∀ a n, a + n ≤ index + 1 → 0 < n → IsRun groups a n → a + n ≤ index := by
    intro a n hn hpos hrun
    by_contra hgt
    exact hne (hrun index (by omega) (by omega))
  refine ⟨hwithin.trans (Nat.le_succ _), hbest, fun start hsome => ?_, fun a ha hrun => ?_, fun a n hn hrun => ?_,
    fun hpos a ha hrun => hfirst hpos a (hends a _ ha hpos hrun) hrun⟩
  · rw [hnone] at hsome
    cases hsome
  · have hle := hends a (index + 1 - a) (by omega) (by omega) hrun
    omega
  · rcases Nat.eq_zero_or_pos n with rfl | hpos
    · exact .inl (Nat.zero_le _)
    · exact .inl (hlongest a n (hends a n hn hpos hrun) hrun)

theorem loop (h : Found groups index runs) (rest : List Nat) (hrest : groups.drop index = rest)
    (hindex : index + rest.length = groups.length) :
    ∃ final, Found groups groups.length final ∧ zeroRuns rest index runs = final.close groups.length := by
  induction rest generalizing index runs with
  | nil =>
    obtain rfl : index = groups.length := by simpa using hindex
    exact ⟨runs, h, rfl⟩
  | cons hextet rest ih =>
    have hget : groups[index]? = some hextet := by
      rw [← Nat.add_zero index, ← List.getElem?_drop, hrest, List.getElem?_cons_zero]
    have hdrop : groups.drop (index + 1) = rest := by
      rw [← List.drop_drop, hrest, List.drop_one, List.tail_cons]
    have hlength : index + 1 + rest.length = groups.length := by
      rw [← hindex, List.length_cons, Nat.add_assoc, Nat.add_comm 1]
    rw [zeroRuns]
    split
    · next hzero => exact ih (h.zero (hget.trans (congrArg some hzero))) hdrop hlength
    · next hne => exact ih (h.nonzero fun hzero => hne (Option.some.inj (hget.symm.trans hzero))) hdrop hlength

end Found

/-- The text of groups is their canonical one. -/
theorem canonical_formatIpv6 (groups : List Nat) : Canonical groups (formatIpv6 groups) := by
  obtain ⟨final, hfound, heq⟩ := Found.loop (Found.start : Found groups 0 ⟨0, 0, none⟩) groups rfl (Nat.zero_add _)
  obtain ⟨-, hwithin, hbest, hlongest, hfirst⟩ := hfound.close
  rw [← heq] at hwithin hbest hlongest hfirst
  have hlong : ∀ head n tail, groups = head ++ List.replicate n 0 ++ tail →
      head.length + n ≤ groups.length ∧ n ≤ (zeroRuns groups 0 ⟨0, 0, none⟩).bestLength := by
    intro head n tail h
    have hle : head.length + n ≤ groups.length := by
      rw [h]
      simp
    exact ⟨hle, hlongest _ n hle (isRun_of_append h)⟩
  simp only [formatIpv6]
  split
  · next hshort =>
    refine .full fun head tail h => ?_
    have htwo := (hlong head 2 tail (by simpa [List.replicate] using h)).2
    omega
  · next hlonger =>
    refine .elided _ _ _ (hbest.append hwithin) (Nat.le_of_not_lt hlonger) (fun head n tail h => (hlong head n tail h).2) ?_
    intro head tail h
    rw [List.length_take_of_le (by omega)]
    exact hfirst (by omega) _ (hlong head _ tail h).1 (isRun_of_append h)

/-! ## The rewritten range -/

theorem length_maskGroups (groups : List Nat) (bitsPerGroup prefixLength : Nat) :
    (maskGroups groups bitsPerGroup prefixLength).length = groups.length := by
  simp [maskGroups]

theorem maskGroups_lt {groups : List Nat} {bitsPerGroup prefixLength g : Nat}
    (h : g ∈ maskGroups groups bitsPerGroup prefixLength) : g < 2 ^ bitsPerGroup := by
  have hpos : 0 < 2 ^ bitsPerGroup := Nat.pow_pos (by decide)
  simp only [maskGroups, List.mem_mapIdx] at h
  obtain ⟨index, hindex, rfl⟩ := h
  split
  · exact hpos
  · refine (Nat.and_le_right.trans Nat.and_le_right).trans_lt ?_
    rw [Nat.one_shiftLeft]
    exact Nat.sub_lt hpos Nat.one_pos

theorem AddressText.length {quadAhead : Bool} {type : IpType} {text : List Char} {groups : List Nat}
    (h : AddressText quadAhead type text groups) : groups.length = if type = .ipv4 then 4 else 8 := by
  cases h with
  | ipv4 a => exact a.length
  | ipv6 h =>
    cases h with
    | full h eight => exact eight
    | elided hhead htail fewer =>
      simp only [List.length_append, List.length_replicate, reduceCtorEq, if_false]
      omega

theorem RangeText.bounds {quadAhead : Bool} {value : List Char} {r : ParsedIpRange} (h : RangeText quadAhead value r) :
    r.groups.length = (if r.type = .ipv4 then 4 else 8) ∧ r.prefixLength ≤ maximumPrefix r.type := by
  cases h with
  | address h => exact ⟨h.length, le_rfl⟩
  | network h n hn => exact ⟨h.length, hn⟩

theorem rangeText_formatRange {quadAhead : Bool} {type : IpType} {text : List Char} {groups : List Nat} {n : Nat}
    (h : AddressText quadAhead type text groups) (hn : n ≤ maximumPrefix type) :
    RangeText quadAhead (formatRange text n (maximumPrefix type)) ⟨text, groups, n, type⟩ := by
  unfold formatRange
  split
  · next heq =>
    rw [heq]
    exact .address h
  · exact .network h n hn

theorem quadHextets_octets {high low : Nat} :
    quadHextets [high >>> 8, high &&& 0xff, low >>> 8, low &&& 0xff] = [high, low] := by
  have hjoin : ∀ n : Nat, n >>> 8 <<< 8 ||| n &&& 0xff = n := by
    intro n
    have hlow : n &&& 0xff = n % 2 ^ 8 := Nat.and_two_pow_sub_one_eq_mod n 8
    rw [hlow, ← Nat.shiftLeft_add_eq_or_of_lt (Nat.mod_lt n (by decide)), Nat.shiftLeft_eq, Nat.shiftRight_eq_div_pow]
    omega
  simp only [quadHextets, hjoin]

theorem groups_of_mapped {groups : List Nat} (hlength : groups.length = 8) (h : isIpv4Mapped groups = true) :
    groups = List.replicate 5 0 ++ 0xffff :: [groups.getD 6 0, groups.getD 7 0] := by
  simp only [isIpv4Mapped, Bool.and_eq_true, List.all_eq_true, decide_eq_true_eq] at h
  obtain ⟨hzeros, hffff⟩ := h
  have hfive : groups.take 5 = List.replicate 5 0 :=
    List.eq_replicate_iff.mpr ⟨by simp [hlength], hzeros⟩
  have hdrop : groups.drop 5 = 0xffff :: [groups.getD 6 0, groups.getD 7 0] := by
    obtain ⟨hlt, hget⟩ := List.getElem?_eq_some_iff.mp hffff
    rw [List.drop_eq_getElem_cons hlt, hget, List.drop_eq_getElem_cons (by omega), List.drop_eq_getElem_cons (by omega),
      List.drop_eq_nil_of_le (by omega), List.getD_eq_getElem?_getD, List.getD_eq_getElem?_getD,
      List.getElem?_eq_getElem (by omega), List.getElem?_eq_getElem (by omega), Option.getD_some, Option.getD_some]
  rw [← hfive, ← hdrop, List.take_append_drop]

/-- The range that an entry is rewritten to: its own with the address cut to the prefix, or the IPv4 range of which it is
the mapped one. -/
inductive Rewritten (r : ParsedIpRange) : ParsedIpRange → Prop
  | cut (address : List Char) :
      Rewritten r ⟨address, maskGroups r.groups (if r.type = .ipv4 then 8 else 16) r.prefixLength, r.prefixLength, r.type⟩
  | mapped (address : List Char) {octets : List Nat} (htype : r.type = .ipv6) (hwidth : 96 ≤ r.prefixLength)
      (hgroups : maskGroups r.groups 16 r.prefixLength = List.replicate 5 0 ++ 0xffff :: quadHextets octets) :
      Rewritten r ⟨address, octets, r.prefixLength - 96, .ipv4⟩

/-- What the parser accepts is rewritten to what it accepts, as the same range. -/
theorem canonicalize_range {value : String} {r : ParsedIpRange} (h : parseIpRange value.toList = some r) :
    ∃ text r', canonicalizeIpAllowlistEntry value = some text ∧ parseIpRange text.toList = some r' ∧ Rewritten r r' := by
  obtain ⟨hlength, hwidth⟩ := (parseIpRange_iff.mp h).bounds
  have hparsed {text : List Char} {r' : ParsedIpRange} (ht : RangeText false text r') :
      parseIpRange (String.ofList text).toList = some r' := by
    rw [String.toList_ofList]
    exact parseIpRange_iff.mpr ht.mono
  obtain ⟨address, groups, n, type⟩ := r
  simp only [canonicalizeIpAllowlistEntry, h, Option.map_some]
  cases type with
  | ipv4 =>
    let masked : Ipv4 :=
      ⟨maskGroups groups 8 n, (length_maskGroups _ _ _).trans hlength, fun g hg => maskGroups_lt hg⟩
    exact ⟨_, _, rfl, hparsed (rangeText_formatRange (.ipv4 masked) hwidth), .cut _⟩
  | ipv6 =>
    have hmasked : (maskGroups groups 16 n).length = 8 := (length_maskGroups _ _ _).trans hlength
    simp only
    split
    · next hmapped =>
      have hgroups := groups_of_mapped hmasked hmapped.2
      set high := (maskGroups groups 16 n).getD 6 0
      set low := (maskGroups groups 16 n).getD 7 0
      have hlt : ∀ m ∈ [high, low], m < 2 ^ 16 := by
        intro m hm
        have hmem : m ∈ maskGroups groups 16 n := by
          rw [hgroups]
          exact List.mem_append_right _ (List.mem_cons_of_mem _ hm)
        exact maskGroups_lt hmem
      have hhigh := hlt high (by simp)
      have hlow := hlt low (by simp)
      have hoctet : ∀ m : Nat, m &&& 0xff < 256 := fun m => Nat.and_le_right.trans_lt (by decide)
      have hshift : ∀ m < 2 ^ 16, m >>> 8 < 256 := by
        intro m hm
        rw [Nat.shiftRight_eq_div_pow]
        omega
      let octets : Ipv4 := ⟨[high >>> 8, high &&& 0xff, low >>> 8, low &&& 0xff], rfl, by
        simpa using ⟨hshift high hhigh, hoctet high, hshift low hlow, hoctet low⟩⟩
      have hle : n - 96 ≤ maximumPrefix .ipv4 := Nat.sub_le_of_le_add hwidth
      exact ⟨_, _, rfl, hparsed (rangeText_formatRange (.ipv4 octets) hle),
        .mapped _ rfl hmapped.1 (hgroups.trans (by rw [quadHextets_octets]))⟩
    · have htext : Ipv6Grammar false (formatIpv6 (maskGroups groups 16 n)) (maskGroups groups 16 n) :=
        (canonical_formatIpv6 _).grammar hmasked fun g hg => maskGroups_lt hg
      exact ⟨_, _, rfl, hparsed (rangeText_formatRange (.ipv6 htext) hwidth), .cut _⟩

end Sdp.IpAllowlist
