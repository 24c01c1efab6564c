import Mathlib.Algebra.BigOperators.Group.List.Basic
import Mathlib.Algebra.Order.Field.Rat
import Mathlib.Tactic.NormNum
import Mathlib.Tactic.Ring
import Sdp.Amount
import Sdp.BatchRows
import Sdp.Code.BatchChunks
import Sdp.Lib.Checks
import Sdp.Lib.Packing

/-!
# The chunks of a batch are a greedy packing

The loop cuts the groups into parts that are as long as they can be, and adds up the amounts of each.
-/

open Sdp.Amount Sdp.Issuance Sdp.Lib

namespace Sdp.Chunks

/-! ## The value of an amount -/

theorem plainDecimal_format (n decimals : Nat) : plainDecimal (formatDecimalAmount n decimals) = true := by
  obtain ⟨whole, fraction, htext, hne, hwhole, hfraction, -, -⟩ := formatDecimalAmount_spec n decimals
  rw [htext, plainDecimal, String.toList_ofList]
  by_cases hnil : fraction = []
  · simp only [if_pos hnil, List.splitOn_eq_singleton (dot_notMem_digits hwhole)]
    simpa [hne] using hwhole
  · simp only [if_neg hnil, List.splitOn_append_cons_self_of_not_mem (dot_notMem_digits hwhole),
      List.splitOn_eq_singleton (dot_notMem_digits hfraction)]
    simpa [hne, hnil] using ⟨hwhole, hfraction⟩

/-! ## Sums -/

variable {fp : FixedPoints}

theorem isDecimalString_format (units decimals : Nat) : isDecimalString (formatDecimalAmount units decimals) = true := by
  obtain ⟨whole, fraction, htext, hne, hwhole, hfraction, -, -⟩ := formatDecimalAmount_spec units decimals
  exact htext ▸ isDecimalString_digits hne hwhole hfraction

theorem parseAmount_eq (fp : FixedPoints) {units decimals scale raw : Nat}
    (h : parseDecimalAmount (formatDecimalAmount units decimals) scale = .ok raw) :
    parseAmount fp (formatDecimalAmount units decimals) scale =
      if raw < 2 ^ 128 then .ok raw else .error .fixedPoint := by
  have hd := isDecimalString_format units decimals
  simp only [parseAmount, trim_decimal _ hd, String.ofList_toList, hd, Bool.not_true, Bool.false_eq_true, if_false,
    fp.read_plain _ _ _ (plainDecimal_format units decimals) h]
  by_cases hbits : raw < 2 ^ 128
  · rw [if_pos hbits, if_pos hbits]
  · rw [if_neg hbits, if_neg hbits]

theorem decimalValue_of_parseAmount {units decimals scale raw : Nat}
    (hscale : decimalScale (formatDecimalAmount units decimals) ≤ scale)
    (h : parseAmount fp (formatDecimalAmount units decimals) scale = .ok raw) :
    decimalValue (formatDecimalAmount units decimals) = raw / 10 ^ scale := by
  obtain ⟨raw', hraw⟩ := parseDecimalAmount_ok _ _ (isDecimalString_format units decimals) hscale
  rw [parseAmount_eq fp hraw] at h
  split at h <;> cases h
  exact decimalValue_of_parse hraw

/-- Amounts as `resolveRecipients` makes them for a token with so many decimals. -/
def Formatted (decimals : Nat) (amounts : List String) : Prop :=
  ∀ amount ∈ amounts, ∃ units, amount = formatDecimalAmount units decimals

theorem addAll_eq_ok {total result : Nat} {values : List Nat} (h : addAll fp total values = .ok result) :
    result = total + values.sum := by
  induction values generalizing total with
  | nil =>
    cases h
    rfl
  | cons value values ih =>
    simp only [addAll, fp.add_eq] at h
    split at h
    · next total' hadd =>
      split at hadd <;> cases hadd
      rw [ih h, List.sum_cons, Nat.add_assoc]
    · cases h

theorem le_foldl_scale {amounts : List String} {scale : Nat} :
    scale ≤ amounts.foldl (fun scale amount => max scale (decimalScale amount)) scale ∧
      ∀ amount ∈ amounts,
        decimalScale amount ≤ amounts.foldl (fun scale amount => max scale (decimalScale amount)) scale := by
  induction amounts generalizing scale with
  | nil => exact ⟨le_rfl, nofun⟩
  | cons amount amounts ih =>
    obtain ⟨hscale, hamounts⟩ := @ih (max scale (decimalScale amount))
    refine ⟨(le_max_left _ _).trans hscale, fun a ha => ?_⟩
    rcases List.mem_cons.mp ha with rfl | ha
    · exact (le_max_right _ _).trans hscale
    · exact hamounts a ha

theorem sum_of_mapM {decimals scale : Nat} {amounts : List String} {values : List Nat}
    (hformatted : Formatted decimals amounts) (hscale : ∀ amount ∈ amounts, decimalScale amount ≤ scale)
    (h : amounts.mapM (parseAmount fp · scale) = .ok values) :
    (amounts.map decimalValue).sum = (values.sum : ℚ) / 10 ^ scale := by
  induction amounts generalizing values with
  | nil =>
    cases h
    simp
  | cons amount amounts ih =>
    rw [List.mapM_cons] at h
    obtain ⟨value, hvalue, h⟩ := bind_eq_ok.mp h
    obtain ⟨values', hvalues, h⟩ := bind_eq_ok.mp h
    cases h
    obtain ⟨units, rfl⟩ := hformatted amount List.mem_cons_self
    rw [List.map_cons, List.sum_cons,
      ih (fun a ha => hformatted a (List.mem_cons_of_mem _ ha)) (fun a ha => hscale a (List.mem_cons_of_mem _ ha)) hvalues,
      decimalValue_of_parseAmount (hscale _ List.mem_cons_self) hvalue, List.sum_cons, Nat.cast_add, add_div]

theorem sumDecimalAmounts_value {decimals : Nat} {amounts : List String} {total : String}
    (hformatted : Formatted decimals amounts) (h : sumDecimalAmounts fp amounts = .ok total) :
    decimalValue total = (amounts.map decimalValue).sum := by
  unfold sumDecimalAmounts at h
  obtain ⟨values, hvalues, h⟩ := bind_eq_ok.mp h
  have hscale : ∀ amount ∈ amounts, decimalScale amount ≤ largestScale amounts := le_foldl_scale.2
  rw [sum_of_mapM hformatted hscale hvalues]
  cases values with
  | nil =>
    cases h
    have hzero : parseDecimalAmount "0" 0 = .ok 0 := by rfl
    simp [decimalValue_of_parse hzero]
  | cons value values =>
    obtain ⟨raw, hraw, h⟩ := bind_eq_ok.mp h
    cases h
    rw [decimalValue_of_parse (fp.write_exact _ _), addAll_eq_ok hraw, List.sum_cons]

theorem addAll_ok {total : Nat} {values : List Nat} (h : total + values.sum < 2 ^ 128) :
    addAll fp total values = .ok (total + values.sum) := by
  induction values generalizing total with
  | nil => rfl
  | cons value values ih =>
    rw [List.sum_cons, ← Nat.add_assoc] at h ⊢
    have hadd : total + value < 2 ^ 128 := (Nat.le_add_right _ _).trans_lt h
    simp only [addAll, fp.add_eq, if_pos hadd]
    exact ih h

theorem largestScale_le {amounts : List String} {decimals : Nat} (h : ∀ amount ∈ amounts, decimalScale amount ≤ decimals) :
    largestScale amounts ≤ decimals := by
  have hfold : ∀ scale ≤ decimals,
      amounts.foldl (fun scale amount => max scale (decimalScale amount)) scale ≤ decimals := by
    induction amounts with
    | nil => exact fun scale hscale => hscale
    | cons amount amounts ih =>
      intro scale hscale
      exact ih (fun a ha => h a (List.mem_cons_of_mem _ ha)) _ (max_le hscale (h amount List.mem_cons_self))
  exact hfold 0 (Nat.zero_le _)

theorem parseAmount_format (fp : FixedPoints) {units decimals scale : Nat}
    (hscale : decimalScale (formatDecimalAmount units decimals) ≤ scale)
    (hle : scale ≤ decimals) (hunits : units < 2 ^ 64) :
    ∃ raw ≤ units, parseAmount fp (formatDecimalAmount units decimals) scale = .ok raw := by
  have hd := isDecimalString_format units decimals
  obtain ⟨raw, hraw⟩ := parseDecimalAmount_ok _ _ hd hscale
  have hle : raw ≤ units := by
    obtain ⟨-, hvalue⟩ := parseDecimalAmount_value hd hraw
    obtain ⟨-, hunits⟩ := parseDecimalAmount_value hd (parseDecimalAmount_format units decimals)
    refine hvalue.le.trans (le_trans ?_ hunits.ge)
    exact Nat.mul_le_mul_left _ (Nat.pow_le_pow_right (show 0 < 10 by decide) (Nat.sub_le_sub_right hle _))
  have hbits : raw < 2 ^ 128 := (hle.trans_lt hunits).trans (by decide)
  exact ⟨raw, hle, by rw [parseAmount_eq fp hraw, if_pos hbits]⟩

variable {decimals : Nat} {Instruction : Type}

theorem formatted_amounts (groups : List (RecipientInstructionGroup decimals Instruction)) :
    Formatted decimals (groups.map (·.amount)) := by
  intro amount hamount
  obtain ⟨group, -, rfl⟩ := List.mem_map.mp hamount
  exact ⟨_, group.formatted⟩

theorem sumDecimalAmounts_ok (fp : FixedPoints) {groups : List (RecipientInstructionGroup decimals Instruction)}
    (hlength : groups.length < 2 ^ 32) : ∃ total, sumDecimalAmounts fp (groups.map (·.amount)) = .ok total := by
  have hscale : largestScale (groups.map (·.amount)) ≤ decimals := by
    refine largestScale_le fun amount hamount => ?_
    obtain ⟨group, -, rfl⟩ := List.mem_map.mp hamount
    rw [group.formatted]
    exact scale_of_parse (parseDecimalAmount_format _ _)
  have hparse : ∀ l ⊆ groups, ∃ values, (l.map (·.amount)).mapM (parseAmount fp · (largestScale (groups.map (·.amount)))) =
      .ok values ∧ values.sum ≤ l.length * 2 ^ 64 := by
    intro l hl
    induction l with
    | nil => exact ⟨[], rfl, Nat.zero_le _⟩
    | cons group l ih =>
      obtain ⟨values, hvalues, hsum⟩ := ih fun g hg => hl (List.mem_cons_of_mem _ hg)
      have hmem : group.amount ∈ groups.map (·.amount) := List.mem_map_of_mem (hl List.mem_cons_self)
      obtain ⟨raw, hle, hraw⟩ := parseAmount_format fp (group.formatted ▸ le_foldl_scale.2 _ hmem) hscale group.encoded
      refine ⟨raw :: values, ?_, ?_⟩
      · rw [List.map_cons, List.mapM_cons, hvalues, group.formatted]
        exact bind_eq_ok.mpr ⟨raw, hraw, rfl⟩
      · have hbits := hle.trans group.encoded.le
        rw [List.sum_cons, List.length_cons, Nat.add_mul, Nat.one_mul]
        omega
  obtain ⟨values, hvalues, hsum⟩ := hparse groups (List.Subset.refl _)
  unfold sumDecimalAmounts
  cases values with
  | nil => exact ⟨"0", bind_eq_ok.mpr ⟨[], hvalues, rfl⟩⟩
  | cons value values =>
    have hbits : value + values.sum < 2 ^ 128 := by
      rw [List.sum_cons] at hsum
      omega
    exact ⟨_, bind_eq_ok.mpr ⟨_, hvalues, bind_eq_ok.mpr ⟨_, addAll_ok hbits, rfl⟩⟩⟩

/-! ## The loop -/

section Loop

variable {fits : List (RecipientInstructionGroup decimals Instruction) → Bool} {max : Nat}
  {parts : List (List (RecipientInstructionGroup decimals Instruction))}
  {groups pending : List (RecipientInstructionGroup decimals Instruction)} {chunks result : List TransactionChunk}

/-- The chunk of a part. -/
def Built (fp : FixedPoints) (part : List (RecipientInstructionGroup decimals Instruction)) (chunk : TransactionChunk) :
    Prop :=
  buildCandidateChunk fp part = .ok chunk

theorem built_of_flush (hchunks : List.Forall₂ (Built fp) parts chunks)
    (h : flush fp fits chunks pending = .ok result) :
    ∃ parts', Batches.flush fits parts pending = some parts' ∧ List.Forall₂ (Built fp) parts' result := by
  unfold flush at h
  unfold Batches.flush
  cases pending with
  | nil =>
    cases h
    exact ⟨parts, rfl, hchunks⟩
  | cons group pending =>
    obtain ⟨chunk, hchunk, h⟩ := bind_eq_ok.mp h
    obtain ⟨_, hassert, h⟩ := bind_eq_ok.mp h
    cases h
    unfold assertTransactionFits at hassert
    split at hassert
    · next hfits =>
      refine ⟨_, by rw [if_neg (List.cons_ne_nil _ _), if_pos hfits], ?_⟩
      exact List.rel_append hchunks (.cons hchunk .nil)
    · cases hassert

/-- The loop makes the chunks of the parts that `Batches.chunkLoop` makes. -/
theorem built_of_loop (hchunks : List.Forall₂ (Built fp) parts chunks)
    (h : chunkLoop fp fits max groups chunks pending = .ok result) :
    ∃ parts', Batches.chunkLoop fits max groups parts pending = some parts' ∧
      List.Forall₂ (Built fp) parts' result := by
  induction groups generalizing parts chunks pending with
  | nil => exact built_of_flush hchunks h
  | cons group groups ih =>
    obtain ⟨chunks₁, hflush, h⟩ := bind_eq_ok.mp h
    obtain ⟨_, -, h⟩ := bind_eq_ok.mp h
    obtain ⟨parts₁, hparts₁, hchunks₁⟩ : ∃ parts₁,
        (bif decide (max ≤ pending.length) then Batches.flush fits parts pending else some parts) = some parts₁ ∧
          List.Forall₂ (Built fp) parts₁ chunks₁ := by
      cases hfull : decide (max ≤ pending.length) with
      | true =>
        rw [hfull] at hflush
        exact built_of_flush hchunks hflush
      | false =>
        rw [hfull] at hflush
        cases hflush
        exact ⟨parts, rfl, hchunks⟩
    simp only [Batches.chunkLoop, hparts₁, Option.bind_some]
    split at h
    · next hfits =>
      rw [if_pos hfits]
      exact ih hchunks₁ h
    · next hfits =>
      rw [if_neg hfits]
      obtain ⟨chunks₂, hflush₂, h⟩ := bind_eq_ok.mp h
      obtain ⟨chunk, -, h⟩ := bind_eq_ok.mp h
      obtain ⟨_, hassert, h⟩ := bind_eq_ok.mp h
      obtain ⟨parts₂, hparts₂, hchunks₂⟩ := built_of_flush hchunks₁ hflush₂
      rw [hparts₂, Option.bind_some]
      unfold assertTransactionFits at hassert
      split at hassert
      · next hsingle =>
        rw [if_pos hsingle]
        exact ih hchunks₂ h
      · cases hassert

theorem built_of_length (fp : FixedPoints) (hlength : pending.length < 2 ^ 32) : ∃ chunk, Built fp pending chunk := by
  obtain ⟨total, htotal⟩ := sumDecimalAmounts_ok fp hlength
  exact ⟨_, bind_eq_ok.mpr ⟨total, htotal, rfl⟩⟩

theorem flush_ok (fp : FixedPoints) (hlength : pending.length < 2 ^ 32) (chunks : List TransactionChunk)
    {parts' : List (List (RecipientInstructionGroup decimals Instruction))}
    (h : Batches.flush fits parts pending = some parts') : ∃ result, flush fp fits chunks pending = .ok result := by
  unfold Batches.flush at h
  unfold flush
  cases pending with
  | nil => exact ⟨chunks, rfl⟩
  | cons group pending =>
    rw [if_neg (List.cons_ne_nil _ _)] at h
    split at h
    · next hfits =>
      obtain ⟨chunk, hchunk⟩ := built_of_length fp hlength
      refine ⟨chunks ++ [chunk], bind_eq_ok.mpr ⟨chunk, hchunk, bind_eq_ok.mpr ⟨(), ?_, rfl⟩⟩⟩
      rw [assertTransactionFits, if_pos hfits]
    · cases h

theorem loop_ok (hlength : pending.length + groups.length < 2 ^ 32)
    {parts' : List (List (RecipientInstructionGroup decimals Instruction))}
    (h : Batches.chunkLoop fits max groups parts pending = some parts') :
    ∃ result, chunkLoop fp fits max groups chunks pending = .ok result := by
  induction groups generalizing parts chunks pending with
  | nil => exact flush_ok fp hlength chunks h
  | cons group groups ih =>
    rw [List.length_cons] at hlength
    simp only [Batches.chunkLoop, Option.bind_eq_some_iff] at h
    obtain ⟨parts₁, hparts₁, h⟩ := h
    have hpending : (bif decide (max ≤ pending.length) then [] else pending).length ≤ pending.length := by
      cases decide (max ≤ pending.length)
      · exact le_rfl
      · exact Nat.zero_le _
    obtain ⟨chunks₁, hflush⟩ : ∃ chunks₁,
        (bif decide (max ≤ pending.length) then flush fp fits chunks pending else .ok chunks) = .ok chunks₁ := by
      cases hfull : decide (max ≤ pending.length) with
      | true =>
        rw [hfull] at hparts₁
        exact flush_ok fp (by omega) chunks hparts₁
      | false => exact ⟨chunks, rfl⟩
    simp only [chunkLoop, hflush, bind, Except.bind]
    generalize (bif decide (max ≤ pending.length) then [] else pending) = before at h hpending ⊢
    have hbefore : (before ++ [group]).length + groups.length < 2 ^ 32 := by
      rw [List.length_append, List.length_singleton]
      omega
    have hsingle : [group].length + groups.length < 2 ^ 32 := by
      rw [List.length_singleton]
      omega
    obtain ⟨candidate, hcandidate⟩ := built_of_length fp (Nat.lt_of_le_of_lt (Nat.le_add_right _ _) hbefore)
    obtain ⟨chunk, hchunk⟩ := built_of_length fp (Nat.lt_of_le_of_lt (Nat.le_add_right _ _) hsingle)
    rw [show buildCandidateChunk fp (before ++ [group]) = .ok candidate from hcandidate]
    dsimp only
    split at h
    · next hfits =>
      rw [if_pos hfits]
      exact ih hbefore h
    · next hfits =>
      rw [if_neg hfits]
      obtain ⟨parts₂, hparts₂, h⟩ := Option.bind_eq_some_iff.mp h
      obtain ⟨chunks₂, hchunks₂⟩ := flush_ok fp (by omega) chunks₁ hparts₂
      rw [hchunks₂]
      dsimp only
      rw [show buildCandidateChunk fp [group] = .ok chunk from hchunk]
      dsimp only
      split at h
      · next hone =>
        rw [assertTransactionFits, if_pos hone]
        exact ih hsingle h
      · cases h

/-! ## Greed -/

/-- What a part may be. -/
def Good (fits : List (RecipientInstructionGroup decimals Instruction) → Bool) (max : Nat)
    (part : List (RecipientInstructionGroup decimals Instruction)) : Prop :=
  part.length ≤ max ∧ fits part = true

/-- What is packed, with what is pending. -/
def Packed (fits : List (RecipientInstructionGroup decimals Instruction) → Bool) (max : Nat)
    (parts : List (List (RecipientInstructionGroup decimals Instruction)))
    (pending : List (RecipientInstructionGroup decimals Instruction)) : Prop :=
  pending = [] ∧ parts = [] ∨ pending ≠ [] ∧ Packing (Good fits max) (parts ++ [pending])

theorem packing_of_flush (h : Packed fits max parts pending)
    {parts' : List (List (RecipientInstructionGroup decimals Instruction))}
    (hflush : Batches.flush fits parts pending = some parts') :
    Packing (Good fits max) parts' ∧ parts' = if pending = [] then [] else parts ++ [pending] := by
  unfold Batches.flush at hflush
  rcases h with ⟨rfl, rfl⟩ | ⟨hne, hpacking⟩
  · cases hflush
    exact ⟨packing_nil, rfl⟩
  · rw [if_neg hne] at hflush ⊢
    split at hflush <;> cases hflush
    exact ⟨hpacking, rfl⟩

theorem packed_next (h : Packed fits max parts pending) {group : RecipientInstructionGroup decimals Instruction}
    {parts' : List (List (RecipientInstructionGroup decimals Instruction))}
    (hflush : Batches.flush fits parts pending = some parts') (hfull : ¬ Good fits max (pending ++ [group]))
    (hgood : Good fits max [group]) : Packed fits max parts' [group] := by
  obtain ⟨-, rfl⟩ := packing_of_flush h hflush
  refine .inr ⟨List.cons_ne_nil _ _, ?_⟩
  rcases h with ⟨rfl, rfl⟩ | ⟨hne, hpacking⟩
  · exact packing_singleton (List.cons_ne_nil _ _) hgood
  · rw [if_neg hne]
    exact hpacking.next hfull hgood

theorem packing_of_loop (hmax : 1 ≤ max) (h : Packed fits max parts pending)
    {parts' : List (List (RecipientInstructionGroup decimals Instruction))}
    (hloop : Batches.chunkLoop fits max groups parts pending = some parts') : Packing (Good fits max) parts' := by
  induction groups generalizing parts pending with
  | nil => exact (packing_of_flush h hloop).1
  | cons group groups ih =>
    simp only [Batches.chunkLoop, Option.bind_eq_some_iff] at hloop
    obtain ⟨parts₁, hparts₁, hloop⟩ := hloop
    have hsingle : fits [group] = true → Good fits max [group] := fun hfits => ⟨hmax, hfits⟩
    by_cases hfull : max ≤ pending.length
    · -- The cap ends the part, whatever the size says.
      have hnot : ¬ Good fits max (pending ++ [group]) := by
        rintro ⟨hlength, -⟩
        rw [List.length_append, List.length_singleton] at hlength
        omega
      rw [decide_eq_true hfull] at hparts₁ hloop
      simp only [cond_true, List.nil_append, Batches.flush, if_true, Option.bind_some] at hparts₁ hloop
      split at hloop
      · next hfits => exact ih (packed_next h hparts₁ hnot (hsingle hfits)) hloop
      · cases hloop
    · rw [decide_eq_false hfull] at hparts₁ hloop
      cases hparts₁
      simp only [cond_false] at hloop
      split at hloop
      · next hfits =>
        have hgood : Good fits max (pending ++ [group]) := by
          refine ⟨?_, hfits⟩
          rw [List.length_append, List.length_singleton]
          omega
        refine ih (.inr ⟨by simp, ?_⟩) hloop
        rcases h with ⟨rfl, rfl⟩ | ⟨-, hpacking⟩
        · exact packing_singleton (by simp) hgood
        · exact hpacking.grow hgood
      · next hfits =>
        obtain ⟨parts₂, hparts₂, hloop⟩ := Option.bind_eq_some_iff.mp hloop
        split at hloop
        · next hone =>
          exact ih (packed_next h hparts₂ (fun hgood => hfits hgood.2) (hsingle hone)) hloop
        · cases hloop

theorem flush_isSome (hpending : pending ≠ [] → fits pending = true)
    (parts : List (List (RecipientInstructionGroup decimals Instruction))) :
    ∃ parts', Batches.flush fits parts pending = some parts' := by
  unfold Batches.flush
  split
  · exact ⟨_, rfl⟩
  · next hne => exact ⟨_, if_pos (hpending hne)⟩

theorem loop_isSome (hsingle : ∀ group ∈ groups, fits [group] = true) (hpending : pending ≠ [] → fits pending = true) :
    ∃ parts', Batches.chunkLoop fits max groups parts pending = some parts' := by
  induction groups generalizing parts pending with
  | nil => exact flush_isSome hpending parts
  | cons group groups ih =>
    have hrest : ∀ g ∈ groups, fits [g] = true := fun g hg => hsingle g (List.mem_cons_of_mem _ hg)
    have hone := hsingle group List.mem_cons_self
    have honly : [group] ≠ [] → fits [group] = true := fun _ => hone
    obtain ⟨parts₁, hparts₁⟩ := flush_isSome hpending parts
    simp only [Batches.chunkLoop, hone, if_true]
    cases hfull : decide (max ≤ pending.length) with
    | true =>
      simp only [cond_true, hparts₁, Option.bind_some, List.nil_append, hone, if_true]
      exact ih hrest honly
    | false =>
      simp only [cond_false, Option.bind_some]
      split
      · next hfits => exact ih hrest fun _ => hfits
      · simp only [hparts₁, Option.bind_some]
        exact ih hrest honly

end Loop

theorem hereditary_good {fits : List (RecipientInstructionGroup decimals Instruction) → Bool}
    (h : Hereditary fun part => fits part = true) (max : Nat) : Hereditary (Good fits max) :=
  fun l l' hsub hgood => ⟨hsub.length_le.trans hgood.1, h l l' hsub hgood.2⟩

theorem indexes_of_built {parts : List (List (RecipientInstructionGroup decimals Instruction))}
    {chunks : List TransactionChunk} (h : List.Forall₂ (Built fp) parts chunks) :
    (chunks.map (·.recipientIndexes)).flatten = parts.flatten.map (·.index) ∧
      (chunks.map fun chunk => decimalValue chunk.amount).sum =
        (parts.flatten.map fun group => decimalValue group.amount).sum := by
  induction h with
  | nil => exact ⟨rfl, rfl⟩
  | @cons part chunk parts chunks hchunk _ ih =>
    obtain ⟨amount, hamount, hchunk⟩ := bind_eq_ok.mp hchunk
    cases hchunk
    have hvalue := sumDecimalAmounts_value (formatted_amounts part) hamount
    rw [List.map_map] at hvalue
    constructor
    · rw [List.map_cons, List.flatten_cons, List.flatten_cons, List.map_append, ih.1]
    · rw [List.map_cons, List.sum_cons, ih.2, List.flatten_cons, List.map_append, List.sum_append]
      exact congrArg (· + _) hvalue

/-- The chunks are the groups in their order, each within the cap and the size and with the sum of its amounts. When
what fits still fits with less in it, there are chunks if each group fits by itself, and never more than needed. -/
theorem chunks_packed (fp : FixedPoints) (fits : List (RecipientInstructionGroup decimals Instruction) → Bool)
    (max : Nat) (groups : List (RecipientInstructionGroup decimals Instruction)) (hmax : 1 ≤ max) :
    (∀ chunks, chunkInstructionGroups fp fits max groups = .ok chunks →
      (chunks.map (·.recipientIndexes)).flatten = groups.map (·.index) ∧
        (chunks.map fun chunk => decimalValue chunk.amount).sum =
          (groups.map fun group => decimalValue group.amount).sum ∧
        (∀ total, sumDecimalAmounts fp (groups.map (·.amount)) = .ok total →
          (chunks.map fun chunk => decimalValue chunk.amount).sum = decimalValue total) ∧
        ∃ parts, parts.flatten = groups ∧ List.Forall₂ (Built fp) parts chunks ∧
          ∀ part ∈ parts, part ≠ [] ∧ part.length ≤ max ∧ fits part = true) ∧
    ((Hereditary fun part => fits part = true) →
      -- The longest array has less than 2 ^ 32 entries.
      (groups.length < 2 ^ 32 → ((∃ chunks, chunkInstructionGroups fp fits max groups = .ok chunks) ↔
        ∀ group ∈ groups, fits [group] = true)) ∧
      ∀ chunks, chunkInstructionGroups fp fits max groups = .ok chunks →
        ∀ cut : List (List (RecipientInstructionGroup decimals Instruction)), cut.flatten = groups →
        (∀ part ∈ cut, part ≠ [] → part.length ≤ max ∧ fits part = true) → chunks.length ≤ cut.length) := by
  have hparts : ∀ chunks, chunkInstructionGroups fp fits max groups = .ok chunks →
      ∃ parts, parts.flatten = groups ∧ List.Forall₂ (Built fp) parts chunks ∧ Packing (Good fits max) parts := by
    intro chunks h
    obtain ⟨parts, hparts, hbuilt⟩ := built_of_loop .nil h
    exact ⟨parts, (Batches.chunkInstructionGroups_eq_some hparts).1, hbuilt, packing_of_loop hmax (.inl ⟨rfl, rfl⟩) hparts⟩
  refine ⟨fun chunks h => ?_, fun hhered => ⟨fun hlength => ⟨fun hok group hgroup => ?_, fun hsingle => ?_⟩,
    fun chunks h cut hcut hgood => ?_⟩⟩
  · obtain ⟨parts, rfl, hbuilt, hpacking⟩ := hparts chunks h
    obtain ⟨hindexes, hsum⟩ := indexes_of_built hbuilt
    refine ⟨hindexes, hsum, fun total htotal => ?_, parts, rfl, hbuilt, fun part hpart =>
      ⟨hpacking.nonempty part hpart, hpacking.each part hpart⟩⟩
    rw [hsum, sumDecimalAmounts_value (formatted_amounts _) htotal, List.map_map]
    rfl
  · obtain ⟨chunks, h⟩ := hok
    obtain ⟨parts, rfl, -, hpacking⟩ := hparts chunks h
    obtain ⟨part, hpart, hmem⟩ := List.mem_flatten.mp hgroup
    exact hhered part [group] (List.singleton_sublist.mpr hmem) (hpacking.each part hpart).2
  · obtain ⟨parts, hloop⟩ : ∃ parts, Batches.chunkInstructionGroups fits max groups = some parts :=
      loop_isSome hsingle fun hne => absurd rfl hne
    exact loop_ok (by simpa using hlength) hloop
  · obtain ⟨parts, hflatten, hbuilt, hpacking⟩ := hparts chunks h
    rw [← hbuilt.length_eq]
    refine hpacking.length_le (hereditary_good hhered max) cut hgood ?_
    rw [hflatten, hcut]

/-! ## Three recipients -/

def exactFixedPoints : FixedPoints where
  decimalFixedPoint decimals text := (parseDecimalAmount text decimals).toOption.filter (· < 2 ^ 128)
  addDecimalFixedPoint a b := if a + b < 2 ^ 128 then some (a + b) else none
  decimalFixedPointToString decimals raw := formatDecimalAmount raw decimals
  read_plain _ _ _ _ h := by
    rw [toOption_eq_some.mpr h, Option.filter_some]
    simp
  add_eq _ _ := rfl
  write_exact decimals raw := parseDecimalAmount_format raw decimals

def group (index amountBaseUnits : Nat) (h : amountBaseUnits < 2 ^ 64) : RecipientInstructionGroup 6 Unit where
  index
  amount := formatDecimalAmount amountBaseUnits 6
  amountBaseUnits
  instructions := [()]
  formatted := rfl
  encoded := h

def threeGroups : List (RecipientInstructionGroup 6 Unit) :=
  [group 0 1500000 (by decide), group 1 250000 (by decide), group 2 2000000 (by decide)]

def twoFit (groups : List (RecipientInstructionGroup 6 Unit)) : Bool := groups.length ≤ 2

theorem three_chunked : chunkInstructionGroups exactFixedPoints twoFit 20 threeGroups =
      .ok [⟨[0, 1], "1.75"⟩, ⟨[2], "2"⟩] ∧
    ∀ cut : List (List (RecipientInstructionGroup 6 Unit)), cut.flatten = threeGroups →
      (∀ part ∈ cut, part ≠ [] → part.length ≤ 20 ∧ twoFit part = true) →
      2 ≤ cut.length := by
  have hok : chunkInstructionGroups exactFixedPoints twoFit 20 threeGroups = .ok [⟨[0, 1], "1.75"⟩, ⟨[2], "2"⟩] := by
    rfl
  have hhered : Hereditary fun part => twoFit part = true := fun l l' hsub h =>
    decide_eq_true (hsub.length_le.trans (of_decide_eq_true h))
  exact ⟨hok, ((chunks_packed exactFixedPoints twoFit 20 threeGroups (by decide)).2 hhered).2 _ hok⟩

end Sdp.Chunks
