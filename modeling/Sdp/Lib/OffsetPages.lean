import Mathlib.Data.List.Sort
import Mathlib.Data.List.Count

/-!
# Pages cut from an order with ties

A query returns its rows in an order by a key and may put rows of one key in any order, each time it runs. Pages that
are cut from such orders make up all the rows if no cut falls inside a run of rows with one key.
-/

namespace Sdp.Lib

variable {α κ : Type} [LinearOrder κ]

/-- An order in which a query may return its rows. -/
structure Sorted (key : α → κ) (rows ordered : List α) : Prop where
  perm : ordered.Perm rows
  sorted : ordered.Pairwise fun a b => key a ≤ key b

theorem exists_sorted (key : α → κ) (rows : List α) : ∃ ordered, Sorted key rows ordered := by
  refine ⟨rows.mergeSort fun a b => decide (key a ≤ key b), List.mergeSort_perm _ _, ?_⟩
  have hsorted :
      (rows.mergeSort fun a b => decide (key a ≤ key b)).Pairwise fun a b => decide (key a ≤ key b) = true :=
    List.pairwise_mergeSort (fun a b c hab hbc => by simpa using le_trans (by simpa using hab) (by simpa using hbc))
      (fun a b => by simpa using le_total (key a) (key b)) rows
  exact hsorted.imp (by simp)

/-- The cut after `i` rows goes through the rows of one key. -/
def SplitsTie (key : α → κ) (rows : List α) (i : Nat) : Prop :=
  ∃ k, rows.countP (fun a => key a < k) < i ∧ i < rows.countP fun a => key a ≤ k

/-- The rows of a page. -/
def window (offset limit : Nat) (ordered : List α) : List α := (ordered.drop offset).take limit

/-- The pages between the cuts one after the other, each of its own order. -/
def windows (cut : Nat → Nat) (orders : Nat → List α) (pages : Nat) : List α :=
  (List.range pages).flatMap fun page => window (cut page) (cut (page + 1) - cut page) (orders page)

/-! ## One order -/

theorem take_countP {p : α → Bool} {ordered : List α} (h : ordered.Pairwise fun a b => p b = true → p a = true) :
    ordered.take (ordered.countP p) = ordered.filter p := by
  induction ordered with
  | nil => rfl
  | cons a ordered ih =>
    obtain ⟨hhead, htail⟩ := List.pairwise_cons.mp h
    by_cases ha : p a = true
    · rw [List.countP_cons_of_pos ha, List.take_succ_cons, List.filter_cons_of_pos ha, ih htail]
    · have hnone : ∀ b ∈ ordered, ¬p b = true := fun b hb hpb => ha (hhead b hb hpb)
      rw [List.countP_cons_of_neg ha, List.filter_cons_of_neg ha, List.countP_eq_zero.mpr hnone,
        List.filter_eq_nil_iff.mpr hnone, List.take_zero]

theorem lt_countP_iff {p : α → Bool} {ordered : List α} (h : ordered.Pairwise fun a b => p b = true → p a = true)
    {i : Nat} (hi : i < ordered.length) : i < ordered.countP p ↔ p ordered[i] = true := by
  induction ordered generalizing i with
  | nil => simp at hi
  | cons a ordered ih =>
    obtain ⟨hhead, htail⟩ := List.pairwise_cons.mp h
    by_cases ha : p a = true
    · rw [List.countP_cons_of_pos ha]
      cases i with
      | zero => simp [ha]
      | succ i => simpa using ih htail (by simpa using hi)
    · have hnone : ∀ b ∈ ordered, ¬p b = true := fun b hb hpb => ha (hhead b hb hpb)
      rw [List.countP_cons_of_neg ha, List.countP_eq_zero.mpr hnone]
      have hplace : ¬p (a :: ordered)[i] = true := by
        rcases List.mem_cons.mp (List.getElem_mem hi) with hhere | hlater
        · rwa [hhere]
        · exact hnone _ hlater
      simp [hplace]

section

variable {key : α → κ} {rows ordered : List α}

theorem Sorted.below (h : Sorted key rows ordered) (k : κ) :
    ordered.Pairwise fun a b => decide (key b < k) = true → decide (key a < k) = true :=
  h.sorted.imp fun hle hlt => by simpa using lt_of_le_of_lt hle (by simpa using hlt)

theorem Sorted.upTo (h : Sorted key rows ordered) (k : κ) :
    ordered.Pairwise fun a b => decide (key b ≤ k) = true → decide (key a ≤ k) = true :=
  h.sorted.imp fun hle hle' => by simpa using hle.trans (by simpa using hle')

theorem Sorted.lt_countP_below_iff (h : Sorted key rows ordered) (k : κ) {i : Nat} (hi : i < ordered.length) :
    i < rows.countP (fun a => key a < k) ↔ key ordered[i] < k := by
  rw [← h.perm.countP_eq, lt_countP_iff (h.below k) hi, decide_eq_true_iff]

theorem Sorted.lt_countP_upTo_iff (h : Sorted key rows ordered) (k : κ) {i : Nat} (hi : i < ordered.length) :
    i < rows.countP (fun a => key a ≤ k) ↔ key ordered[i] ≤ k := by
  rw [← h.perm.countP_eq, lt_countP_iff (h.upTo k) hi, decide_eq_true_iff]

theorem Sorted.take_perm {ordered' : List α} (h : Sorted key rows ordered) (h' : Sorted key rows ordered') {i : Nat}
    (hcut : ¬SplitsTie key rows i) : (ordered.take i).Perm (ordered'.take i) := by
  rcases Nat.lt_or_ge i ordered.length with hi | hi
  · have hle : i < rows.countP fun a => key a ≤ key ordered[i] := (h.lt_countP_upTo_iff _ hi).mpr le_rfl
    have hge : ¬i < rows.countP fun a => key a < key ordered[i] := mt (h.lt_countP_below_iff _ hi).mp (lt_irrefl _)
    have hcount : i = rows.countP fun a => key a < key ordered[i] := by
      by_contra hne
      exact hcut ⟨_, by omega, hle⟩
    have hfront : ordered.take i = ordered.filter fun a => key a < key ordered[i] := by
      rw [← take_countP (h.below _), h.perm.countP_eq, ← hcount]
    have hfront' : ordered'.take i = ordered'.filter fun a => key a < key ordered[i] := by
      rw [← take_countP (h'.below _), h'.perm.countP_eq, ← hcount]
    rw [hfront, hfront']
    exact (h.perm.trans h'.perm.symm).filter _
  · have hlength : ordered.length = ordered'.length := (h.perm.trans h'.perm.symm).length_eq
    rw [List.take_of_length_le hi, List.take_of_length_le (hlength ▸ hi)]
    exact h.perm.trans h'.perm.symm

theorem Sorted.window_perm {ordered' : List α} (h : Sorted key rows ordered) (h' : Sorted key rows ordered')
    {first last : Nat} (hle : first ≤ last) (hfirst : ¬SplitsTie key rows first) (hlast : ¬SplitsTie key rows last) :
    (window first (last - first) ordered).Perm (window first (last - first) ordered') := by
  have hsplit : ∀ l : List α, l.take last = l.take first ++ window first (last - first) l := by
    intro l
    rw [window, ← List.take_add, Nat.add_sub_cancel' hle]
  have htake := h.take_perm h' hlast
  rw [hsplit ordered, hsplit ordered'] at htake
  exact (List.perm_append_left_iff _).mp (htake.trans ((h.take_perm h' hfirst).symm.append_right _))

theorem Sorted.exists_swapped (h : Sorted key rows ordered) {i : Nat} (hcut : SplitsTie key rows i) :
    ∃ ordered' a, Sorted key rows ordered' ∧ a ∈ ordered.take i ∧ a ∈ ordered'.drop i := by
  obtain ⟨k, hbelow, hupTo⟩ := hcut
  have hi : i < ordered.length :=
    lt_of_lt_of_le hupTo (List.countP_le_length.trans_eq h.perm.length_eq.symm)
  obtain ⟨i, rfl⟩ := Nat.exists_eq_add_one_of_ne_zero (by omega : i ≠ 0)
  have hfirst : key ordered[i] = k := by
    refine le_antisymm ((h.lt_countP_upTo_iff k (by omega)).mp (by omega)) (not_lt.mp fun hlt => ?_)
    have := (h.lt_countP_below_iff k (by omega)).mpr hlt
    omega
  have hsecond : key ordered[i + 1] = k := by
    refine le_antisymm ((h.lt_countP_upTo_iff k hi).mp hupTo) (not_lt.mp fun hlt => ?_)
    have := (h.lt_countP_below_iff k hi).mpr hlt
    omega
  have hparts : ordered = ordered.take i ++ ordered[i] :: ordered[i + 1] :: ordered.drop (i + 2) := by
    rw [← List.drop_eq_getElem_cons hi, ← List.drop_eq_getElem_cons (by omega), List.take_append_drop]
  refine ⟨ordered.take i ++ ordered[i + 1] :: ordered[i] :: ordered.drop (i + 2), ordered[i], ⟨?_, ?_⟩, ?_, ?_⟩
  · refine List.Perm.trans ?_ h.perm
    conv_rhs => rw [hparts]
    exact (List.Perm.swap _ _ _).append_left _
  · have hsorted := h.sorted
    rw [hparts, List.pairwise_append, List.pairwise_cons, List.pairwise_cons] at hsorted
    rw [List.pairwise_append, List.pairwise_cons, List.pairwise_cons]
    simp only [List.forall_mem_cons, hfirst, hsecond] at hsorted ⊢
    obtain ⟨hfront, ⟨⟨hsame, hrest⟩, hrest', hback⟩, hacross⟩ := hsorted
    refine ⟨hfront, ⟨⟨hsame, hrest'⟩, hrest, hback⟩, fun a ha => ?_⟩
    obtain ⟨hfirst, hsecond, hlater⟩ := hacross a ha
    exact ⟨hsecond, hfirst, hlater⟩
  · rw [← List.take_append_getElem (by omega)]
    exact List.mem_append_right _ List.mem_cons_self
  · have hlength : (ordered.take i ++ [ordered[i + 1]]).length = i + 1 := by
      rw [List.length_append, List.length_take, List.length_singleton, min_eq_left (by omega)]
    rw [List.append_cons, List.drop_left' hlength]
    exact List.mem_cons_self

end

/-! ## The pages -/

section

variable {cut : Nat → Nat}

theorem windows_succ (orders : Nat → List α) (pages : Nat) :
    windows cut orders (pages + 1) =
      windows cut orders pages ++ window (cut pages) (cut (pages + 1) - cut pages) (orders pages) := by
  simp [windows, List.range_succ]

theorem windows_const (hmono : Monotone cut) (hstart : cut 0 = 0) (ordered : List α) (pages : Nat) :
    windows cut (fun _ => ordered) pages = ordered.take (cut pages) := by
  induction pages with
  | zero => simp [windows, hstart]
  | succ pages ih =>
    rw [windows_succ, ih, window, ← List.take_add, Nat.add_sub_cancel' (hmono (Nat.le_succ pages))]

variable {key : α → κ} {rows : List α}

/-- If no cut splits a tie, the pages hold every row as often as it is there. -/
theorem windows_perm (hmono : Monotone cut) (hstart : cut 0 = 0) {pages : Nat} (hend : rows.length ≤ cut pages)
    (hcuts : ∀ page, ¬SplitsTie key rows (cut page)) {orders : Nat → List α}
    (horders : ∀ page, Sorted key rows (orders page)) : (windows cut orders pages).Perm rows := by
  obtain ⟨ordered, hordered⟩ := exists_sorted key rows
  have hsame : ∀ pages, (windows cut orders pages).Perm (windows cut (fun _ => ordered) pages) := by
    intro pages
    induction pages with
    | zero => exact .refl _
    | succ pages ih =>
      rw [windows_succ, windows_succ]
      exact ih.append ((horders pages).window_perm hordered (hmono (Nat.le_succ pages)) (hcuts pages)
        (hcuts (pages + 1)))
  refine (hsame pages).trans ?_
  rw [windows_const hmono hstart, List.take_of_length_le (hordered.perm.length_eq.trans_le hend)]
  exact hordered.perm

/-- If a cut splits a tie, there are orders in which a row comes up on both sides of it. -/
theorem exists_repeated (hmono : Monotone cut) (hstart : cut 0 = 0) {page : Nat}
    (hcut : SplitsTie key rows (cut page)) :
    ∃ orders, (∀ page, Sorted key rows (orders page)) ∧
      ∀ pages, rows.length ≤ cut pages → ¬(windows cut orders pages).Nodup := by
  obtain ⟨ordered, hordered⟩ := exists_sorted key rows
  obtain ⟨ordered', a, hordered', hfront, hback⟩ := hordered.exists_swapped hcut
  refine ⟨fun later => if later < page then ordered else ordered', fun later => ?_, fun pages hend hnodup => ?_⟩
  · dsimp only
    split
    · exact hordered
    · exact hordered'
  · -- Up to the cut the pages are those of the one order, behind it those of the other.
    have hupTo : windows cut (fun later => if later < page then ordered else ordered') page =
        ordered.take (cut page) := by
      rw [← windows_const hmono hstart]
      exact List.flatMap_congr fun later hlater => congrArg (window _ _) (if_pos (List.mem_range.mp hlater))
    have hafter : ∀ more, windows cut (fun later => if later < page then ordered else ordered') (page + more) =
        ordered.take (cut page) ++ window (cut page) (cut (page + more) - cut page) ordered' := by
      intro more
      induction more with
      | zero => simp [hupTo, window]
      | succ more ih =>
        have hle := hmono (Nat.le_add_right page more)
        have hle' : cut (page + more) ≤ cut (page + more + 1) := hmono (Nat.le_succ (page + more))
        rw [← Nat.add_assoc, windows_succ, ih, if_neg (by omega), List.append_assoc, window, window, window,
          show ordered'.drop (cut (page + more)) = (ordered'.drop (cut page)).drop (cut (page + more) - cut page) by
            rw [List.drop_drop, Nat.add_sub_cancel' hle], ← List.take_add]
        congr 2
        omega
    have hpage : page < pages := by
      obtain ⟨k, -, hupTo⟩ := hcut
      exact hmono.reflect_lt (hupTo.trans_le (List.countP_le_length.trans hend))
    obtain ⟨more, rfl⟩ := Nat.exists_eq_add_of_lt hpage
    have hall : window (cut page) (cut (page + (more + 1)) - cut page) ordered' = ordered'.drop (cut page) := by
      rw [window, List.take_of_length_le]
      rw [List.length_drop, hordered'.perm.length_eq]
      exact Nat.sub_le_sub_right hend _
    rw [Nat.add_assoc, hafter, hall] at hnodup
    exact List.disjoint_of_nodup_append hnodup hfront hback

end

theorem flatMap_spliced {first second : Nat → List α} (h : ∀ i j, i < j → second i ≠ [] → first j = []) (pages : Nat) :
    (List.range pages).flatMap (fun j => first j ++ second j) =
      (List.range pages).flatMap first ++ (List.range pages).flatMap second := by
  induction pages with
  | zero => rfl
  | succ pages ih =>
    have hswap : (List.range pages).flatMap second ++ first pages =
        first pages ++ (List.range pages).flatMap second := by
      by_cases hempty : (List.range pages).flatMap second = []
      · simp [hempty]
      · obtain ⟨i, hi, hne⟩ : ∃ i ∈ List.range pages, second i ≠ [] := by
          simpa only [List.flatMap_eq_nil_iff, not_forall, exists_prop] using hempty
        simp [h i pages (List.mem_range.mp hi) hne]
    simp only [List.range_succ, List.flatMap_append, List.flatMap_singleton, ih]
    rw [List.append_assoc, ← List.append_assoc _ (first pages), hswap]
    simp only [List.append_assoc]

end Sdp.Lib
