import Mathlib.Data.Fintype.Card
import Mathlib.Logic.Relation

/-!
# Going through a graph in depth

Every node is checked once, in front of its children. A graph is finite and may share nodes and have cycles: what
bounds the depth is the number of nodes that were not visited.
-/

namespace Sdp.Lib

variable {α ε : Type} [DecidableEq α] (check : α → Except ε Unit) (children : α → List α)

/-- The nodes visited after one more; `none` is that the depth ran out. -/
def visit : Nat → α → Finset α → Except (Option ε) (Finset α)
  | fuel, a, visited =>
    if a ∈ visited then .ok visited
    else match fuel with
      | 0 => .error none
      | fuel + 1 => do
        (check a).mapError some
        (children a).foldlM (fun visited b => visit fuel b visited) (insert a visited)

/-- A node with all that it leads to. -/
abbrev LeadsTo : α → α → Prop := Relation.ReflTransGen fun a b => b ∈ children a

/-- The new nodes passed the check and all their children are visited. -/
structure Explored (before after : Finset α) : Prop where
  grows : before ⊆ after
  passed : ∀ a ∈ after, a ∉ before → check a = .ok ()
  closed : ∀ a ∈ after, a ∉ before → ∀ b ∈ children a, b ∈ after

variable {check children}

omit [DecidableEq α] in
theorem Explored.refl (visited : Finset α) : Explored check children visited visited :=
  ⟨subset_rfl, fun _ h h' => absurd h h', fun _ h h' => absurd h h'⟩

theorem Explored.trans {first second third : Finset α} (h : Explored check children first second)
    (h' : Explored check children second third) : Explored check children first third where
  grows := h.grows.trans h'.grows
  passed a ha hnew := by
    by_cases hsecond : a ∈ second
    · exact h.passed a hsecond hnew
    · exact h'.passed a ha hsecond
  closed a ha hnew b hb := by
    by_cases hsecond : a ∈ second
    · exact h'.grows (h.closed a hsecond hnew b hb)
    · exact h'.closed a ha hsecond b hb

section

variable {fuel : Nat}

theorem foldlM_explored
    (hvisit : ∀ {a visited visited'}, visit check children fuel a visited = .ok visited' →
      Explored check children visited visited' ∧ a ∈ visited')
    {nodes : List α} {visited visited' : Finset α}
    (h : nodes.foldlM (fun visited b => visit check children fuel b visited) visited = .ok visited') :
    Explored check children visited visited' ∧ ∀ b ∈ nodes, b ∈ visited' := by
  induction nodes generalizing visited with
  | nil =>
    obtain rfl := Except.ok.inj h
    exact ⟨.refl _, by simp⟩
  | cons b nodes ih =>
    rw [List.foldlM_cons] at h
    cases hb : visit check children fuel b visited with
    | error e => rw [hb] at h; cases h
    | ok visited₁ =>
      rw [hb] at h
      obtain ⟨hexplored, hmem⟩ := hvisit hb
      obtain ⟨hrest, hnodes⟩ := ih h
      exact ⟨hexplored.trans hrest, List.forall_mem_cons.mpr ⟨hrest.grows hmem, hnodes⟩⟩

end

theorem visit_explored {fuel : Nat} {a : α} {visited visited' : Finset α}
    (h : visit check children fuel a visited = .ok visited') :
    Explored check children visited visited' ∧ a ∈ visited' := by
  induction fuel generalizing a visited visited' with
  | zero =>
    unfold visit at h
    split at h
    · next hmem =>
      obtain rfl := Except.ok.inj h
      exact ⟨.refl _, hmem⟩
    · cases h
  | succ fuel ih =>
    unfold visit at h
    split at h
    · next hmem =>
      obtain rfl := Except.ok.inj h
      exact ⟨.refl _, hmem⟩
    · next hnew =>
      cases hcheck : check a with
      | error e =>
        simp only [hcheck, Except.mapError] at h
        cases h
      | ok _ =>
        simp only [hcheck, Except.mapError] at h
        obtain ⟨hexplored, hchildren⟩ := foldlM_explored ih h
        have hmem : a ∈ visited' := hexplored.grows (Finset.mem_insert_self a visited)
        have hgrows : visited ⊆ visited' := (Finset.subset_insert a visited).trans hexplored.grows
        refine ⟨⟨hgrows, fun b hb hnewb => ?_, fun b hb hnewb => ?_⟩, hmem⟩
        · rcases eq_or_ne b a with rfl | hne
          · exact hcheck
          · exact hexplored.passed b hb (by simp [hne, hnewb])
        · rcases eq_or_ne b a with rfl | hne
          · exact hchildren
          · exact hexplored.closed b hb (by simp [hne, hnewb])

theorem visit_failed {fuel : Nat} {a : α} {visited : Finset α} {e : ε}
    (h : visit check children fuel a visited = .error (some e)) : ∃ b, LeadsTo children a b ∧ check b = .error e := by
  induction fuel generalizing a visited with
  | zero =>
    unfold visit at h
    split at h <;> cases h
  | succ fuel ih =>
    unfold visit at h
    split at h
    · cases h
    · cases hcheck : check a with
      | error e' =>
        simp only [hcheck, Except.mapError] at h
        cases h
        exact ⟨a, .refl, hcheck⟩
      | ok _ =>
        simp only [hcheck, Except.mapError] at h
        have hfold : ∀ (nodes : List α) (visited : Finset α),
            nodes.foldlM (fun visited b => visit check children fuel b visited) visited = .error (some e) →
              ∃ b ∈ nodes, ∃ c, LeadsTo children b c ∧ check c = .error e := by
          intro nodes
          induction nodes with
          | nil => intro visited h; cases h
          | cons b nodes ihnodes =>
            intro visited h
            rw [List.foldlM_cons] at h
            cases hb : visit check children fuel b visited with
            | error e' =>
              rw [hb] at h
              cases h
              exact ⟨b, List.mem_cons_self, ih hb⟩
            | ok visited₁ =>
              rw [hb] at h
              obtain ⟨c, hc, hleads⟩ := ihnodes visited₁ h
              exact ⟨c, List.mem_cons_of_mem _ hc, hleads⟩
        obtain ⟨b, hb, c, hleads, hc⟩ := hfold _ _ h
        exact ⟨c, .head hb hleads, hc⟩

section Finite

variable [Fintype α]

theorem visit_ends {fuel : Nat} {a : α} {visited : Finset α} (hfuel : Fintype.card α ≤ visited.card + fuel) :
    visit check children fuel a visited ≠ .error none := by
  induction fuel generalizing a visited with
  | zero =>
    have hall : visited = Finset.univ := Finset.eq_univ_of_card visited (le_antisymm (Finset.card_le_univ _) hfuel)
    unfold visit
    rw [if_pos (hall ▸ Finset.mem_univ a)]
    exact fun h => by cases h
  | succ fuel ih =>
    unfold visit
    split
    · exact fun h => by cases h
    · next hnew =>
      cases hcheck : check a with
      | error e => simp [Except.mapError, bind, Except.bind]
      | ok _ =>
        have hfold : ∀ (nodes : List α) (visited : Finset α), Fintype.card α ≤ visited.card + fuel →
            nodes.foldlM (fun visited b => visit check children fuel b visited) visited ≠ .error none := by
          intro nodes
          induction nodes with
          | nil => intro visited _ h; cases h
          | cons b nodes ihnodes =>
            intro visited hvisited h
            rw [List.foldlM_cons] at h
            cases hb : visit check children fuel b visited with
            | error e =>
              rw [hb] at h
              cases h
              exact ih hvisited hb
            | ok visited₁ =>
              rw [hb] at h
              have hgrows := Finset.card_le_card (visit_explored hb).1.grows
              exact ihnodes visited₁ (by omega) h
        refine hfold _ _ ?_
        rw [Finset.card_insert_of_notMem hnew]
        omega

/-- The visit of a node goes through if and only if all it leads to passes the check. -/
theorem visit_ok_iff (a : α) :
    (∃ visited, visit check children (Fintype.card α) a ∅ = .ok visited) ↔
      ∀ b, LeadsTo children a b → check b = .ok () := by
  constructor
  · rintro ⟨visited, h⟩ b hb
    obtain ⟨hexplored, hmem⟩ := visit_explored h
    have hvisited : b ∈ visited := by
      induction hb with
      | refl => exact hmem
      | tail _ hchild ih => exact hexplored.closed _ ih (Finset.notMem_empty _) _ hchild
    exact hexplored.passed b hvisited (Finset.notMem_empty _)
  · intro h
    cases hvisit : visit check children (Fintype.card α) a ∅ with
    | ok visited => exact ⟨visited, rfl⟩
    | error e =>
      cases e with
      | none => exact absurd hvisit (visit_ends (by simp))
      | some e =>
        obtain ⟨b, hb, hfail⟩ := visit_failed hvisit
        rw [h b hb] at hfail
        cases hfail

end Finite

end Sdp.Lib
