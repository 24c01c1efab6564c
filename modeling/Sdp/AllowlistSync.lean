import Sdp.AllowlistSteps

/-!
# A revocation stands

The on-chain removal and the revocation of a row are two steps, and so are the insertion of a row and the
add on chain of a mint. What the code promises holds of every run in which a revocation is not written
while a mint or an operator has an add under way, a mint does not roll its row back after another's add
has been mirrored, and no add of a mint lands after the mint has looked for it in vain.
-/

open Sdp.Lib

namespace Sdp.Allowlist

variable {s t : System} {n : Nat} {r : Request}

/-- Which steps do not get in each other's way. -/
def undisturbed (s : System) : Step → Prop
  | .revokeAllowlistEntry n => ∀ id, (s.requests n).stage = .revoke id → s.hasEntry id = true →
      s.onList = false ∧ ∀ k, (s.requests k).underway = false
  | .rollback _ => s.onList = true → ∃ k, (s.requests k).stage.restores = true
  | .lateMintAdd n => ∃ created, (s.requests n).stage = .recheck created
  | _ => True

/-! ## The invariant -/

structure Invariant (s : System) : Prop where
  /-- The entry of a running mint is the one that it has inserted. -/
  created : ∀ k id, (s.requests k).stage.created? = some id → s.entry = some ⟨id, .active⟩
  unique : ∀ k k' id, (s.requests k).stage.created? = some id → (s.requests k').stage.created? = some id → k = k'
  selected : ∀ j id, (s.requests j).stage = .write (some id) →
    id < s.nextId ∧ ∀ k, (s.requests k).stage.created? ≠ some id
  /-- An operator adds an entry of its own, or one that no mint will roll back. -/
  operatorAdds : ∀ j, (s.requests j).operatorAdds = true →
    s.live = true ∧ ∀ k, (s.requests k).stage.created? = none
  ids : ∀ e, s.entry = some e → e.id < s.nextId
  removed : s.removed = s.revoked
  revoked : s.revoked = true → s.onList = false ∧ ∀ k, (s.requests k).underway = false
  listed : s.onList = true → s.live = true ∨ ∃ k, (s.requests k).stage.restores = true

theorem created_of_moves (hmoves : Moves s (s.requests n) r) {k id : Nat}
    (h : (if k = n then r else s.requests k).stage.created? = some id) : (s.requests k).stage.created? = some id := by
  split at h
  · next hk => exact hk ▸ hmoves.created id h
  · exact h

theorem selected_of_moves (hs : Invariant s) (hmoves : Moves s (s.requests n) r) {j id : Nat}
    (h : (if j = n then r else s.requests j).stage = .write (some id)) :
    id < s.nextId ∧ ∀ k, (s.requests k).stage.created? ≠ some id := by
  split at h
  · rcases hmoves.selected id h with hold | ⟨e, hentry, rfl, hstatus⟩
    · exact hs.selected n id hold
    · refine ⟨hs.ids e hentry, fun k hk => hstatus ?_⟩
      have hsame := hentry.symm.trans (hs.created k e.id hk)
      rw [Option.some.inj hsame]
  · exact hs.selected j id h

theorem operatorAdds_of_moves (hs : Invariant s) (hmoves : Moves s (s.requests n) r) {j : Nat}
    (h : (if j = n then r else s.requests j).operatorAdds = true) :
    s.live = true ∧ ∀ k, (if k = n then r else s.requests k).stage.created? = none := by
  have hold : (s.requests j).operatorAdds = true := by
    split at h
    · next hj => exact hj ▸ hmoves.operatorAdds h
    · exact h
  obtain ⟨hlive, hnone⟩ := hs.operatorAdds j hold
  refine ⟨hlive, fun k => Option.eq_none_iff_forall_ne_some.mpr fun id hid => ?_⟩
  have := created_of_moves hmoves hid
  simp [hnone k] at this

theorem underway_of_moves (hs : Invariant s) (hmoves : Moves s (s.requests n) r) (hrevoked : s.revoked = true) (k : Nat) :
    (if k = n then r else s.requests k).underway = false := by
  obtain ⟨-, hnone⟩ := hs.revoked hrevoked
  split
  · refine Bool.eq_false_iff.mpr fun h => ?_
    rcases hmoves.underway h with hold | hnot
    · simp [hnone n] at hold
    · simp [hrevoked] at hnot
  · exact hnone k

theorem invariant_moves {onList : Bool} (hs : Invariant s) (hmoves : Moves s (s.requests n) r)
    (hrevoked : s.revoked = true → onList = false)
    (hlisted : onList = true → s.live = true ∨ ∃ k, (if k = n then r else s.requests k).stage.restores = true) :
    Invariant ({ s with onList }.setRequest n r) := by
  refine ⟨fun k id h => ?_, fun k k' id h h' => ?_, fun j id h => ?_, fun j h => ?_, hs.ids, hs.removed, fun h => ?_,
    fun h => ?_⟩
  · exact hs.created k id (created_of_moves hmoves (by simpa using h))
  · exact hs.unique k k' id (created_of_moves hmoves (by simpa using h)) (created_of_moves hmoves (by simpa using h'))
  · rw [request_setRequest] at h
    obtain ⟨hlt, hnot⟩ := selected_of_moves hs hmoves h
    exact ⟨hlt, fun k hk => hnot k (created_of_moves hmoves (by simpa using hk))⟩
  · have h' := operatorAdds_of_moves hs hmoves (j := j) (by simpa using h)
    exact ⟨h'.1, fun k => by simpa using h'.2 k⟩
  · exact ⟨hrevoked h, fun k => by simpa using underway_of_moves hs hmoves h k⟩
  · exact (hlisted h).imp_right fun ⟨k, hk⟩ => ⟨k, by simpa using hk⟩

theorem restores_of_moves (hs : Invariant s) (hmoves : Moves s (s.requests n) r) (hlisted : s.onList = true) :
    s.live = true ∨ ∃ k, (if k = n then r else s.requests k).stage.restores = true := by
  rcases hs.listed hlisted with hlive | ⟨k, hk⟩
  · exact .inl hlive
  · by_cases hkn : k = n
    · subst hkn
      rcases hmoves.restores hk with hr | hoff | hlive | hrevoked
      · exact .inr ⟨k, by simpa using hr⟩
      · simp [hlisted] at hoff
      · exact .inl hlive
      · simp [(hs.revoked hrevoked).1] at hlisted
    · exact .inr ⟨k, by simpa [hkn] using hk⟩

theorem underway_of_created {id : Nat} (h : r.stage.created? = some id) : r.underway = true := by
  have hstage : r.stage.underway = true := by
    cases hs : r.stage with
    | addToList created => rfl
    | recheck created => cases created with
      | none => simp [hs, Stage.created?] at h
      | some id => rfl
    | rollback id => rfl
    | _ => simp [hs, Stage.created?] at h
  simp [Request.underway, hstage]

theorem underway_of_operatorAdds (h : r.operatorAdds = true) : r.underway = true := by
  unfold Request.operatorAdds at h
  split at h
  · next id hstage => simp [Request.underway, hstage, Stage.underway]
  · simp [Request.underway, h]

theorem not_revoked_of_underway (hs : Invariant s) (h : (s.requests n).underway = true) : s.revoked = false := by
  refine Bool.eq_false_iff.mpr fun hrevoked => ?_
  simp [(hs.revoked hrevoked).2 n] at h

theorem created_none_of_entry (hs : Invariant s) (h : ∀ id, s.entry ≠ some ⟨id, .active⟩) (k : Nat) :
    (s.requests k).stage.created? = none :=
  Option.eq_none_iff_forall_ne_some.mpr fun id hid => h id (hs.created k id hid)

@[simp] theorem request_setStage (s : System) (n : Nat) (stage : Stage) (k : Nat) :
    (s.setStage n stage).requests k = if k = n then { s.requests n with stage } else s.requests k :=
  request_setRequest ..

theorem invariant_unowned {entry : Option Entry} {nextId : Nat} {removed : Bool} {stage : Stage} (hs : Invariant s)
    (hnext : s.nextId ≤ nextId) (hcreated : ∀ k, k ≠ n → (s.requests k).stage.created? = none)
    (hstage : stage.created? = none) (hwrite : ∀ id, stage ≠ .write (some id))
    (hadds : entry.any (·.status ≠ .revoked) = false →
      (∀ k, (s.requests k).operatorAdds = false) ∧ ∀ id, stage ≠ .operatorAddToList id)
    (hids : ∀ e, entry = some e → e.id < nextId) (hremoved : removed = entry.any (·.status = .revoked))
    (hrevoked : removed = true → s.onList = false ∧ (∀ k, (s.requests k).underway = false) ∧ stage.underway = false)
    (hlisted : s.onList = true → entry.any (·.status ≠ .revoked) = true ∨
      ∃ k, k ≠ n ∧ (s.requests k).stage.restores = true) :
    Invariant ({ s with entry, nextId, removed }.setStage n stage) := by
  have hnone : ∀ k, (({ s with entry, nextId, removed }.setStage n stage).requests k).stage.created? = none := by
    intro k
    rw [request_setStage]
    split
    · exact hstage
    · next hk => exact hcreated k hk
  refine ⟨fun k id h => ?_, fun k k' id h => ?_, fun j id h => ?_, fun j h => ⟨?_, hnone⟩, hids, hremoved, fun h => ?_,
    fun h => ?_⟩
  · rw [hnone k] at h
    cases h
  · rw [hnone k] at h
    cases h
  · refine ⟨?_, fun k hk => by cases (hnone k).symm.trans hk⟩
    rw [request_setStage] at h
    split at h
    · exact absurd h (hwrite id)
    · exact Nat.lt_of_lt_of_le (hs.selected j id h).1 hnext
  · cases hlive : entry.any (·.status ≠ .revoked) with
    | true => exact hlive
    | false =>
      obtain ⟨hold, hnot⟩ := hadds hlive
      rw [request_setStage] at h
      split at h
      · exact absurd (operatorAdds_stage hnot h) (by simp [hold n])
      · simp [hold j] at h
  · obtain ⟨hoff, hunderway, hstage'⟩ := hrevoked (hremoved.trans h)
    refine ⟨hoff, fun k => ?_⟩
    rw [request_setStage]
    split
    · have := hunderway n
      simp only [Request.underway, Bool.or_eq_false_iff] at this ⊢
      exact ⟨⟨hstage', this.1.2⟩, this.2⟩
    · exact hunderway k
  · obtain hlive | ⟨k, hk, hrestores⟩ := hlisted h
    · exact .inl hlive
    refine .inr ⟨k, ?_⟩
    rw [request_setStage, if_neg hk]
    exact hrestores

theorem invariant_inserted {purpose : Purpose} (hs : Invariant s) (hstage : (s.requests n).stage = .insert purpose)
    (hnone : s.entry = none) :
    Invariant ({ s with entry := some ⟨s.nextId, .active⟩, nextId := s.nextId + 1 }.setStage n
      (purpose.inserted s.nextId)) := by
  have hcreated := created_none_of_entry hs (by simp [hnone])
  have hadds : ∀ k, (s.requests k).operatorAdds = false := fun k => Bool.eq_false_iff.mpr fun h => by
    simpa [System.live, hnone] using (hs.operatorAdds k h).1
  have hremoved : s.removed = false := hs.removed.trans (not_revoked_of_none hnone)
  by_cases hpurpose : purpose = .add
  · subst hpurpose
    have hcreated' {k id : Nat} (h : ((({ s with entry := some ⟨s.nextId, .active⟩, nextId := s.nextId + 1 } :
        System).setStage n (.addToList (some s.nextId))).requests k).stage.created? = some id) : k = n ∧ id = s.nextId := by
      rw [request_setStage] at h
      split at h
      · next hk =>
        cases h
        exact ⟨hk, rfl⟩
      · rw [hcreated k] at h
        cases h
    refine ⟨fun k id h => ?_, fun k k' id h h' => ?_, fun j id h => ?_, fun j h => ?_, ?_, ?_, nofun, fun _ => .inl rfl⟩
    · rw [(hcreated' h).2]
      rfl
    · rw [(hcreated' h).1, (hcreated' h').1]
    · rw [request_setStage] at h
      split at h
      · cases h
      · obtain ⟨hlt, -⟩ := hs.selected j id h
        refine ⟨Nat.lt_succ_of_lt hlt, fun k hk => ?_⟩
        rw [(hcreated' hk).2] at hlt
        exact absurd hlt (Nat.lt_irrefl _)
    · rw [request_setStage] at h
      split at h
      · exact absurd (operatorAdds_stage (fun id h => by cases h) h) (by simp [hadds n])
      · simp [hadds j] at h
    · rintro e he
      cases he
      exact Nat.lt_succ_self _
    · exact hremoved
  · have hinserted : purpose.inserted s.nextId = .done := by
      cases purpose with
      | add => exact absurd rfl hpurpose
      | mirror | reassert => rfl
    rw [hinserted]
    refine invariant_unowned hs (Nat.le_succ _) (fun k _ => hcreated k) rfl nofun (fun _ => ⟨hadds, nofun⟩) ?_ hremoved ?_
      fun _ => .inl rfl
    · rintro e he
      cases he
      exact Nat.lt_succ_self _
    · simp [hremoved]

theorem invariant_of_effect {l : Step} (hs : Invariant s) (hok : undisturbed s l) (h : Effect s l t) : Invariant t := by
  cases h with
  | moved hmoves =>
    exact invariant_moves hs hmoves (fun h => (hs.revoked h).1) (restores_of_moves hs hmoves)
  | inserted hstage hnone => exact invariant_inserted hs hstage hnone
  | @listed _ n r hmoves hunderway hentry =>
    have hnot := not_revoked_of_underway hs hunderway
    refine invariant_moves hs hmoves (by simp [hnot]) fun _ => ?_
    rcases hentry with ⟨id, hcreated⟩ | hadds | hrestores
    · exact .inl (by simp [System.live, hs.created n id hcreated])
    · exact .inl (hs.operatorAdds n hadds).1
    · exact .inr ⟨n, by simpa using hrestores⟩
  | @listedLate n hopen =>
    have hnot := not_revoked_of_underway hs (n := n) (by simp [Request.underway, hopen])
    have hmoves := moves_close (s := s) (s.requests n) false true true
    simp only [Bool.and_true, Bool.and_false] at hmoves
    refine invariant_moves hs hmoves (by simp [hnot]) fun _ => ?_
    -- The mint has still to look for its add, so it keeps its row or re-asserts it.
    obtain ⟨created, hstage⟩ := hok
    cases created with
    | none => exact .inr ⟨n, by simp [hstage, Stage.restores]⟩
    | some id =>
      have hentry := hs.created n id (by rw [hstage]; rfl)
      exact .inl (by simp [System.live, hentry])
  | unlisted hmoves => exact invariant_moves hs hmoves (fun _ => rfl) (by simp)
  | @rolledBack n id hstage =>
    have hcreated : (s.requests n).stage.created? = some id := by rw [hstage]; rfl
    have hentry := hs.created n id hcreated
    have hadds : ∀ k, (s.requests k).operatorAdds = false := fun k => Bool.eq_false_iff.mpr fun h => by
      simpa [hcreated] using (hs.operatorAdds k h).2 n
    have hremoved : s.removed = false := hs.removed.trans (by simp [System.revoked, hentry])
    simp only [System.hasEntry, hentry, Option.any_some, decide_true, if_true]
    refine invariant_unowned hs (Nat.le_refl _) (fun k hk => ?_) rfl (by simp) (fun _ => ⟨hadds, (by simp)⟩) (by simp) hremoved
      (by simp [hremoved]) fun hlisted => ?_
    · refine Option.eq_none_iff_forall_ne_some.mpr fun id' hid' => hk (hs.unique k n id ?_ hcreated)
      have hsame := (hs.created k id' hid').symm.trans hentry
      simp only [Option.some.injEq, Entry.mk.injEq, and_true] at hsame
      exact hsame ▸ hid'
    · obtain ⟨k, hk⟩ := hok hlisted
      refine .inr ⟨k, fun hkn => ?_, hk⟩
      simp [hkn, hstage, Stage.restores] at hk
  | @operatorUpdated n id hstage hentry =>
    obtain ⟨hlt, hnot⟩ := hs.selected n id hstage
    have hcreated : ∀ k, (s.requests k).stage.created? = none := by
      refine fun k => Option.eq_none_iff_forall_ne_some.mpr fun id' hid' => ?_
      have hactive := hs.created k id' hid'
      obtain rfl : id' = id := by simpa [System.hasEntry, hactive] using hentry
      exact hnot k hid'
    refine invariant_unowned hs (Nat.le_refl _) (fun k _ => hcreated k) rfl (by simp) (by simp) ?_ rfl (by simp)
      fun _ => .inl rfl
    rintro e he
    cases he
    exact hlt
  | @operatorInserted n hstage hnone =>
    have hcreated := created_none_of_entry hs (by simp [hnone])
    refine invariant_unowned hs (Nat.le_succ _) (fun k _ => hcreated k) rfl (by simp) (by simp) ?_ rfl (by simp)
      fun _ => .inl rfl
    rintro e he
    cases he
    exact Nat.lt_succ_self _
  | @activated n id hstage hentry =>
    have hcreated := created_none_of_entry hs (by simp [hentry])
    have hremoved : s.removed = false := hs.removed.trans (by simp [System.revoked, hentry])
    refine invariant_unowned hs (Nat.le_refl _) (fun k _ => hcreated k) rfl (by simp) (by simp) ?_ hremoved (by simp [hremoved])
      fun _ => .inl rfl
    rintro e he
    cases he
    exact hs.ids ⟨id, .pending⟩ hentry
  | @revoked n id hstage hentry =>
    obtain ⟨hoff, hunderway⟩ := hok id hstage hentry
    have hcreated : ∀ k, (s.requests k).stage.created? = none := by
      refine fun k => Option.eq_none_iff_forall_ne_some.mpr fun id' hid' => ?_
      have hbusy := underway_of_created hid'
      simp [hunderway k] at hbusy
    have hadds : ∀ k, (s.requests k).operatorAdds = false := fun k => Bool.eq_false_iff.mpr fun h => by
      simpa [hunderway k] using underway_of_operatorAdds h
    obtain ⟨e, he, rfl⟩ : ∃ e, s.entry = some e ∧ e.id = id := by
      simpa [System.hasEntry, Option.any_eq_true] using hentry
    refine invariant_unowned hs (Nat.le_refl _) (fun k _ => hcreated k) rfl (by simp) (fun _ => ⟨hadds, (by simp)⟩) ?_ rfl
      (fun _ => ⟨hoff, hunderway, rfl⟩) (by simp [hoff])
    rintro e' he'
    cases he'
    exact hs.ids e he

theorem invariant_of_reachable (h : Reachable System.step System.Initial undisturbed s) : Invariant s := by
  refine h.invariant (P := Invariant) (fun s hs => ?_) fun s l t _ hs hok ht => invariant_of_effect hs hok (effect_of_step ht)
  have hidle := hs.requests
  refine ⟨?_, ?_, ?_, ?_, hs.ids, hs.removed, fun h => ⟨?_, ?_⟩, fun h => .inl (hs.listed h)⟩
  · simp [hidle, Stage.created?]
  · simp [hidle, Stage.created?]
  · simp [hidle]
  · simp [hidle, Request.operatorAdds]
  · refine Bool.eq_false_iff.mpr fun hlisted => ?_
    have hlive := hs.listed hlisted
    unfold System.live at hlive
    unfold System.revoked at h
    cases hentry : s.entry <;> simp_all
  · simp [hidle, Request.underway, Stage.underway]

/-- Every request has ended, and nothing that it sent may still land. -/
def System.Finished (s : System) : Prop :=
  ∀ n, ((s.requests n).stage = .idle ∨ (s.requests n).stage = .done) ∧ (s.requests n).mintAddOpen = false ∧
    (s.requests n).operatorAddOpen = false ∧ (s.requests n).removalOpen = false

/-- In every run of undisturbed steps: from a removal on and until an operator adds the address again, its entry is
revoked and it is not on the list; and when all requests have ended, an address on the list has an active or pending
entry. -/
theorem revocation_stands (h : Reachable System.step System.Initial undisturbed s) :
    (s.removed = true → s.onList = false ∧ ∃ e, s.entry = some e ∧ e.status = .revoked) ∧
      (s.Finished → s.onList = true → ∃ e, s.entry = some e ∧ (e.status = .active ∨ e.status = .pending)) := by
  have hs := invariant_of_reachable h
  refine ⟨fun hremoved => ?_, fun hfinished hlisted => ?_⟩
  · have hrevoked : s.revoked = true := hs.removed.symm.trans hremoved
    exact ⟨(hs.revoked hrevoked).1, by simpa [System.revoked, Option.any_eq_true] using hrevoked⟩
  · rcases hs.listed hlisted with hlive | ⟨k, hk⟩
    · obtain ⟨e, he, hstatus⟩ : ∃ e, s.entry = some e ∧ e.status ≠ .revoked := by
        simpa [System.live, Option.any_eq_true] using hlive
      refine ⟨e, he, ?_⟩
      cases he : e.status <;> simp_all
    · rcases (hfinished k).1 with hidle | hdone
      · simp [hidle, Stage.restores] at hk
      · simp [hdone, Stage.restores] at hk

def fresh : System := ⟨none, 0, false, false, fun _ => ⟨.idle, false, false, false⟩⟩

theorem fresh_initial : fresh.Initial := ⟨fun _ => rfl, nofun, rfl, nofun⟩

/-- A mint puts its destination on the list, and an operator takes it off and gets as far as the revocation. -/
def mintThenRemoval : List Step :=
  [.getAllowlistEntryStatusByAddress 0, .isWalletOnList 0, .select 0, .insert 0, .addToList 0 .landedWithError, .recheck 0,
    .getAllowlistEntry 1 0, .removeFromList 1 .landed]

/-- The state before the revocation. -/
def offList : System :=
  ⟨some ⟨0, .active⟩, 1, false, false, fun k =>
    ⟨if k = 0 then .done else if k = 1 then .revoke 0 else .idle, false, false, false⟩⟩

theorem run_mintThenRemoval : run System.step fresh mintThenRemoval = some offList := by
  obtain ⟨s, hs, hrest, hrequests⟩ : ∃ s, run System.step fresh mintThenRemoval = some s ∧
      { s with requests := offList.requests } = offList ∧ ∀ k, s.requests k = offList.requests k := by
    refine ⟨_, rfl, rfl, fun k => ?_⟩
    match k with
    | 0 => rfl
    | 1 => rfl
    | k + 2 => rfl
  rw [hs, ← hrest, ← funext hrequests]

/-- The revocation of an address that a mint has put on the list. -/
theorem removed_after_mint : ∃ s, Reachable System.step System.Initial undisturbed s ∧ s.removed = true ∧
    s.onList = false ∧ ∃ e, s.entry = some e ∧ e.status = .revoked := by
  have hreach : Reachable System.step System.Initial undisturbed offList := by
    refine (Reachable.start fresh_initial).run_of (fun u l hl => ?_) run_mintThenRemoval
    simp only [mintThenRemoval, List.mem_cons, List.not_mem_nil, or_false] at hl
    rcases hl with rfl | rfl | rfl | rfl | rfl | rfl | rfl | rfl <;> trivial
  have hok : undisturbed offList (.revokeAllowlistEntry 1) := by
    refine fun id _ _ => ⟨rfl, fun k => ?_⟩
    simp only [offList, Request.underway, Bool.or_false]
    split
    · rfl
    · split <;> rfl
  have hrevoked := hreach.step hok (t := { offList with entry := some ⟨0, .revoked⟩, removed := true }.setStage 1 .done) rfl
  exact ⟨_, hrevoked, rfl, (revocation_stands hrevoked).1 rfl⟩

/-- What is left when the first two requests have ended: the entry, the membership of the list, and whether a removal
stands. -/
def outcome (steps : List Step) : Option (Option EntryStatus × Bool × Bool) :=
  (run System.step fresh steps).bind fun s =>
    if s.requests 0 = ⟨.done, false, false, false⟩ ∧ (s.requests 1).stage ∈ [.idle, .done] then
      some (s.entry.map Entry.status, s.onList, s.removed)
    else none

/-- A removal that falls between the insert of a mint and its add. -/
def removalBeforeAdd : List Step :=
  [.getAllowlistEntryStatusByAddress 0, .isWalletOnList 0, .select 0, .insert 0, .getAllowlistEntry 1 0,
    .removeFromList 1 .failed, .removalRecheck 1, .revokeAllowlistEntry 1, .addToList 0 .landed]

/-- The same, and the add fails. -/
def removalBeforeRollback : List Step :=
  [.getAllowlistEntryStatusByAddress 0, .isWalletOnList 0, .select 0, .insert 0, .getAllowlistEntry 1 0,
    .removeFromList 1 .failed, .removalRecheck 1, .revokeAllowlistEntry 1, .addToList 0 .failed, .recheck 0, .rollback 0]

/-- A mint that finds the row of another adds and re-asserts before the other rolls back. -/
def mirroredBeforeRollback : List Step :=
  [.getAllowlistEntryStatusByAddress 0, .isWalletOnList 0, .getAllowlistEntryStatusByAddress 1, .isWalletOnList 1,
    .select 0, .insert 0, .select 1, .addToList 0 .failed, .recheck 0, .addToList 1 .landed, .select 1, .rollback 0]

/-- The add of a mint lands after the rollback. -/
def lateAdd : List Step :=
  [.getAllowlistEntryStatusByAddress 0, .isWalletOnList 0, .select 0, .insert 0, .addToList 0 .ambiguous, .recheck 0,
    .rollback 0, .lateMintAdd 0]

/-- A removal is undone on the list or in the database, and an address is left on the list without an entry. -/
theorem disturbed_runs_undo_revocation :
    outcome removalBeforeAdd = some (some .revoked, true, true) ∧
      outcome removalBeforeRollback = some (none, false, true) ∧
      outcome mirroredBeforeRollback = some (none, true, false) ∧
      outcome lateAdd = some (none, true, false) := by decide

end Sdp.Allowlist
