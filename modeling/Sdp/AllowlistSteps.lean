import Sdp.Code.AllowlistSync

/-! # What a step of a mint or an operator does to an address -/

open Sdp.Lib

namespace Sdp.Allowlist

variable {s t : System} {n : Nat} {r r' : Request}

/-! ## Requests -/

/-- The entry that a running mint has inserted. -/
def Stage.created? : Stage → Option Nat
  | .addToList created | .recheck created => created
  | .rollback id => some id
  | _ => none

/-- The entry was looked at for the last time before an add on chain, or its rollback. -/
def Stage.underway : Stage → Bool
  | .insert .add | .addToList _ | .recheck (some _) | .rollback _ | .operatorAddToList _ => true
  | _ => false

/-- A mint that still has to see to it that there is an entry. -/
def Stage.restores : Stage → Bool
  | .select .mirror | .select .reassert | .insert .mirror | .insert .reassert | .recheck none => true
  | _ => false

/-- An add of an operator is under way. -/
def Request.operatorAdds (r : Request) : Bool :=
  match r.stage with
  | .operatorAddToList _ => true
  | _ => r.operatorAddOpen

def Request.underway (r : Request) : Bool := r.stage.underway || r.mintAddOpen || r.operatorAddOpen

@[simp] theorem request_setRequest (s : System) (n : Nat) (r : Request) (k : Nat) :
    (s.setRequest n r).requests k = if k = n then r else s.requests k := by
  simp [System.setRequest, Function.update_apply]

theorem live_or_revoked {e : Entry} (h : s.entry = some e) : s.live = true ∨ s.revoked = true := by
  unfold System.live System.revoked
  cases hstatus : e.status <;> simp [h, hstatus]

theorem not_revoked_of_none (h : s.entry = none) : s.revoked = false := by
  simp [System.revoked, h]

/-! ## What a step does -/

/-- A request goes on and nothing else changes. -/
structure Moves (s : System) (r r' : Request) : Prop where
  created : ∀ id, r'.stage.created? = some id → r.stage.created? = some id
  selected : ∀ id, r'.stage = .write (some id) →
    r.stage = .write (some id) ∨ ∃ e, s.entry = some e ∧ e.id = id ∧ e.status ≠ .active
  operatorAdds : r'.operatorAdds = true → r.operatorAdds = true
  underway : r'.underway = true → r.underway = true ∨ s.revoked = false
  restores : r.stage.restores = true →
    r'.stage.restores = true ∨ s.onList = false ∨ s.live = true ∨ s.revoked = true

/-- One case for each way that a step ends. -/
inductive Effect (s : System) : Step → System → Prop
  | moved {l : Step} {n : Nat} {r : Request} (hmoves : Moves s (s.requests n) r) : Effect s l (s.setRequest n r)
  | inserted {n : Nat} {purpose : Purpose} (hstage : (s.requests n).stage = .insert purpose) (hnone : s.entry = none) :
      Effect s (.insert n)
        ({ s with entry := some ⟨s.nextId, .active⟩, nextId := s.nextId + 1 }.setStage n (purpose.inserted s.nextId))
  | listed {l : Step} {n : Nat} {r : Request} (hmoves : Moves s (s.requests n) r)
      (hunderway : (s.requests n).underway = true)
      (hentry : (∃ id, (s.requests n).stage.created? = some id) ∨ (s.requests n).operatorAdds = true ∨
        r.stage.restores = true) : Effect s l ({ s with onList := true }.setRequest n r)
  | listedLate {n : Nat} (hopen : (s.requests n).mintAddOpen = true) :
      Effect s (.lateMintAdd n) ({ s with onList := true }.setRequest n { s.requests n with mintAddOpen := false })
  | unlisted {l : Step} {n : Nat} {r : Request} (hmoves : Moves s (s.requests n) r) :
      Effect s l ({ s with onList := false }.setRequest n r)
  | rolledBack {n id : Nat} (hstage : (s.requests n).stage = .rollback id) :
      Effect s (.rollback n) ({ s with entry := if s.hasEntry id then none else s.entry }.setStage n .done)
  | operatorUpdated {n id : Nat} (hstage : (s.requests n).stage = .write (some id)) (hentry : s.hasEntry id = true) :
      Effect s (.operatorWrite n)
        ({ s with entry := some ⟨id, .pending⟩, removed := false }.setStage n (.operatorAddToList id))
  | operatorInserted {n : Nat} (hstage : (s.requests n).stage = .write none) (hnone : s.entry = none) :
      Effect s (.operatorWrite n)
        ({ s with entry := some ⟨s.nextId, .pending⟩, nextId := s.nextId + 1, removed := false }.setStage n
          (.operatorAddToList s.nextId))
  | activated {n id : Nat} (hstage : (s.requests n).stage = .activate id) (hentry : s.entry = some ⟨id, .pending⟩) :
      Effect s (.activateAllowlistEntry n) ({ s with entry := some ⟨id, .active⟩ }.setStage n .done)
  | revoked {n id : Nat} (hstage : (s.requests n).stage = .revoke id) (hentry : s.hasEntry id = true) :
      Effect s (.revokeAllowlistEntry n)
        ({ s with entry := some ⟨id, .revoked⟩, removed := true }.setStage n .done)

/-- A stage with nothing to look after. -/
def Stage.plain : Stage → Bool
  | .insert .add | .addToList _ | .recheck (some _) | .rollback _ | .write (some _) | .operatorAddToList _ => false
  | _ => true

/-- While an entry lives or is revoked, or the address is off the list, nobody has to restore anything. -/
def System.settled (s : System) : Prop := s.onList = false ∨ s.live = true ∨ s.revoked = true

theorem settled_of_entry {e : Entry} (h : s.entry = some e) : s.settled := .inr (live_or_revoked h)

theorem operatorAdds_stage {stage : Stage} (hadds : ∀ id, stage ≠ .operatorAddToList id)
    (h : Request.operatorAdds { r with stage } = true) : r.operatorAdds = true := by
  have hopen : r.operatorAddOpen = true := by
    unfold Request.operatorAdds at h
    split at h
    · next id hstage => exact absurd hstage (hadds id)
    · exact h
  unfold Request.operatorAdds
  split
  · rfl
  · exact hopen

theorem moves_stage {stage : Stage} (hcreated : ∀ id, stage.created? = some id → r.stage.created? = some id)
    (hwrite : ∀ id, stage ≠ .write (some id)) (hadds : ∀ id, stage ≠ .operatorAddToList id)
    (hunderway : stage.underway = true → r.stage.underway = true ∨ s.revoked = false)
    (hrestores : r.stage.restores = true → stage.restores = true ∨ s.settled) : Moves s r { r with stage } := by
  refine ⟨hcreated, fun id h => absurd h (hwrite id), operatorAdds_stage hadds, fun h => ?_, hrestores⟩
  cases hstage : stage.underway with
  | true => exact (hunderway hstage).imp_left fun h => by simp [Request.underway, h]
  | false =>
    left
    simp only [Request.underway, hstage, Bool.false_or] at h
    simp only [Request.underway, Bool.or_assoc, h, Bool.or_true]

theorem moves_plain {stage : Stage} (hplain : stage.plain = true)
    (hrestores : r.stage.restores = true → stage.restores = true ∨ s.settled) : Moves s r { r with stage } := by
  refine moves_stage (fun id h => ?_) ?_ ?_ (fun h => ?_) hrestores
  · cases stage with
    | addToList created => cases hplain
    | recheck created => cases created with
      | none => cases h
      | some id => cases hplain
    | rollback id => cases hplain
    | _ => cases h
  · rintro id rfl
    cases hplain
  · rintro id rfl
    cases hplain
  · unfold Stage.underway at h
    split at h <;> first | cases hplain | cases h

theorem moved_plain {l : Step} {stage : Stage} (hplain : stage.plain = true)
    (hrestores : (s.requests n).stage.restores = true → stage.restores = true ∨ s.settled) :
    Effect s l (s.setStage n stage) :=
  .moved (moves_plain hplain hrestores)

/-! ## Mints -/

theorem effect_status (h : s.getAllowlistEntryStatusByAddress n = some t) :
    Effect s (.getAllowlistEntryStatusByAddress n) t := by
  unfold System.getAllowlistEntryStatusByAddress at h
  split at h
  · next hstage =>
    cases h
    refine moved_plain ?_ (by simp [hstage, Stage.restores])
    split <;> rfl
  · cases h

theorem effect_isWalletOnList (h : s.isWalletOnList n = some t) : Effect s (.isWalletOnList n) t := by
  unfold System.isWalletOnList at h
  split at h
  · next hstage =>
    cases h
    exact moved_plain rfl (by simp [hstage, Stage.restores])
  · cases h

theorem moves_alreadyAllowlisted {purpose : Purpose} {e : Entry} (hentry : s.entry = some e)
    (hunderway : r.stage.underway = true ∨ s.revoked = false) :
    Moves s r { r with stage := purpose.alreadyAllowlisted } := by
  cases purpose with
  | add => exact moves_stage nofun nofun nofun (fun _ => hunderway) fun _ => .inr (settled_of_entry hentry)
  | mirror | reassert => exact moves_plain rfl fun _ => .inr (settled_of_entry hentry)

theorem effect_select (h : s.select n = some t) : Effect s (.select n) t := by
  unfold System.select at h
  split at h
  · next purpose hstage =>
    split at h
    · next hnone =>
      cases h
      cases purpose with
      | add =>
        refine .moved (moves_stage nofun nofun nofun (fun _ => .inr (not_revoked_of_none hnone)) ?_)
        simp [hstage, Stage.restores]
      | mirror | reassert => exact moved_plain rfl fun _ => .inl rfl
    · next id hentry =>
      cases h
      exact moved_plain rfl fun _ => .inr (settled_of_entry hentry)
    all_goals
      next id hentry =>
        cases h
        exact .moved (moves_alreadyAllowlisted hentry (.inr (by simp [System.revoked, hentry])))
  · cases h

theorem effect_insert (h : s.insert n = some t) : Effect s (.insert n) t := by
  unfold System.insert at h
  split at h
  · next purpose hstage =>
    split at h
    · next e hentry =>
      cases h
      cases purpose with
      | add => exact .moved (moves_alreadyAllowlisted hentry (.inl (by simp [hstage, Stage.underway])))
      | mirror | reassert => exact moved_plain rfl fun _ => .inr (settled_of_entry hentry)
    · next hnone =>
      cases h
      exact .inserted hstage hnone
  · cases h

theorem moves_added {created : Option Nat} (h : r.stage.restores = true → (added created).restores = true ∨ s.settled) :
    Moves s r { r with stage := added created } := by
  cases created with
  | none => exact moves_plain rfl h
  | some id => exact moves_plain rfl h

theorem moves_recheck {created : Option Nat} (hstage : r.stage = .addToList created) :
    Moves s r { r with stage := .recheck created } := by
  refine moves_stage (fun id h => ?_) nofun nofun (fun _ => .inl (by simp [hstage, Stage.underway])) ?_
  · rw [hstage]
    exact h
  · simp [hstage, Stage.restores]

theorem effect_addToList {submission : Submission} (h : s.addToList n submission = some t) :
    Effect s (.addToList n submission) t := by
  unfold System.addToList at h
  split at h
  · next created hstage =>
    have hunderway : (s.requests n).underway = true := by simp [Request.underway, hstage, Stage.underway]
    have hnot : (s.requests n).stage.restores = false := by simp [hstage, Stage.restores]
    have hentry {stage : Stage} (hnone : created = none → stage.restores = true) :
        (∃ id, (s.requests n).stage.created? = some id) ∨ (s.requests n).operatorAdds = true ∨ stage.restores = true := by
      cases created with
      | none => exact .inr (.inr (hnone rfl))
      | some id => exact .inl ⟨id, by rw [hstage]; rfl⟩
    cases submission with
    | landed =>
      cases h
      exact .listed (moves_added (by simp [hnot])) hunderway (hentry fun h => by rw [h]; rfl)
    | landedWithError =>
      cases h
      exact .listed (moves_recheck hstage) hunderway (hentry fun h => by rw [h]; rfl)
    | failed =>
      cases h
      exact .moved (moves_recheck hstage)
    | ambiguous =>
      cases h
      have hmoves := moves_recheck (s := s) hstage
      exact .moved ⟨hmoves.created, hmoves.selected, hmoves.operatorAdds, fun _ => .inl hunderway, hmoves.restores⟩
  · cases h

theorem effect_recheck (h : s.recheck n = some t) : Effect s (.recheck n) t := by
  unfold System.recheck at h
  split at h
  · next created hstage =>
    split at h
    · next hlisted =>
      cases h
      refine .moved (moves_added fun hrestores => ?_)
      cases created with
      | none => exact .inl rfl
      | some id => simp [hstage, Stage.restores] at hrestores
    · next hunlisted =>
      split at h
      · cases h
        refine .moved (moves_stage (fun id h => ?_) nofun nofun (fun _ => .inl ?_) ?_)
        · rw [hstage]
          exact h
        · simp [hstage, Stage.underway]
        · simp [hstage, Stage.restores]
      · cases h
        exact moved_plain rfl fun _ => .inr (.inl (by simpa using hunlisted))
  · cases h

theorem effect_rollback (h : s.rollback n = some t) : Effect s (.rollback n) t := by
  unfold System.rollback at h
  split at h
  · next id hstage =>
    cases h
    exact .rolledBack hstage
  · cases h

/-! ## Operators -/

theorem effect_operatorSelect (h : s.operatorSelect n = some t) : Effect s (.operatorSelect n) t := by
  unfold System.operatorSelect at h
  split at h
  · next hstage =>
    have hnot : (s.requests n).stage.restores = false := by rw [hstage]; rfl
    have hwrite {e : Entry} (hentry : s.entry = some e) (hstatus : e.status ≠ .active) :
        Moves s (s.requests n) { s.requests n with stage := .write (some e.id) } := by
      refine ⟨nofun, fun id h => .inr ⟨e, hentry, ?_, hstatus⟩, operatorAdds_stage nofun, fun h => .inl ?_, by simp [hnot]⟩
      · cases h
        rfl
      · simp only [Request.underway, Stage.underway, Bool.false_or] at h
        simp [Request.underway, Bool.or_assoc, h]
    split at h
    · cases h
      exact moved_plain rfl (by simp [hnot])
    · next id hentry =>
      cases h
      exact .moved (hwrite hentry nofun)
    · next id hentry =>
      cases h
      exact .moved (hwrite hentry nofun)
    · cases h
      exact moved_plain rfl (by simp [hnot])
  · cases h

theorem effect_operatorWrite (h : s.operatorWrite n = some t) : Effect s (.operatorWrite n) t := by
  unfold System.operatorWrite at h
  split at h
  · next id hstage =>
    split at h
    · next hentry =>
      cases h
      exact .operatorUpdated hstage hentry
    · cases h
      exact moved_plain rfl (by simp [hstage, Stage.restores])
  · next hstage =>
    split at h
    · cases h
      exact moved_plain rfl (by simp [hstage, Stage.restores])
    · next hnone =>
      cases h
      exact .operatorInserted hstage hnone
  · cases h

theorem effect_operatorAddToList {submission : Submission} (h : s.operatorAddToList n submission = some t) :
    Effect s (.operatorAddToList n submission) t := by
  unfold System.operatorAddToList at h
  split at h
  · next id hstage =>
    have hunderway : (s.requests n).underway = true := by simp [Request.underway, hstage, Stage.underway]
    have hadds : (s.requests n).operatorAdds = true := by simp [Request.operatorAdds, hstage]
    have hnot : (s.requests n).stage.restores = false := by rw [hstage]; rfl
    cases submission with
    | landed =>
      cases h
      exact .listed (moves_plain rfl (by simp [hnot])) hunderway (.inr (.inl hadds))
    | landedWithError =>
      cases h
      exact .listed (moves_plain rfl (by simp [hnot])) hunderway (.inr (.inl hadds))
    | failed =>
      cases h
      exact moved_plain rfl (by simp [hnot])
    | ambiguous =>
      cases h
      exact .moved ⟨nofun, nofun, fun _ => hadds, fun _ => .inl hunderway, by simp [hnot]⟩
  · cases h

theorem effect_operatorRecheck (h : s.operatorRecheck n = some t) : Effect s (.operatorRecheck n) t := by
  unfold System.operatorRecheck at h
  split at h
  · next id hstage =>
    cases h
    refine moved_plain ?_ (by simp [hstage, Stage.restores])
    split <;> rfl
  · cases h

theorem effect_activate (h : s.activateAllowlistEntry n = some t) : Effect s (.activateAllowlistEntry n) t := by
  unfold System.activateAllowlistEntry at h
  split at h
  · next id hstage =>
    split at h
    · next hentry =>
      cases h
      exact .activated hstage hentry
    · cases h
      exact moved_plain rfl (by simp [hstage, Stage.restores])
  · cases h

theorem effect_getAllowlistEntry {id : Nat} (h : s.getAllowlistEntry n id = some t) :
    Effect s (.getAllowlistEntry n id) t := by
  unfold System.getAllowlistEntry at h
  split at h
  · next hstage =>
    split at h
    all_goals
      cases h
      exact moved_plain rfl (by simp [hstage, Stage.restores])
  · cases h

theorem effect_removeFromList {submission : Submission} (h : s.removeFromList n submission = some t) :
    Effect s (.removeFromList n submission) t := by
  unfold System.removeFromList at h
  split at h
  · next id hstage =>
    have hnot : (s.requests n).stage.restores = false := by rw [hstage]; rfl
    cases submission with
    | landed =>
      cases h
      exact .unlisted (moves_plain rfl (by simp [hnot]))
    | landedWithError =>
      cases h
      exact .unlisted (moves_plain rfl (by simp [hnot]))
    | failed =>
      cases h
      exact moved_plain rfl (by simp [hnot])
    | ambiguous =>
      cases h
      have hmoves : Moves s (s.requests n) { s.requests n with stage := .removalRecheck id } :=
        moves_plain rfl (by simp [hnot])
      exact .moved ⟨hmoves.created, hmoves.selected, hmoves.operatorAdds, hmoves.underway, hmoves.restores⟩
  · cases h

theorem effect_removalRecheck (h : s.removalRecheck n = some t) : Effect s (.removalRecheck n) t := by
  unfold System.removalRecheck at h
  split at h
  · next id hstage =>
    cases h
    refine moved_plain ?_ (by simp [hstage, Stage.restores])
    split <;> rfl
  · cases h

theorem effect_revoke (h : s.revokeAllowlistEntry n = some t) : Effect s (.revokeAllowlistEntry n) t := by
  unfold System.revokeAllowlistEntry at h
  split at h
  · next id hstage =>
    split at h
    · next hentry =>
      cases h
      exact .revoked hstage hentry
    · cases h
      exact moved_plain rfl (by simp [hstage, Stage.restores])
  · cases h

/-! ## Late effects -/

theorem moves_close (r : Request) (a b c : Bool) :
    Moves s r
      { r with
        mintAddOpen := r.mintAddOpen && a
        operatorAddOpen := r.operatorAddOpen && b
        removalOpen := r.removalOpen && c } := by
  refine ⟨fun _ h => h, fun _ h => .inl h, fun h => ?_, fun h => .inl ?_, .inl⟩
  · unfold Request.operatorAdds at h ⊢
    split at h
    · next id hstage =>
      simp only at hstage
      simp [hstage]
    · next hstage =>
      simp only at hstage
      simp_all
  · unfold Request.underway at h ⊢
    revert h
    cases r.stage.underway <;> cases r.mintAddOpen <;> cases r.operatorAddOpen <;> simp

theorem effect_of_step {l : Step} (h : s.step l = some t) : Effect s l t := by
  cases l with
  | getAllowlistEntryStatusByAddress n => exact effect_status h
  | isWalletOnList n => exact effect_isWalletOnList h
  | select n => exact effect_select h
  | insert n => exact effect_insert h
  | addToList n submission => exact effect_addToList h
  | recheck n => exact effect_recheck h
  | rollback n => exact effect_rollback h
  | operatorSelect n => exact effect_operatorSelect h
  | operatorWrite n => exact effect_operatorWrite h
  | operatorAddToList n submission => exact effect_operatorAddToList h
  | operatorRecheck n => exact effect_operatorRecheck h
  | activateAllowlistEntry n => exact effect_activate h
  | getAllowlistEntry n id => exact effect_getAllowlistEntry h
  | removeFromList n submission => exact effect_removeFromList h
  | removalRecheck n => exact effect_removalRecheck h
  | revokeAllowlistEntry n => exact effect_revoke h
  | lateMintAdd n =>
    obtain ⟨hopen, ht⟩ := Option.ite_none_right_eq_some.mp h
    cases ht
    exact .listedLate hopen
  | lateOperatorAdd n =>
    obtain ⟨hopen, ht⟩ := Option.ite_none_right_eq_some.mp h
    cases ht
    have hmoves := moves_close (s := s) (s.requests n) true false true
    simp only [Bool.and_true, Bool.and_false] at hmoves
    refine .listed hmoves (by simp [Request.underway, hopen]) (.inr (.inl ?_))
    unfold Request.operatorAdds
    split
    · rfl
    · exact hopen
  | lateRemoval n =>
    obtain ⟨hopen, ht⟩ := Option.ite_none_right_eq_some.mp h
    cases ht
    have hmoves := moves_close (s := s) (s.requests n) true true false
    simp only [Bool.and_true, Bool.and_false] at hmoves
    exact .unlisted hmoves
  | expire n =>
    cases h
    have hmoves := moves_close (s := s) (s.requests n) false false false
    simp only [Bool.and_false] at hmoves
    exact .moved hmoves

end Sdp.Allowlist
