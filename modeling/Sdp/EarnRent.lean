import Sdp.EarnInvariant

/-!
# The rent funder of a position

`share_ata_rent_funder` of a position is recomputed by a subquery in the `UPDATE` of three kinds of transactions.
Deposits and advances have locked the position before; a withdrawal locks it with the `UPDATE` itself, whose subquery
may by then have missed what another transaction committed. As long as no `UPDATE` finds the position in another
version than its snapshot has, the column names the funder of the newest claim.
-/

open Sdp.Lib

namespace Sdp.Earn

variable {s t : System} {n k : Nat}

abbrev Ledger := Table Nat Movement Movement.id

/-! ## Claims -/

/-- The claim that a row makes on a position. -/
def claimOf (positionId : Nat) (m : Movement) : Option (Entry (Lex (Nat × Nat)) (Option String)) :=
  if m.claims positionId then some ⟨m.age, m.shareAtaRentFunder⟩ else none

def claimAt (rows : Ledger) (positionId id : Nat) : Option (Entry (Lex (Nat × Nat)) (Option String)) :=
  (rows.find? id).bind (claimOf positionId)

/-- The claims on a position. -/
def claimsAt (rows : Ledger) (positionId : Nat) : Set (Entry (Lex (Nat × Nat)) (Option String)) :=
  {e | ∃ id, claimAt rows positionId id = some e}

/-- The funder is that of the newest claim, and nobody when there is none. -/
def Funded (rows : Ledger) (positionId : Nat) (funder : Option String) : Prop :=
  (∀ e, Entry.Latest (claimsAt rows positionId) e → funder = e.value) ∧
    (claimsAt rows positionId = ∅ → funder = none)

/-- Two states of the ledger with the same claims on a position. -/
def SameClaims (rows rows' : Ledger) (positionId : Nat) : Prop :=
  ∀ id, claimAt rows' positionId id = claimAt rows positionId id

section

variable {rows rows' : Ledger} {positionId : Nat}

theorem SameClaims.symm (h : SameClaims rows rows' positionId) : SameClaims rows' rows positionId :=
  fun id => (h id).symm

theorem SameClaims.trans {rows'' : Ledger} (h : SameClaims rows rows' positionId)
    (h' : SameClaims rows' rows'' positionId) : SameClaims rows rows'' positionId := fun id => (h' id).trans (h id)

theorem SameClaims.funded (h : SameClaims rows rows' positionId) {funder : Option String}
    (hf : Funded rows positionId funder) : Funded rows' positionId funder := by
  have hclaims : claimsAt rows' positionId = claimsAt rows positionId := by
    ext e
    simp only [claimsAt, Set.mem_ofPred_eq, h _]
  simpa only [Funded, hclaims] using hf

theorem claimAt_upsert (m : Movement) (id : Nat) : claimAt (rows.upsert m) positionId id =
    if id = m.id then claimOf positionId m else claimAt rows positionId id := by
  unfold claimAt
  rw [Table.find?_upsert]
  split <;> rfl

theorem SameClaims.upsert (h : SameClaims rows rows' positionId) (m : Movement) :
    SameClaims (rows.upsert m) (rows'.upsert m) positionId := by
  intro id
  rw [claimAt_upsert, claimAt_upsert, h id]

theorem SameClaims.view (h : SameClaims rows rows' positionId) (own : Option Movement) :
    SameClaims (own.elim rows rows.upsert) (own.elim rows' rows'.upsert) positionId := by
  cases own with
  | none => exact h
  | some m => exact h.upsert m

theorem sameClaims_upsert {m : Movement} (h : claimOf positionId m = claimAt rows positionId m.id) :
    SameClaims rows (rows.upsert m) positionId := by
  intro id
  rw [claimAt_upsert]
  split
  · next hid => rw [hid, h]
  · rfl

theorem mem_claimsAt {m : Movement} (hm : m ∈ rows.rows) (hclaims : m.claims positionId = true) :
    (⟨m.age, m.shareAtaRentFunder⟩ : Entry _ _) ∈ claimsAt rows positionId :=
  ⟨m.id, by simp [claimAt, claimOf, Table.mem_rows_iff.mp hm, hclaims]⟩

theorem exists_of_mem_claimsAt {e : Entry (Lex (Nat × Nat)) (Option String)} (h : e ∈ claimsAt rows positionId) :
    ∃ m ∈ rows.rows, m.claims positionId = true ∧ e = ⟨m.age, m.shareAtaRentFunder⟩ := by
  obtain ⟨id, hid⟩ := h
  obtain ⟨m, hm, he⟩ := Option.bind_eq_some_iff.mp hid
  obtain ⟨hclaims, he⟩ := Option.ite_none_right_eq_some.mp he
  exact ⟨m, (Table.find?_eq_some_iff.mp hm).1, hclaims, (Option.some.inj he).symm⟩

theorem eq_of_age {m m' : Movement} (hm : m ∈ rows.rows) (hm' : m' ∈ rows.rows) (h : m.age = m'.age) : m = m' := by
  have hid : m.id = m'.id := congrArg (fun a => (ofLex a).2) h
  exact List.inj_on_of_nodup_map rows.primaryKey hm hm' hid

/-- The subquery finds the funder of the newest claim. -/
theorem funded_projectedFunder (rows : Ledger) (positionId : Nat) :
    Funded rows positionId (projectedFunder rows.rows positionId) := by
  unfold projectedFunder
  cases hmax : (rows.rows.filter fun m => m.claims positionId).argmax Movement.age with
  | none =>
    have hempty := List.filter_eq_nil_iff.mp (List.argmax_eq_none.mp hmax)
    refine ⟨fun e he => ?_, fun _ => rfl⟩
    obtain ⟨m, hm, hclaims, -⟩ := exists_of_mem_claimsAt he.1
    exact absurd hclaims (hempty m hm)
  | some m =>
    obtain ⟨hm, hclaims⟩ := List.mem_filter.mp (List.argmax_mem hmax)
    refine ⟨fun e he => ?_, fun hempty => ?_⟩
    · obtain ⟨m', hm', hclaims', rfl⟩ := exists_of_mem_claimsAt he.1
      have hle : m.age ≤ m'.age := he.2 _ (mem_claimsAt hm hclaims)
      have hge : m'.age ≤ m.age := List.le_of_mem_argmax (List.mem_filter.mpr ⟨hm', hclaims'⟩) hmax
      obtain rfl := eq_of_age hm hm' (le_antisymm hle hge)
      rfl
    · exact absurd (mem_claimsAt hm hclaims) (by simp [hempty])

theorem funded_none_of_fresh (hs : Wf s) {positionId : Nat} (h : s.positions.find? positionId = none) :
    Funded s.movements positionId none := by
  refine ⟨fun e he => ?_, fun _ => rfl⟩
  obtain ⟨m, hm, hclaims, -⟩ := exists_of_mem_claimsAt he.1
  obtain ⟨p, hp, -⟩ := hs.housed _ m (Table.mem_rows_iff.mp hm)
  have hposition : m.positionId = positionId := by
    simp only [Movement.claims, Bool.and_eq_true, decide_eq_true_eq] at hclaims
    exact hclaims.1.1
  rw [hposition, h] at hp
  cases hp

theorem claimOf_later {m m' : Movement} (h : m.Later m') (hm : m.status ≠ .failed) (hm' : m'.status ≠ .failed) :
    claimOf positionId m' = claimOf positionId m := by
  have hcolumns : (m'.positionId, m'.createsShareAccount, m'.age, m'.shareAtaRentFunder) =
      (m.positionId, m.createsShareAccount, m.age, m.shareAtaRentFunder) :=
    h.column (fun m => (m.positionId, m.createsShareAccount, m.age, m.shareAtaRentFunder)) fun _ => rfl
  simp only [Prod.mk.injEq] at hcolumns
  obtain ⟨hposition, hcreates, hage, hfunder⟩ := hcolumns
  simp [claimOf, Movement.claims, hposition, hcreates, hage, hfunder, hm, hm']

theorem claimOf_of_ne {m : Movement} (h : m.positionId ≠ positionId) : claimOf positionId m = none := by
  simp [claimOf, Movement.claims, h]

end

/-! ## What holds of every state -/

/-- What a call has of the position and of its claims, at each stage. -/
def StageFunded (s : System) (c : Call) : Stage → Prop
  | .insert _ | .resolve | .update _ => ∀ p, c.position = some p → Funded s.movements p.id p.shareAtaRentFunder
  | .projecting funder version => ∀ m, c.movement = some m →
    (∀ p, c.position = some p → p.version = version →
      Funded (s.movements.upsert m) m.positionId funder) ∧
    (c.position = none → ∀ p, s.positions.find? m.positionId = some p → version ≤ p.version ∧
      (p.version = version → Funded (s.movements.upsert m) m.positionId funder))
  | .activate | .commit _ => ∀ p, c.position = some p →
    Funded (c.movement.elim s.movements s.movements.upsert) p.id p.shareAtaRentFunder ∧
    ∀ p₀, s.positions.find? p.id = some p₀ → p.version = p₀.version →
      SameClaims s.movements (c.movement.elim s.movements s.movements.upsert) p.id
  | _ => True

structure Funds (s : System) : Prop where
  position : ∀ id p, s.positions.find? id = some p → Funded s.movements id p.shareAtaRentFunder
  version : ∀ n p p₀, (s.calls n).position = some p → s.positions.find? p.id = some p₀ → p₀.version ≤ p.version
  stage : ∀ n, StageFunded s (s.calls n) (s.calls n).stage

/-- No projection finds the position in another version than it has seen. -/
def undisturbed (s : System) : Step → Bool
  | .next n =>
    match (s.calls n).stage, (s.calls n).movement with
    | .projecting _ version, some m => (s.visiblePosition n m.positionId).all fun p => p.version = version
    | _, _ => true
  | .abort _ => true

/-! ## Claims after a step -/

theorem Draft.sameClaims {m : Movement} (h : Draft s n m) {positionId : Nat}
    (hne : m.positionId ≠ positionId) : SameClaims s.movements (s.movements.upsert m) positionId := by
  refine sameClaims_upsert ?_
  rw [claimOf_of_ne hne, claimAt]
  cases hm₀ : s.movements.find? m.id with
  | none => rfl
  | some m₀ =>
    have hposition := (h.later hm₀).positionId
    exact (claimOf_of_ne (by rwa [hposition] at hne)).symm

theorem claims_of_move (hs : Wf s) (hf : Funds s) (h : Move s k t) (positionId : Nat) :
    SameClaims s.movements t.movements positionId ∨
      ∃ p, (s.calls k).position = some p ∧ p.id = positionId ∧ t.positions.find? positionId = some p ∧
        ∀ p₀, s.positions.find? positionId = some p₀ → p₀.version < p.version := by
  cases h with
  | @commit result hstage =>
    change SameClaims s.movements (s.visible k) positionId ∨ ∃ p, (s.calls k).position = some p ∧ p.id = positionId ∧
      ((s.calls k).position.elim s.positions s.positions.upsert).find? positionId = some p ∧ _
    unfold System.visible
    cases hm : (s.calls k).movement with
    | none => exact .inl fun _ => rfl
    | some m =>
      have hdraft := (hs.owns k).draft m hm
      rw [Option.elim_some]
      by_cases hne : m.positionId = positionId
      · subst hne
        obtain ⟨p, hp, hhome⟩ := hs.position_of_commit hstage hm
        have hid := Position.identifies_id hhome
        have hfunded := hf.stage k
        rw [hstage] at hfunded
        obtain ⟨-, hsame⟩ := hfunded p hp
        rw [hm, Option.elim_some] at hsame
        by_cases hversion : ∃ p₀, s.positions.find? p.id = some p₀ ∧ p.version = p₀.version
        · obtain ⟨p₀, hp₀, hversion⟩ := hversion
          exact .inl (hid ▸ hsame p₀ hp₀ hversion)
        · refine .inr ⟨p, hp, hid, ?_, fun p₀ hp₀ => ?_⟩
          · rw [hp, Option.elim_some, Table.find?_upsert, if_pos hid.symm]
          · rw [← hid] at hp₀
            have hle := hf.version k p p₀ hp hp₀
            have hne : p.version ≠ p₀.version := fun h => hversion ⟨p₀, hp₀, h⟩
            omega
      · exact .inl (hdraft.sameClaims hne)
  | @advanceAlone m input hadvances hactive hbare hm hadmitted hfree =>
    refine .inl (sameClaims_upsert ?_)
    rw [claimAt, Movement.advance_id, hm, Option.bind_some]
    exact claimOf_later hadmitted.later hadmitted.not_final.2 nofun
  | @insertCustodial input p minted hrequest hstage =>
    have hactive : (s.calls k).stage.ended = false := by rw [hstage]; rfl
    refine .inl (sameClaims_upsert ?_)
    have hfresh : s.movements.find? (input.movement k p.id).id = none := hs.fresh_movement hactive
    rw [claimAt, hfresh]
    simp [claimOf, Movement.claims, CustodialIntent.movement]
  | _ => exact .inl fun _ => rfl

theorem position_of_move (hs : Wf s) (h : Move s k t) {id : Nat} {p : Position}
    (hp : t.positions.find? id = some p) :
    s.positions.find? id = some p ∨
      (∃ result, (s.calls k).stage = .commit result ∧ (s.calls k).position = some p ∧ p.id = id ∧
        t.movements = s.visible k) ∨
      (s.positions.find? id = none ∧ p.shareAtaRentFunder = none ∧ t.movements = s.movements) := by
  cases h with
  | @commit result hstage =>
    have hp : ((s.calls k).position.elim s.positions s.positions.upsert).find? id = some p := hp
    cases hown : (s.calls k).position with
    | none => exact .inl (by simpa [hown] using hp)
    | some p' =>
      rw [hown, Option.elim_some, Table.find?_upsert] at hp
      split at hp
      · next hid =>
        cases hp
        exact .inr (.inl ⟨result, hstage, rfl, hid.symm, rfl⟩)
      · exact .inl hp
  | @mint input program hrequest hstage =>
    have hp : (s.positions.upsert (program.position k input.providerWalletId)).find? id = some p := hp
    rw [Table.find?_upsert] at hp
    split at hp
    · next hid =>
      cases hp
      have hminted : (s.calls k).stage.minted = false := by rw [hstage]; rfl
      exact .inr (.inr ⟨hid ▸ hs.fresh_position hminted, rfl, rfl⟩)
    · exact .inl hp
  | _ => exact .inl hp

theorem version_of_move (hs : Wf s) (hf : Funds s) (h : Move s k t) {id : Nat} {p₀ p : Position}
    (hp₀ : s.positions.find? id = some p₀) (hp : t.positions.find? id = some p) : p₀.version ≤ p.version := by
  rcases position_of_move hs h hp with hold | ⟨result, -, hown, hid, -⟩ | ⟨hnone, -, -⟩
  · rw [hp₀] at hold
    cases hold
    exact le_rfl
  · exact hf.version k p p₀ hown (by rw [hid, hp₀])
  · rw [hp₀] at hnone
    cases hnone

/-! ## Other calls -/

theorem sameClaims_of_own (hs : Wf s) (hf : Funds s) (h : Move s k t) (hne : n ≠ k) {p : Position}
    (hp : (s.calls n).position = some p) : SameClaims s.movements t.movements p.id := by
  rcases claims_of_move hs hf h p.id with hsame | ⟨p', hp', hid, -⟩
  · exact hsame
  · exact absurd hid.symm (hs.position_ne hne hp hp')

theorem stageFunded_frame (hs : Wf s) (hf : Funds s) (h : Move s k t) (hne : n ≠ k) :
    StageFunded t (s.calls n) (s.calls n).stage := by
  have hold := hf.stage n
  have hframe := frame_of_move hs h hne
  have hsame := fun p hp => sameClaims_of_own hs hf h hne (p := p) hp
  cases hstage : (s.calls n).stage with
  | insert | resolve | update =>
    rw [hstage] at hold
    exact fun p hp => (hsame p hp).funded (hold p hp)
  | activate | commit =>
    rw [hstage] at hold
    intro p hp
    obtain ⟨hfunded, hclaims⟩ := hold p hp
    have hview := (hsame p hp).view (s.calls n).movement
    refine ⟨hview.funded hfunded, fun p₀ hp₀ hversion => ?_⟩
    rw [hframe.position p hp] at hp₀
    exact (hsame p hp).symm.trans ((hclaims p₀ hp₀ hversion).trans hview)
  | projecting funder version =>
    rw [hstage] at hold
    intro m hm
    obtain ⟨hown, hcommitted⟩ := hold m hm
    refine ⟨fun p hp hversion => ?_, fun hnone p hp => ?_⟩
    · have hid := Position.identifies_id ((hs.owns n).placed m p hm hp)
      exact ((hid ▸ hsame p hp).upsert m).funded (hown p hp hversion)
    · obtain ⟨p₀, hp₀, -⟩ := (hs.owns n).housed m hm hnone
      obtain ⟨hseen, hfunded⟩ := hcommitted hnone p₀ hp₀
      have hle := version_of_move hs hf h hp₀ hp
      refine ⟨hseen.trans hle, fun hversion => ?_⟩
      rcases claims_of_move hs hf h m.positionId with hsame | ⟨p', -, -, hp', hlt⟩
      · exact (hsame.upsert m).funded (hfunded (by omega))
      · rw [hp] at hp'
        cases hp'
        have := hlt p₀ hp₀
        omega
  | _ => trivial

/-! ## The call that moves -/

theorem version_deactivate (p : Position) (rows : List Movement) : p.version ≤ (p.deactivate rows).version := by
  unfold Position.deactivate
  split
  · exact Nat.le_succ _
  · exact le_rfl

theorem version_own (hs : Wf s) (hf : Funds s) (h : Move s n t) {p p₀ : Position} (hp : (t.calls n).position = some p)
    (hp₀ : t.positions.find? p.id = some p₀) : p₀.version ≤ p.version := by
  have hold := hf.version n
  cases h with
  | gaveUp | mismatched | answered | custodialAnswered | advanceAlone | insertCustodial => simp at hp
  | commit => simp [System.commit] at hp
  | mint hrequest hstage =>
    have hwf := hs.stage n
    rw [hstage] at hwf
    rw [call_goto_self] at hp
    cases hwf.2.symm.trans hp
  | replaying | goOn | lost | project =>
    rw [call_goto_self] at hp
    exact hold p p₀ hp hp₀
  | claimNew hrequest hstage =>
    rw [call_setCall_self] at hp
    cases hp
    have hminted : (s.calls n).stage.minted = false := by rw [hstage]; rfl
    cases (hs.fresh_position hminted).symm.trans hp₀
  | claimOld hrequest hstage hfind =>
    rw [call_setCall_self] at hp
    cases hp
    cases hfind.symm.trans hp₀
    exact Nat.le_succ _
  | insert =>
    rw [call_setCall_self] at hp
    exact hold p p₀ hp hp₀
  | fundOwn hstage hm hown =>
    rw [call_setCall_self] at hp
    cases hp
    exact (hold _ p₀ hown hp₀).trans (Nat.le_succ _)
  | fund hstage hm hnone hfind =>
    rw [call_setCall_self] at hp
    cases hp
    cases hfind.symm.trans hp₀
    exact Nat.le_succ _
  | lock hstage hfind =>
    rw [call_setCall_self] at hp
    cases hp
    cases hfind.symm.trans hp₀
    exact le_rfl
  | update hstage hm hadmitted hown =>
    rw [call_setCall_self] at hp
    cases hp
    exact hold p p₀ hown hp₀
  | deactivate hstage hm hown =>
    rw [call_setCall_self] at hp
    cases hp
    rw [(Position.same_deactivate _ _).id] at hp₀
    exact (hold _ p₀ hown hp₀).trans (version_deactivate _ _)
  | activate hstage hm hown =>
    rw [call_setCall_self] at hp
    cases hp
    exact (hold _ p₀ hown hp₀).trans (Nat.le_succ _)

theorem sameClaims_advance {m : Movement} {input : AdvanceInput} {status : Status}
    (hm : s.movements.find? m.id = some m) (hadmitted : Admitted m input status) (hstatus : status ≠ .failed)
    (positionId : Nat) : SameClaims s.movements (s.movements.upsert (m.advance input status)) positionId := by
  refine sameClaims_upsert ?_
  rw [claimAt, Movement.advance_id, hm, Option.bind_some]
  exact claimOf_later hadmitted.later hadmitted.not_final.2 hstatus

theorem stageFunded_next {a : Advance} {m : Movement} {p : Position} {c : Call}
    (hm : s.movements.find? m.id = some m) (hadmitted : Admitted m a.input a.status)
    (hfunded : Funded s.movements p.id p.shareAtaRentFunder) (hrows : t.movements = s.movements)
    (hmovement : c.movement = some (m.advance a.input a.status)) (hposition : c.position = some p) :
    StageFunded t c (a.next (m.advance a.input a.status)) := by
  have hready : a.status ≠ .failed → ∀ p', c.position = some p' →
      Funded (c.movement.elim t.movements t.movements.upsert) p'.id p'.shareAtaRentFunder ∧
      ∀ p₀, t.positions.find? p'.id = some p₀ → p'.version = p₀.version →
        SameClaims t.movements (c.movement.elim t.movements t.movements.upsert) p'.id := by
    intro hstatus p' hp'
    rw [hposition] at hp'
    cases hp'
    have hsame := sameClaims_advance hm hadmitted hstatus p.id
    rw [hmovement, hrows, Option.elim_some]
    exact ⟨hsame.funded hfunded, fun _ _ _ => hsame⟩
  unfold Advance.next
  split
  · trivial
  · next hstatus => split <;> exact hready hstatus

theorem stageFunded_none (stage stage' : Stage) : StageFunded s ⟨stage, none, none⟩ stage' := by
  cases stage' <;> simp [StageFunded]

theorem version_of_undisturbed (hok : undisturbed s (.next n) = true) {m : Movement} {p : Position}
    {funder : Option String} {version : Nat} (hstage : (s.calls n).stage = .projecting funder version)
    (hm : (s.calls n).movement = some m) (hp : s.visiblePosition n m.positionId = some p) : p.version = version := by
  simpa [undisturbed, hstage, hm, hp] using hok

theorem stageFunded_commit {m : Movement} {p : Position} {result : Result} {stage : Stage}
    (hfunded : Funded (s.movements.upsert m) p.id p.shareAtaRentFunder)
    (hversion : ∀ p₀, s.positions.find? p.id = some p₀ → p₀.version < p.version)
    (hmovements : t.movements = s.movements) (hpositions : t.positions = s.positions) :
    StageFunded t ⟨stage, some m, some p⟩ (.commit result) := by
  rintro _ ⟨⟩
  rw [hmovements, hpositions]
  refine ⟨hfunded, fun p₀ hp₀ heq => ?_⟩
  have := hversion p₀ hp₀
  omega

theorem stageFunded_of_move (hs : Wf s) (hf : Funds s) (h : Move s n t) (hok : undisturbed s (.next n) = true) :
    StageFunded t (t.calls n) (t.calls n).stage := by
  have hold := hf.stage n
  have hwf := hs.stage n
  cases h with
  | gaveUp | mismatched | answered | custodialAnswered | advanceAlone | insertCustodial => simp [StageFunded]
  | commit => simp [System.commit, StageFunded]
  | mint => simp [StageFunded]
  | insert => simp [StageFunded]
  | deactivate => simp [StageFunded]
  | goOn hbare hactive hstage =>
    obtain ⟨hm, hp⟩ := hs.rows_of_bare hbare
    rw [call_goto_self, hm, hp]
    exact stageFunded_none _ _
  | replaying hrequest hstage =>
    rw [hstage] at hold hwf
    rw [call_goto_self]
    intro p hp
    have hnone : (s.calls n).movement = none := hwf
    rw [hnone]
    exact ⟨hold p hp, fun _ _ _ _ => rfl⟩
  | lost _ hstage =>
    rw [hstage] at hold
    rw [call_goto_self]
    exact hold
  | claimNew hrequest hstage =>
    have hminted : (s.calls n).stage.minted = false := by rw [hstage]; rfl
    rw [call_setCall_self]
    rintro _ ⟨⟩
    exact funded_none_of_fresh hs (hs.fresh_position hminted)
  | claimOld hrequest hstage hp =>
    have hfunded := hf.position _ _ hp
    rw [call_setCall_self]
    rintro _ ⟨⟩
    exact hfunded
  | lock hstage hp =>
    rw [call_setCall_self]
    rintro _ ⟨⟩
    exact hf.position _ _ hp
  | update hstage hm hadmitted hp hid =>
    rw [hstage] at hold
    rw [call_setCall_self]
    exact stageFunded_next hm hadmitted (hold _ hp) rfl rfl rfl
  | @project m p hstage hm hp =>
    have hview : s.visible n = s.movements.upsert m := by simp [System.visible, hm]
    have hfunded := funded_projectedFunder (s.visible n) m.positionId
    rw [call_goto_self]
    intro m' hm'
    obtain rfl : m = m' := Option.some.inj (hm.symm.trans hm')
    refine ⟨fun _ _ _ => hview ▸ hfunded, fun hnone p' hp' => ?_⟩
    have hnone : (s.calls n).position = none := hnone
    simp only [System.visiblePosition, hnone, Option.filter_none, Option.none_or] at hp
    obtain rfl : p = p' := Option.some.inj (hp.symm.trans hp')
    exact ⟨le_rfl, fun _ => hview ▸ hfunded⟩
  | @fundOwn m p funder version hstage hm hp =>
    have hid := Position.identifies_id ((hs.owns n).placed m p hm hp)
    have hversion := version_of_undisturbed hok hstage hm (p := p) (by simp [System.visiblePosition, hp, hid])
    rw [hstage] at hold
    rw [call_setCall_self]
    refine stageFunded_commit (p := p.fund funder) ?_ (fun p₀ hp₀ => ?_) rfl rfl
    · have hfunded := (hold m hm).1 p hp hversion
      rwa [← hid] at hfunded
    · exact Nat.lt_succ_of_le (hf.version n p p₀ hp hp₀)
  | @fund m p funder version hstage hm hnone hp hid =>
    rw [hid] at hp
    have hversion := version_of_undisturbed hok hstage hm (p := p) (by simp [System.visiblePosition, hnone, hp])
    rw [hstage] at hold
    rw [call_setCall_self]
    refine stageFunded_commit (s := s) (p := p.fund funder) ?_ (fun p₀ hp₀ => ?_) rfl rfl
    · have hfunded := ((hold m hm).2 hnone p hp).2 hversion
      rwa [← hid] at hfunded
    · rw [← hid] at hp
      cases hp.symm.trans hp₀
      exact Nat.lt_succ_self _
  | @activate m p hstage hm hp =>
    rw [hstage] at hold
    have hfunded := (hold p hp).1
    rw [hm, Option.elim_some] at hfunded
    rw [call_setCall_self]
    exact stageFunded_commit (p := p.activate) hfunded
      (fun p₀ hp₀ => Nat.lt_succ_of_le (hf.version n p p₀ hp hp₀)) rfl rfl

theorem funds_of_move (hs : Wf s) (hf : Funds s) (h : Move s n t)
    (hstage : StageFunded t (t.calls n) (t.calls n).stage) : Funds t where
  position id p hp := by
    rcases position_of_move hs h hp with hold | ⟨result, hstage, hown, rfl, hrows⟩ | ⟨hnone, hfunder, hrows⟩
    · rcases claims_of_move hs hf h id with hsame | ⟨p', -, -, hp', hlt⟩
      · exact hsame.funded (hf.position id p hold)
      · rw [hp] at hp'
        cases hp'
        exact absurd (hlt p hold) (lt_irrefl _)
    · have hfunded := hf.stage n
      rw [hstage] at hfunded
      rw [hrows]
      exact (hfunded p hown).1
    · rw [hrows, hfunder]
      exact funded_none_of_fresh hs hnone
  version k p p₀ hp hp₀ := by
    by_cases hk : k = n
    · subst hk
      exact version_own hs hf h hp hp₀
    · rw [call_of_move h hk] at hp
      rw [(frame_of_move hs h hk).position p hp] at hp₀
      exact hf.version k p p₀ hp hp₀
  stage k := by
    by_cases hk : k = n
    · subst hk
      exact hstage
    · rw [call_of_move h hk]
      exact stageFunded_frame hs hf h hk

theorem funds_initial (h : s.Initial) : Funds s where
  position := by simp [h.positions]
  version := by simp [h.calls]
  stage n := by
    rw [h.calls n]
    exact stageFunded_none _ _

theorem funds_of_step (hs : Wf s) (hf : Funds s) {l : Step} (hok : undisturbed s l = true)
    (ht : s.step l = some t) : Funds t := by
  have hmove := move_of_step hs ht
  cases l with
  | next n => exact funds_of_move hs hf hmove (stageFunded_of_move hs hf hmove hok)
  | abort n =>
    refine funds_of_move hs hf hmove ?_
    simp only [System.step, System.abort] at ht
    split at ht <;> cases ht
    simp [Step.call, StageFunded]

/-- In every run in which each projection finds the position in the version that it has seen, the position names at
all times the funder of the newest committed movement that creates its share account and has not failed, and nobody
when there is none. -/
theorem funder_of_newest_claim (h : Reachable System.step System.Initial (fun s l => undisturbed s l = true) s) :
    ∀ id p, s.positions.find? id = some p →
      (∀ m ∈ s.movements.rows, m.claims id = true →
        (∀ m' ∈ s.movements.rows, m'.claims id = true → m'.age ≤ m.age) →
          p.shareAtaRentFunder = m.shareAtaRentFunder) ∧
      ((∀ m ∈ s.movements.rows, m.claims id = false) → p.shareAtaRentFunder = none) := by
  have hf : Funds s := h.invariant (P := Funds) (fun _ => funds_initial) fun _ _ _ hreach hf hok ht =>
    funds_of_step (wf_of_reachable hreach) hf hok ht
  intro id p hp
  obtain ⟨hnewest, hnone⟩ := hf.position id p hp
  refine ⟨fun m hm hclaims hmax => ?_, fun hall => hnone ?_⟩
  · refine hnewest ⟨m.age, m.shareAtaRentFunder⟩ ⟨mem_claimsAt hm hclaims, fun e he => ?_⟩
    obtain ⟨m', hm', hclaims', rfl⟩ := exists_of_mem_claimsAt he
    exact hmax m' hm' hclaims'
  · refine Set.eq_empty_of_forall_notMem fun e he => ?_
    obtain ⟨m, hm, hclaims, -⟩ := exists_of_mem_claimsAt he
    rw [hall m hm] at hclaims
    cases hclaims

/-- A withdrawal that claims to have paid the rent fails, and the position goes back to the funder of the deposit. -/
theorem failed_withdrawal_drops_out :
    ∃ s p m, Reachable System.step System.Initial (fun s l => undisturbed s l = true) s ∧
      s.positions.find? 0 = some p ∧ p.shareAtaRentFunder = some "sponsor" ∧ m ∈ s.movements.rows ∧
      m.claims 0 = true ∧ (∀ m' ∈ s.movements.rows, m'.claims 0 = true → m'.age ≤ m.age) ∧
      p.shareAtaRentFunder = m.shareAtaRentFunder := by
  let requests : Nat → Request
    | 0 => .vault (.deposit someDeposit)
    | 1 => .vault (.withdrawal someWithdrawal)
    | _ => .advance (someAdvance 1 .failed)
  have hrun : ((run (fun u l => if undisturbed u l then u.step l else none) (.fresh requests fun _ => none)
      (List.replicate 6 (.next 0) ++ List.replicate 5 (.next 1) ++ List.replicate 7 (.next 2))).bind fun s =>
        (s.positions.find? 0).bind fun p => (s.movements.find? 0).map fun m =>
          (p.shareAtaRentFunder, m.claims 0,
            decide (∀ m' ∈ s.movements.rows, m'.claims 0 = true → m'.age ≤ m.age))) =
        some (some "sponsor", true, true) := by rfl
  obtain ⟨s, hs, hrest⟩ := Option.bind_eq_some_iff.mp hrun
  obtain ⟨p, hp, hrest⟩ := Option.bind_eq_some_iff.mp hrest
  obtain ⟨m, hm, hvalues⟩ := Option.map_eq_some_iff.mp hrest
  simp only [Prod.mk.injEq, decide_eq_true_eq] at hvalues
  obtain ⟨hfunder, hclaims, hmax⟩ := hvalues
  have hreach := (Reachable.start (System.fresh_initial requests fun _ => none)).run_checked hs
  have hmem := (Table.find?_eq_some_iff.mp hm).1
  exact ⟨s, p, m, hreach, hp, hfunder, hmem, hclaims, hmax,
    (funder_of_newest_claim hreach 0 p hp).1 m hmem hclaims hmax⟩

/-- A deposit that begins after a withdrawal is newer. The withdrawal's projection starts before the deposit commits
and waits for it, and then writes what it had seen: all three calls are over, and the position names the funder of the
older claim. -/
theorem waiting_projection_is_stale :
    (run System.step
      (.fresh (fun
        | 0 => .vault (.deposit someDeposit)
        | 1 => .vault (.withdrawal someWithdrawal)
        | _ => .vault (.deposit { someDeposit with requestId := "again", signature := "again", now := 4 }))
        fun _ => none)
      (List.replicate 6 (.next 0) ++ [.next 1, .next 1, .next 2, .next 2, .next 2, .next 2, .next 2, .next 1, .next 2,
        .next 1, .next 1])).map (fun s =>
          ([(s.calls 0).stage.ended, (s.calls 1).stage.ended, (s.calls 2).stage.ended],
            (s.positions.find? 0).map Position.shareAtaRentFunder, projectedFunder s.movements.rows 0)) =
      some ([true, true, true], some (some "wallet"), some "sponsor") := by rfl

end Sdp.Earn
