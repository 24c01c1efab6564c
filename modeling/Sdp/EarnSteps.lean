import Sdp.EarnTransitions

/-!
# Steps on the Earn ledger

What one step can do, given what holds of every state: which rows a call has written and not committed, that it has
them locked, and what is left alone by the steps of others.
-/

open Sdp.Lib

namespace Sdp.Earn

/-! ## Later versions of a row -/

/-- A later version of a row: a terminal one stays, and the chain never takes back a commitment. -/
structure Movement.Later (m m' : Movement) : Prop where
  identity : m'.identity = m.identity
  terminal : m.status.terminal = true → m' = m
  committed : m.status.committed = true → m'.status.committed = true

namespace Movement.Later

variable {m m' : Movement}

instance : Std.Refl Movement.Later := ⟨fun _ => ⟨rfl, fun _ => rfl, fun h => h⟩⟩

instance : IsTrans Movement Movement.Later where
  trans m₁ m₂ m₃ h h' := by
    refine ⟨h'.identity.trans h.identity, fun ht => ?_, fun hc => h'.committed (h.committed hc)⟩
    obtain rfl := h.terminal ht
    exact h'.terminal ht

theorem column {α : Type} (h : m.Later m') (f : Movement → α) (hf : ∀ m, f m.identity = f m) : f m' = f m := by
  rw [← hf m', ← hf m, h.identity]

theorem positionId (h : m.Later m') : m'.positionId = m.positionId := h.column _ fun _ => rfl

theorem identified (h : m.Later m') (p : Position) : p.identifies m' = p.identifies m :=
  h.column (fun m => p.identifies m) fun _ => rfl

end Movement.Later

theorem Admitted.later {m : Movement} {input : AdvanceInput} {status : Status} (h : Admitted m input status) :
    m.Later (m.advance input status) := by
  refine ⟨rfl, fun hterminal => ?_, fun hcommitted => ?_⟩
  · rw [not_terminal_of_source h.source] at hterminal
    cases hterminal
  · by_contra hstatus
    have hne : status ≠ .finalized := by
      rintro rfl
      exact hstatus rfl
    rw [not_committed_of_source h.source hne] at hcommitted
    cases hcommitted

/-- The columns of a position that no statement changes. -/
def Position.identity (p : Position) : Position :=
  { p with label := "", activated := false, closed := false, shareAtaRentFunder := none, version := 0 }

def Position.Same (p p' : Position) : Prop := p'.identity = p.identity

namespace Position.Same

instance : Std.Refl Position.Same := ⟨fun _ => rfl⟩

instance : IsTrans Position Position.Same := ⟨fun _ _ _ h h' => h'.trans h⟩

variable {p p' : Position}

theorem identifies (h : p.Same p') (m : Movement) : p'.identifies m = p.identifies m := by
  have hcolumns : ∀ p : Position, p.identity.identifies m = p.identifies m := fun _ => rfl
  rw [← hcolumns p', ← hcolumns p, h]

theorem id (h : p.Same p') : p'.id = p.id := by
  have hcolumns : ∀ p : Position, p.identity.id = p.id := fun _ => rfl
  rw [← hcolumns p', ← hcolumns p, h]

end Position.Same

theorem Position.Same.columns {p p' : Position} (h : p.Same p') :
    p'.holding = p.holding ∧ p'.organizationId = p.organizationId := by
  have hcolumns : ∀ p : Position, (p.identity.holding, p.identity.organizationId) = (p.holding, p.organizationId) :=
    fun _ => rfl
  have heq := hcolumns p'
  rw [h, hcolumns p] at heq
  simpa only [Prod.mk.injEq, eq_comm] using heq

theorem Position.same_fund (p : Position) (funder : Option String) : p.Same (p.fund funder) := rfl

theorem Position.same_activate (p : Position) : p.Same p.activate := rfl

theorem Position.same_deactivate (p : Position) (rows : List Movement) : p.Same (p.deactivate rows) := by
  unfold Position.deactivate
  split <;> rfl

theorem Position.identifies_id {p : Position} {m : Movement} (h : p.identifies m = true) : p.id = m.positionId := by
  simp only [Position.identifies, Bool.and_eq_true, decide_eq_true_eq] at h
  exact h.1.1.1.1

/-! ## What holds of every state -/

namespace Stage

/-- Its call holds no rows. -/
def bare : Stage → Bool
  | .idle | .claim | .advance _ | .lock _ | .insertCustodial _ | .mint | .recover | .done _ => true
  | _ => false

def ended : Stage → Bool
  | .done _ => true
  | _ => false

/-- Its call is about to end, or has ended. -/
def closing : Stage → Bool
  | .commit _ | .done _ => true
  | _ => false

/-- Its call may have put a position into the table. -/
def minted : Stage → Bool
  | .insertCustodial minted => minted
  | .recover | .done _ => true
  | _ => false

end Stage

/-- The stages that the calls of a request go through. -/
def Request.fits : Request → Stage → Bool
  | _, .idle | _, .done _ => true
  | .vault _, .claim | .vault _, .insert _ | .vault _, .resolve => true
  | .custodial _, .insertCustodial _ | .custodial _, .mint | .custodial _, .recover => true
  | .custodial _, _ => false
  | _, .project | _, .projecting _ _ | _, .commit _ => true
  | .vault _, _ => false
  | _, .advance _ | _, .lock _ | _, .update _ | _, .deactivate | _, .activate => true
  | _, _ => false

/-- The request is for an advance. -/
def Request.advances : Request → Bool
  | .advance _ | .reconcile _ _ => true
  | _ => false

theorem Request.fits_of_advances {r : Request} (h : r.advances = true) (a : Advance) (row : Movement) :
    r.fits (a.next row) = true := by
  unfold Advance.next
  cases r with
  | vault | custodial => cases h
  | advance | reconcile => split <;> [rfl; (split <;> rfl)]

section

variable (s : System) (n : Nat)

/-- The movement that a call has written is its intent's, or an advance of the row that is committed. -/
inductive Draft (m : Movement) : Prop
  | intent (intent : VaultIntent) (positionId : Nat) (hrequest : s.requests n = .vault intent)
      (hm : m = intent.vaultMovement n positionId) (hchecks : m.checks = true) (hfresh : s.movements.find? n = none)
  | advance (m₀ : Movement) (input : AdvanceInput) (status : Status) (hm₀ : s.movements.find? m.id = some m₀)
      (hadmitted : Admitted m₀ input status) (hm : m = m₀.advance input status)

/-- The position that a call has locked is its own new one, or a version of the one that is committed. -/
inductive Based (p : Position) : Prop
  | new (hid : p.id = n) (hfresh : s.positions.find? n = none) (hvault : ∀ wallet, p.holding ≠ .program wallet)
  | old (p₀ : Position) (hp₀ : s.positions.find? p.id = some p₀) (hsame : p₀.Same p)

/-- The rows of a call: they are locked, and the position is that of the movement. -/
structure Owns (movement : Option Movement) (position : Option Position) : Prop where
  movementLock : ∀ m, movement = some m → s.locks (.movement m.id) = some n
  positionLock : ∀ p, position = some p → s.locks (.position p.id) = some n
  draft : ∀ m, movement = some m → Draft s n m
  based : ∀ p, position = some p → Based s n p
  placed : ∀ m p, movement = some m → position = some p → p.identifies m = true
  housed : ∀ m, movement = some m → position = none →
    ∃ p, s.positions.find? m.positionId = some p ∧ p.identifies m = true

end

/-- The row that an advance has read, and what it asks for. -/
structure Aims (s : System) (a : Advance) : Prop where
  row : ∃ m, s.movements.find? a.input.movementId = some m ∧ m.positionId = a.positionId
  accepted : a.input.Accepted
  toStatus : a.input.toStatus = some a.status

/-- Which rows a call holds at a stage. -/
def StageWf (s : System) (c : Call) : Stage → Prop
  | .insert positionId => c.movement = none ∧ ∀ p, c.position = some p → p.id = positionId
  | .resolve => c.movement = none
  | .project | .projecting _ _ => ∃ m, c.movement = some m
  | .deactivate | .activate => ∃ m p, c.movement = some m ∧ c.position = some p
  | .commit (.written row) => c.movement = some row ∧ ∃ p, c.position = some p
  | .commit (.replayed _) => c.movement = none
  | .commit _ => False
  | .lock a => c.movement = none ∧ c.position = none ∧ Aims s a
  | .update a => c.movement = none ∧ Aims s a ∧ ∃ p, c.position = some p ∧ p.id = a.positionId
  | _ => c.movement = none ∧ c.position = none

structure Wf (s : System) : Prop where
  sound : ∀ k m, s.movements.find? k = some m → m.Sound
  entered : ∀ k m, s.movements.find? k = some m → (s.calls k).stage.ended = true
  housed : ∀ k m, s.movements.find? k = some m → ∃ p, s.positions.find? m.positionId = some p ∧ p.identifies m = true
  minted : ∀ k p, s.positions.find? k = some p → (s.calls k).stage.minted = true
  owns : ∀ n, Owns s n (s.calls n).movement (s.calls n).position
  stage : ∀ n, StageWf s (s.calls n) (s.calls n).stage
  fits : ∀ n, (s.requests n).fits (s.calls n).stage = true

/-! ## What one step can do -/

/-- A result that is no answer about the row of a request. -/
def Result.silent : Result → Bool
  | .written _ | .replayed _ | .conflict _ => false
  | _ => true

/-- A result that no intent is to have. -/
def Result.lost : Result → Bool
  | .missed | .failed _ => true
  | _ => false

/-- What a call has found when it comes to a stage. -/
def Finds (s : System) : Request → Stage → Prop
  | .vault intent, .resolve =>
    ∃ row, s.findVaultMovementByRequest intent.common.organizationId intent.common.requestId = some row
  | .custodial input, .insertCustodial true => ∃ p, s.findProgramPosition input.providerWalletId = some p
  | .custodial input, .recover => ∃ p m, s.findProgramPosition input.providerWalletId = some p ∧
      s.movements.find? m.id = some m ∧ m.positionId = p.id ∧ m.requestId = input.requestId ∧
      m.executionModel = .custodial
  | _, _ => True

/-- What an intent does not find when it ends without an answer. -/
def Loses (s : System) : Request → Stage → Prop
  | .vault intent, stage => stage = .resolve ∧
      s.findVaultMovementByRequest intent.common.organizationId intent.common.requestId = none
  | .custodial input, stage => s.programs input.providerWalletId = none ∨
      (stage = .insertCustodial true ∧ s.findProgramPosition input.providerWalletId = none) ∨
      stage = .recover ∧ s.findCustodialMovementByRequestId input = none
  | _, _ => True

inductive Move (s : System) (n : Nat) : System → Prop
  /-- The call ends without a row. -/
  | gaveUp {result : Result} (hactive : (s.calls n).stage.ended = false) (hsilent : result.silent = true)
      (hcheck : result = .refused .check → (∃ intent, s.requests n = .vault intent) ∨
        ∃ input, s.requests n = .custodial input)
      (hlost : result.lost = true → Loses s (s.requests n) (s.calls n).stage) :
      Move s n (s.finish n result)
  | mismatched {input : DepositIntent} (hrequest : s.requests n = .vault (.deposit input))
      (hstage : (s.calls n).stage = .claim) : Move s n (s.finish n (.conflict VaultIntent.positionMismatch))
  | answered {intent : VaultIntent} {prior : Movement} (hrequest : s.requests n = .vault intent)
      (hactive : (s.calls n).stage.ended = false)
      (hprior : s.findVaultMovementByRequest intent.common.organizationId intent.common.requestId = some prior) :
      Move s n (s.finish n (s.resolveReplay intent prior))
  | replaying {intent : VaultIntent} {prior row : Movement} (hrequest : s.requests n = .vault intent)
      (hstage : (s.calls n).stage = .resolve)
      (hprior : s.findVaultMovementByRequest intent.common.organizationId intent.common.requestId = some prior)
      (hreplay : s.resolveReplay intent prior = .replayed row) : Move s n (s.goto n (.commit (.replayed row)))
  | custodialAnswered {input : CustodialIntent} {existing : Movement} (hrequest : s.requests n = .custodial input)
      (hactive : (s.calls n).stage.ended = false)
      (hfind : s.findCustodialMovementByRequestId input = some existing) :
      Move s n (s.finish n (System.resolveCustodial input existing))
  /-- A call that holds no rows goes on. -/
  | goOn {stage : Stage} (hbare : (s.calls n).stage.bare = true) (hactive : (s.calls n).stage.ended = false)
      (hstage : StageWf s ⟨stage, none, none⟩ stage) (hopen : stage.closing = false)
      (hfits : (s.requests n).fits stage = true) (hfinds : Finds s (s.requests n) stage)
      (hminted : (s.calls n).stage.minted = true → stage.minted = true) : Move s n (s.goto n stage)
  | lost {intent : VaultIntent} {positionId : Nat} {row : Movement} (hrequest : s.requests n = .vault intent)
      (hstage : (s.calls n).stage = .insert positionId)
      (hkey : s.findVaultMovementByRequest intent.common.organizationId intent.common.requestId = some row) :
      Move s n (s.goto n .resolve)
  | claimNew {input : DepositIntent} (hrequest : s.requests n = .vault (.deposit input))
      (hstage : (s.calls n).stage = .claim) (hfree : s.locks.free n (System.claimEntries n input) = true) :
      Move s n ((s.take n (System.claimEntries n input)).setCall n ⟨.insert n, none, some (input.position n)⟩)
  | claimOld {input : DepositIntent} {p : Position} (hrequest : s.requests n = .vault (.deposit input))
      (hstage : (s.calls n).stage = .claim) (hp : s.positions.find? p.id = some p)
      (hfree : s.locks.free n [.position p.id] = true) :
      Move s n ((s.take n [.position p.id]).setCall n ⟨.insert p.id, none, some (p.refresh input.label)⟩)
  | insert {intent : VaultIntent} {positionId : Nat} {row : Movement} (hrequest : s.requests n = .vault intent)
      (hstage : (s.calls n).stage = .insert positionId) (hrow : row = intent.vaultMovement n positionId)
      (hchecks : row.checks = true)
      (hkey : s.findVaultMovementByRequest intent.common.organizationId intent.common.requestId = none)
      (hfree : s.locks.free n (System.entries n intent.common) = true)
      (hhome : ∃ p, s.visiblePosition n row.positionId = some p ∧ p.identifies row = true) :
      Move s n ((s.take n (System.entries n intent.common)).setCall n ⟨.project, some row, (s.calls n).position⟩)
  | project {m : Movement} {p : Position} (hstage : (s.calls n).stage = .project) (hm : (s.calls n).movement = some m)
      (hp : s.visiblePosition n m.positionId = some p) :
      Move s n (s.goto n (.projecting (projectedFunder (s.visible n).rows m.positionId) p.version))
  | fundOwn {m : Movement} {p : Position} {funder : Option String} {version : Nat}
      (hstage : (s.calls n).stage = .projecting funder version) (hm : (s.calls n).movement = some m)
      (hp : (s.calls n).position = some p) :
      Move s n (s.setCall n ⟨.commit (.written m), some m, some (p.fund funder)⟩)
  | fund {m : Movement} {p : Position} {funder : Option String} {version : Nat}
      (hstage : (s.calls n).stage = .projecting funder version) (hm : (s.calls n).movement = some m)
      (hnone : (s.calls n).position = none) (hp : s.positions.find? p.id = some p) (hid : p.id = m.positionId)
      (hfree : s.locks.free n [.position p.id] = true) :
      Move s n ((s.take n [.position p.id]).setCall n ⟨.commit (.written m), some m, some (p.fund funder)⟩)
  | commit {result : Result} (hstage : (s.calls n).stage = .commit result) : Move s n (s.commit n result)
  | advanceAlone {m : Movement} {input : AdvanceInput} (hadvances : (s.requests n).advances = true)
      (hactive : (s.calls n).stage.ended = false)
      (hbare : (s.calls n).stage.bare = true) (hm : s.movements.find? m.id = some m)
      (hadmitted : Admitted m input .submitted) (hfree : s.locks.free n [.movement m.id] = true) :
      Move s n ({ s with movements := s.movements.upsert (m.advance input .submitted) }.finish n
        (.written (m.advance input .submitted)))
  | lock {a : Advance} {p : Position} (hstage : (s.calls n).stage = .lock a) (hp : s.positions.find? p.id = some p)
      (hid : p.id = a.positionId) (hfree : s.locks.free n [.position p.id] = true) :
      Move s n ((s.take n [.position p.id]).setCall n ⟨.update a, none, some p⟩)
  | update {a : Advance} {m : Movement} {p : Position} (hstage : (s.calls n).stage = .update a)
      (hm : s.movements.find? m.id = some m) (hadmitted : Admitted m a.input a.status)
      (hp : (s.calls n).position = some p) (hid : p.id = m.positionId)
      (hfree : s.locks.free n [.movement m.id] = true) :
      Move s n ((s.take n [.movement m.id]).setCall n
        ⟨a.next (m.advance a.input a.status), some (m.advance a.input a.status), some p⟩)
  | deactivate {m : Movement} {p : Position} (hstage : (s.calls n).stage = .deactivate)
      (hm : (s.calls n).movement = some m) (hp : (s.calls n).position = some p) :
      Move s n (s.setCall n ⟨.project, some m, some (p.deactivate (s.visible n).rows)⟩)
  | activate {m : Movement} {p : Position} (hstage : (s.calls n).stage = .activate)
      (hm : (s.calls n).movement = some m) (hp : (s.calls n).position = some p) :
      Move s n (s.setCall n ⟨.commit (.written m), some m, some p.activate⟩)
  | insertCustodial {input : CustodialIntent} {p : Position} {minted : Bool}
      (hrequest : s.requests n = .custodial input) (hstage : (s.calls n).stage = .insertCustodial minted)
      (hp : s.findProgramPosition input.providerWalletId = some p) (hchecks : (input.movement n p.id).checks = true)
      (hkey : (s.movements.rows.any fun m => m.positionId = p.id && m.requestId = input.requestId &&
        m.executionModel = .custodial) = false)
      (hhome : p.identifies (input.movement n p.id) = true) :
      Move s n ({ s with movements := s.movements.upsert (input.movement n p.id) }.finish n
        (.written (input.movement n p.id)))
  | mint {input : CustodialIntent} {program : Program} (hrequest : s.requests n = .custodial input)
      (hstage : (s.calls n).stage = .mint) (hnone : s.findProgramPosition input.providerWalletId = none)
      (hprogram : s.programs input.providerWalletId = some program) :
      Move s n ({ s with positions := s.positions.upsert (program.position n input.providerWalletId) }.goto n
        (.insertCustodial true))

/-! ## Every step is a move -/

variable {s t : System} {n : Nat}

theorem Wf.visiblePosition_of_movement (hs : Wf s) {m : Movement} (hm : (s.calls n).movement = some m) :
    ∃ p, s.visiblePosition n m.positionId = some p ∧ p.identifies m = true := by
  cases hp : (s.calls n).position with
  | none =>
    obtain ⟨p, hfind, hhome⟩ := (hs.owns n).housed m hm hp
    exact ⟨p, by simpa [System.visiblePosition, hp] using hfind, hhome⟩
  | some p =>
    have hhome := (hs.owns n).placed m p hm hp
    exact ⟨p, by simp [System.visiblePosition, hp, Position.identifies_id hhome], hhome⟩

theorem identifies_organization {p : Position} {m : Movement} (h : p.identifies m = true) :
    p.organizationId = m.organizationId := by
  simp only [Position.identifies, Bool.and_eq_true, decide_eq_true_eq] at h
  exact h.1.1.1.2

theorem move_of_findPrior {intent : VaultIntent} (hstage : (s.calls n).stage = .idle)
    (hrequest : s.requests n = .vault intent) (h : s.findPrior n intent = some t) : Move s n t := by
  unfold System.findPrior at h
  split at h
  · next prior hprior =>
    cases h
    exact .answered hrequest (by rw [hstage]; rfl) hprior
  · split at h <;> cases h
    · exact .goOn (by rw [hstage]; rfl) (by rw [hstage]; rfl) ⟨rfl, rfl⟩ rfl (by rw [hrequest]; rfl)
        (by rw [hrequest]; trivial) (by rw [hstage]; nofun)
    · exact .goOn (by rw [hstage]; rfl) (by rw [hstage]; rfl) ⟨rfl, fun _ h => absurd h.symm (Option.some_ne_none _)⟩ rfl
        (by rw [hrequest]; rfl)
        (by rw [hrequest]; trivial) (by rw [hstage]; nofun)

theorem move_of_claim {input : DepositIntent} (hstage : (s.calls n).stage = .claim)
    (hrequest : s.requests n = .vault (.deposit input)) (h : s.claimVaultPosition n input = some t) : Move s n t := by
  have hactive : (s.calls n).stage.ended = false := by rw [hstage]; rfl
  unfold System.claimVaultPosition at h
  split at h
  · cases h
    exact .mismatched hrequest hstage
  · split at h
    · cases h
    · next hfree =>
      split at h
      · cases h
        exact .claimNew hrequest hstage (by simpa using hfree)
      · next p hp =>
        split at h
        · cases h
        · next hlock =>
          split at h <;> cases h
          · have hfind := Table.mem_rows_iff.mp (List.mem_of_find?_eq_some hp)
            exact .claimOld hrequest hstage hfind (by simpa using hlock)
          · exact .mismatched hrequest hstage

theorem move_of_insert {intent : VaultIntent} {positionId : Nat} (hstage : (s.calls n).stage = .insert positionId)
    (hrequest : s.requests n = .vault intent) (h : s.insertMovement n intent positionId = some t) : Move s n t := by
  have hactive : (s.calls n).stage.ended = false := by rw [hstage]; rfl
  have hkeys : (intent.vaultMovement n positionId).organizationId = intent.common.organizationId ∧
      (intent.vaultMovement n positionId).requestId = intent.common.requestId := by cases intent <;> exact ⟨rfl, rfl⟩
  unfold System.insertMovement at h
  simp only [hkeys] at h
  split at h
  · cases h
    exact .gaveUp hactive rfl (fun _ => .inl ⟨intent, hrequest⟩) nofun
  · next hchecks =>
    split at h
    · next hkey =>
      cases h
      obtain ⟨row, hrow⟩ := Option.isSome_iff_exists.mp hkey
      exact .lost hrequest hstage hrow
    · next hkey =>
      split at h
      · cases h
      · next hfree =>
        split at h
        · cases h
          exact .gaveUp hactive rfl nofun nofun
        · split at h <;> cases h
          · exact .gaveUp hactive rfl nofun nofun
          · next hhome =>
            refine .insert hrequest hstage rfl (by simpa using hchecks) (by simpa using hkey) (by simpa using hfree) ?_
            simpa [Option.any_eq_true] using hhome

theorem move_of_resolve {intent : VaultIntent} (hstage : (s.calls n).stage = .resolve)
    (hrequest : s.requests n = .vault intent) (h : s.resolve n intent = some t) : Move s n t := by
  have hactive : (s.calls n).stage.ended = false := by rw [hstage]; rfl
  unfold System.resolve at h
  split at h
  · next hnone =>
    cases h
    refine .gaveUp hactive rfl nofun fun _ => ?_
    rw [hrequest]
    exact ⟨hstage, hnone⟩
  · next winner hwinner =>
    split at h <;> cases h
    · next row hreplay => exact .replaying hrequest hstage hwinner hreplay
    · exact .answered hrequest hactive hwinner

theorem move_of_startProjection (hs : Wf s) (hstage : (s.calls n).stage = .project)
    (h : s.startProjection n = some t) : Move s n t := by
  unfold System.startProjection at h
  split at h
  · cases h
  · next m hm =>
    obtain ⟨p, hp, hhome⟩ := hs.visiblePosition_of_movement hm
    rw [hp, Option.filter_some, if_pos (by simpa using identifies_organization hhome)] at h
    cases h
    exact .project hstage hm hp

theorem move_of_fund (hs : Wf s) {funder : Option String} {version : Nat}
    (hstage : (s.calls n).stage = .projecting funder version)
    (h : s.projectShareAccountRentFunder n funder = some t) : Move s n t := by
  unfold System.projectShareAccountRentFunder at h
  split at h
  · cases h
  · next m hm =>
    split at h
    · next p hp =>
      cases h
      exact .fundOwn hstage hm hp
    · next hnone =>
      obtain ⟨p, hp, hhome⟩ := (hs.owns n).housed m hm hnone
      have hid := Position.identifies_id hhome
      rw [hp, ← hid] at h
      split at h <;> cases h
      next hfree => exact .fund hstage hm hnone (by rw [hid, hp]) hid (by simpa using hfree)

theorem admitted_of_advanced (hs : Wf s) {input : AdvanceInput} {status : Status} {row : Movement}
    (haccepted : input.Accepted) (hto : input.toStatus = some status) (h : s.advanced input status = some row) :
    ∃ m, s.movements.find? m.id = some m ∧ m.id = input.movementId ∧ Admitted m input status ∧
      row = m.advance input status := by
  obtain ⟨m, hm, rfl⟩ := Option.map_eq_some_iff.mp h
  obtain ⟨hfind, hwhere⟩ := Option.filter_eq_some_iff.mp hm
  simp only [Bool.and_eq_true, decide_eq_true_eq] at hwhere
  have hid := Table.key_of_find? hfind
  exact ⟨m, by rw [hid, hfind], hid, ⟨hs.sound _ m hfind, hwhere.1.2, haccepted, hto, hwhere.2⟩, rfl⟩

theorem loses_of_advances (h : (s.requests n).advances = true) (stage : Stage) : Loses s (s.requests n) stage := by
  cases hrequest : s.requests n with
  | vault | custodial =>
    rw [hrequest] at h
    cases h
  | advance | reconcile => trivial

theorem move_of_advance (hs : Wf s) {input : AdvanceInput} (hadvances : (s.requests n).advances = true)
    (hbare : (s.calls n).stage.bare = true) (hactive : (s.calls n).stage.ended = false)
    (hminted : (s.calls n).stage.minted = false) (h : s.advanceVaultMovement n input = some t) : Move s n t := by
  unfold System.advanceVaultMovement at h
  split at h
  · cases h
    exact .gaveUp hactive rfl nofun fun _ => loses_of_advances hadvances _
  · next hassert =>
    have haccepted := accepted_of_assert hassert
    split at h
    · next status sources hto hsources =>
      split at h
      · next hsubmitted =>
        subst hsubmitted
        unfold System.advanceAlone at h
        split at h
        · cases h
          exact .gaveUp hactive rfl nofun fun _ => loses_of_advances hadvances _
        · next row hrow =>
          obtain ⟨m, hm, hid, hadmitted, rfl⟩ := admitted_of_advanced hs haccepted hto hrow
          rw [hadmitted.checks] at h
          split at h
          · cases h
          · next hfree =>
            cases h
            exact .advanceAlone hadvances hactive hbare hm hadmitted (by simpa using hfree)
      · unfold System.selectCandidate at h
        split at h
        · cases h
          exact .gaveUp hactive rfl nofun fun _ => loses_of_advances hadvances _
        · next m hm =>
          cases h
          obtain ⟨hfind, -⟩ := Option.filter_eq_some_iff.mp hm
          have hlock : ∀ {r : Request} (a : Advance), r.advances = true →
              r.fits (.lock a) = true ∧ Finds s r (.lock a) := by
            rintro (_ | _ | _ | _) a ⟨⟩ <;> exact ⟨rfl, trivial⟩
          obtain ⟨hfits, hfinds⟩ := hlock ⟨input, status, m.positionId, m.direction⟩ hadvances
          refine .goOn hbare hactive ⟨rfl, rfl, ⟨m, hfind, rfl⟩, haccepted, hto⟩ rfl hfits hfinds ?_
          rw [hminted]
          nofun
    · cases h
      exact .gaveUp hactive rfl nofun fun _ => loses_of_advances hadvances _

theorem move_of_lock (hs : Wf s) {a : Advance} (hstage : (s.calls n).stage = .lock a)
    (h : s.lockPosition n a = some t) : Move s n t := by
  have hwf := hs.stage n
  rw [hstage] at hwf
  obtain ⟨-, -, haims⟩ := hwf
  obtain ⟨m, hm, hposition⟩ := haims.row
  obtain ⟨p, hp, -⟩ := hs.housed _ m hm
  rw [hposition] at hp
  have hid := Table.key_of_find? hp
  unfold System.lockPosition at h
  rw [hp] at h
  split at h <;> cases h
  next hfree => exact .lock hstage (by rw [hid, hp]) hid (by simpa [hid] using hfree)

theorem advances_of_advance (hs : Wf s) {input : AdvanceInput} (hstage : (s.calls n).stage = .advance input) :
    (s.requests n).advances = true := by
  have hfits := hs.fits n
  rw [hstage] at hfits
  cases hrequest : s.requests n with
  | vault | custodial =>
    rw [hrequest] at hfits
    cases hfits
  | advance | reconcile => rfl

theorem advances_of_update (hs : Wf s) {a : Advance} (hstage : (s.calls n).stage = .update a) :
    (s.requests n).advances = true := by
  have hfits := hs.fits n
  rw [hstage] at hfits
  cases hrequest : s.requests n with
  | vault | custodial =>
    rw [hrequest] at hfits
    cases hfits
  | advance | reconcile => rfl

theorem move_of_update (hs : Wf s) {a : Advance} (hstage : (s.calls n).stage = .update a)
    (h : s.updateMovement n a = some t) : Move s n t := by
  have hadvances := advances_of_update hs hstage
  have hactive : (s.calls n).stage.ended = false := by rw [hstage]; rfl
  have hwf := hs.stage n
  rw [hstage] at hwf
  obtain ⟨-, haims, p, hp, hid⟩ := hwf
  unfold System.updateMovement at h
  split at h
  · cases h
    exact .gaveUp hactive rfl nofun fun _ => loses_of_advances hadvances _
  · next row hrow =>
    obtain ⟨m, hm, hmid, hadmitted, rfl⟩ := admitted_of_advanced hs haims.accepted haims.toStatus hrow
    obtain ⟨m', hm', hposition⟩ := haims.row
    rw [← hmid, hm] at hm'
    cases hm'
    rw [hadmitted.checks] at h
    split at h
    · cases h
    · next hfree =>
      cases h
      rw [hp]
      exact .update hstage hm hadmitted hp (hid.trans hposition.symm) (by simpa using hfree)

theorem move_of_reconcile {movementId : Nat} {seen : Observation} (hstage : (s.calls n).stage = .idle)
    (hrequest : s.requests n = .reconcile movementId seen) (h : s.reconcile n movementId seen = some t) : Move s n t := by
  have hactive : (s.calls n).stage.ended = false := by rw [hstage]; rfl
  have hadvances : (s.requests n).advances = true := by rw [hrequest]; rfl
  unfold System.reconcile at h
  simp only at h
  split at h <;> cases h
  · exact .gaveUp hactive rfl (by simp) fun _ => loses_of_advances hadvances _
  · exact .goOn (by rw [hstage]; rfl) hactive ⟨rfl, rfl⟩ rfl (by rw [hrequest]; rfl) (by rw [hrequest]; trivial)
      fun h => by rw [hstage] at h; cases h

theorem move_of_findIntentRow {input : CustodialIntent} (hstage : (s.calls n).stage = .idle)
    (hrequest : s.requests n = .custodial input) : Move s n (s.findIntentRow n input) := by
  have hactive : (s.calls n).stage.ended = false := by rw [hstage]; rfl
  unfold System.findIntentRow
  split
  · next existing hfind => exact .custodialAnswered hrequest hactive hfind
  · exact .goOn (by rw [hstage]; rfl) hactive ⟨rfl, rfl⟩ rfl (by rw [hrequest]; rfl) (by rw [hrequest]; trivial)
      (by rw [hstage]; nofun)

theorem move_of_insertCustodial {input : CustodialIntent} {minted : Bool}
    (hstage : (s.calls n).stage = .insertCustodial minted) (hrequest : s.requests n = .custodial input) :
    Move s n (s.insertCustodialMovement n input minted) := by
  have hactive : (s.calls n).stage.ended = false := by rw [hstage]; rfl
  have hbare : (s.calls n).stage.bare = true := by rw [hstage]; rfl
  have hfits : ∀ stage, (Request.custodial input).fits stage = true → (s.requests n).fits stage = true :=
    fun _ h => by rw [hrequest, h]
  unfold System.insertCustodialMovement
  split
  · next hnone =>
    split
    · next hminted =>
      refine .gaveUp hactive rfl nofun fun _ => ?_
      rw [hrequest, hstage, hminted]
      exact .inr (.inl ⟨rfl, hnone⟩)
    · next hminted =>
      refine .goOn hbare hactive ⟨rfl, rfl⟩ rfl (hfits _ rfl) (by rw [hrequest]; trivial) fun h => ?_
      rw [hstage] at h
      exact absurd h hminted
  · next p hp =>
    simp only
    split
    · exact .gaveUp hactive rfl (fun _ => .inr ⟨input, hrequest⟩) nofun
    · next hchecks =>
      split
      · next hkey =>
        refine .goOn hbare hactive ⟨rfl, rfl⟩ rfl (hfits _ rfl) ?_ fun _ => rfl
        obtain ⟨m, hm, hwhere⟩ := List.any_eq_true.mp hkey
        simp only [Bool.and_eq_true, decide_eq_true_eq] at hwhere
        rw [hrequest]
        exact ⟨p, m, hp, Table.mem_rows_iff.mp hm, hwhere.1.1, hwhere.1.2, hwhere.2⟩
      · next hkey =>
        split
        · exact .gaveUp hactive rfl nofun nofun
        · next hhome =>
          refine .insertCustodial hrequest hstage hp (by simpa using hchecks) ?_ (by simpa using hhome)
          simpa using hkey

theorem move_of_mint {input : CustodialIntent} (hstage : (s.calls n).stage = .mint)
    (hrequest : s.requests n = .custodial input) :
    Move s n (s.mintEarnPositionForProviderWallet n input.providerWalletId) := by
  have hactive : (s.calls n).stage.ended = false := by rw [hstage]; rfl
  unfold System.mintEarnPositionForProviderWallet
  split
  · next p hp =>
    refine .goOn (by rw [hstage]; rfl) hactive ⟨rfl, rfl⟩ rfl (by rw [hrequest]; rfl) ?_ fun _ => rfl
    rw [hrequest]
    exact ⟨p, hp⟩
  · next hnone hprogram => exact .mint hrequest hstage hnone hprogram
  · next hprogram =>
    refine .gaveUp hactive rfl nofun fun _ => ?_
    rw [hrequest]
    exact .inl hprogram

theorem move_of_recover {input : CustodialIntent} (hstage : (s.calls n).stage = .recover)
    (hrequest : s.requests n = .custodial input) : Move s n (s.recover n input) := by
  have hactive : (s.calls n).stage.ended = false := by rw [hstage]; rfl
  unfold System.recover
  split
  · next existing hfind => exact .custodialAnswered hrequest hactive hfind
  · next hnone =>
    refine .gaveUp hactive rfl nofun fun _ => ?_
    rw [hrequest]
    exact .inr (.inr ⟨hstage, hnone⟩)

theorem move_of_next (hs : Wf s) (h : s.next n = some t) : Move s n t := by
  have hwf := hs.stage n
  unfold System.next at h
  split at h
  · next intent hstage hrequest => exact move_of_findPrior hstage hrequest h
  · next input hstage hrequest =>
    exact move_of_advance hs (by rw [hrequest]; rfl) (by rw [hstage]; rfl) (by rw [hstage]; rfl) (by rw [hstage]; rfl) h
  · next hstage hrequest => exact move_of_reconcile hstage hrequest h
  · next input hstage hrequest =>
    cases h
    exact move_of_findIntentRow hstage hrequest
  · next input hstage hrequest => exact move_of_claim hstage hrequest h
  · next positionId intent hstage hrequest => exact move_of_insert hstage hrequest h
  · next intent hstage hrequest => exact move_of_resolve hstage hrequest h
  · next hstage => exact move_of_startProjection hs hstage h
  · next hstage => exact move_of_fund hs hstage h
  · next hstage =>
    cases h
    exact .commit hstage
  · next input hstage =>
    exact move_of_advance hs (advances_of_advance hs hstage) (by rw [hstage]; rfl) (by rw [hstage]; rfl)
      (by rw [hstage]; rfl) h
  · next a hstage => exact move_of_lock hs hstage h
  · next a hstage => exact move_of_update hs hstage h
  · next hstage =>
    cases h
    rw [hstage] at hwf
    obtain ⟨m, p, hm, hp⟩ := hwf
    have hmove := Move.deactivate hstage hm hp
    simpa [System.deactivate, hm, hp] using hmove
  · next hstage =>
    rw [hstage] at hwf
    obtain ⟨m, p, hm, hp⟩ := hwf
    simp only [System.activate, hm, hp] at h
    cases h
    exact .activate hstage hm hp
  · next minted input hstage hrequest =>
    cases h
    exact move_of_insertCustodial hstage hrequest
  · next input hstage hrequest =>
    cases h
    exact move_of_mint hstage hrequest
  · next input hstage hrequest =>
    cases h
    exact move_of_recover hstage hrequest
  · cases h

def Step.call : Step → Nat
  | .next n | .abort n => n

theorem move_of_step (hs : Wf s) {l : Step} (h : s.step l = some t) : Move s l.call t := by
  cases l with
  | next n => exact move_of_next hs h
  | abort n =>
    simp only [System.step, System.abort] at h
    split at h <;> cases h
    next hidle hdone =>
    refine .gaveUp (s := s) (n := n) ?_ rfl nofun nofun
    cases hstage : (s.calls n).stage with
    | done result => exact absurd hstage (hdone result)
    | _ => rfl

end Sdp.Earn
