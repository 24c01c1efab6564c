import Sdp.EarnSteps

/-!
# What holds of every state of the Earn ledger

A step of one call leaves the rows of every other call alone, for these are locked. With that, `Wf` holds from the
start and is kept by every step.
-/

open Sdp.Lib

namespace Sdp.Earn

variable {s t : System} {n k : Nat}

/-! ## Frames -/

/-- What a step leaves alone for the call `n` with these rows. -/
structure Frame (s t : System) (n : Nat) (movement : Option Movement) (position : Option Position) : Prop where
  requests : t.requests = s.requests
  locks : ∀ r, s.locks r = some n → t.locks r = some n
  movement : ∀ m, movement = some m → t.movements.find? m.id = s.movements.find? m.id
  position : ∀ p, position = some p → t.positions.find? p.id = s.positions.find? p.id
  rows : s.movements.Evolves Movement.Later t.movements
  holdings : s.positions.Evolves Position.Same t.positions

section

variable {movement : Option Movement} {position : Option Position}

theorem frame_setCall (c : Call) : Frame s (s.setCall k c) n movement position :=
  ⟨rfl, fun _ h => h, fun _ _ => rfl, fun _ _ => rfl, .refl, .refl⟩

theorem frame_goto (stage : Stage) : Frame s (s.goto k stage) n movement position := frame_setCall _

theorem frame_take {rs : List Resource} (hfree : s.locks.free k rs = true) (c : Call) :
    Frame s ((s.take k rs).setCall k c) n movement position :=
  ⟨rfl, fun _ h => Locks.acquire_held hfree h, fun _ _ => rfl, fun _ _ => rfl, .refl, .refl⟩

theorem frame_finish (hne : n ≠ k) (result : Result) : Frame s (s.finish k result) n movement position :=
  ⟨rfl, fun _ h => Locks.release_held hne h, fun _ _ => rfl, fun _ _ => rfl, .refl, .refl⟩

theorem Draft.frame {m : Movement} (h : Draft s n m) (hf : Frame s t n movement position) (hm : movement = some m) :
    Draft t n m := by
  have hsame := hf.movement m hm
  cases h with
  | intent intent positionId hrequest hrow hchecks hfresh =>
    have hid : m.id = n := by rw [hrow]; cases intent <;> rfl
    refine .intent intent positionId (by rw [hf.requests, hrequest]) hrow hchecks ?_
    rw [hid, hfresh] at hsame
    exact hsame
  | advance m₀ input status hm₀ hadmitted hrow => exact .advance m₀ input status (hsame.trans hm₀) hadmitted hrow

theorem Based.frame {p : Position} (h : Based s n p) (hf : Frame s t n movement position) (hp : position = some p) :
    Based t n p := by
  have hsame := hf.position p hp
  cases h with
  | new hid hfresh hvault =>
    rw [hid, hfresh] at hsame
    exact .new hid hsame hvault
  | old p₀ hp₀ hp => exact .old p₀ (hsame.trans hp₀) hp

theorem Owns.frame (h : Owns s n movement position) (hf : Frame s t n movement position) :
    Owns t n movement position where
  movementLock m hm := hf.locks _ (h.movementLock m hm)
  positionLock p hp := hf.locks _ (h.positionLock p hp)
  draft m hm := (h.draft m hm).frame hf hm
  based p hp := (h.based p hp).frame hf hp
  placed := h.placed
  housed m hm hp := by
    obtain ⟨p, hp, hhome⟩ := h.housed m hm hp
    obtain ⟨p', hp', hsame⟩ := hf.holdings _ p hp
    exact ⟨p', hp', by rw [hsame.identifies, hhome]⟩

theorem StageWf.frame {c : Call} {stage : Stage} (h : StageWf s c stage)
    (hrows : s.movements.Evolves Movement.Later t.movements) : StageWf t c stage := by
  have haims : ∀ a, Aims s a → Aims t a := by
    rintro a ⟨⟨m, hm, hposition⟩, haccepted, hto⟩
    obtain ⟨m', hm', hlater⟩ := hrows _ m hm
    exact ⟨⟨m', hm', hlater.positionId.trans hposition⟩, haccepted, hto⟩
  cases stage with
  | lock a => exact ⟨h.1, h.2.1, haims a h.2.2⟩
  | update a => exact ⟨h.1, haims a h.2.1, h.2.2⟩
  | commit result => cases result <;> exact h
  | _ => exact h

end

theorem call_setCall_of_ne (hne : n ≠ k) (c : Call) : (s.setCall k c).calls n = s.calls n :=
  Function.update_of_ne hne ..

@[simp] theorem call_setCall_self (c : Call) : (s.setCall n c).calls n = c := Function.update_self ..

@[simp] theorem call_goto_self (stage : Stage) : (s.goto n stage).calls n =
    ⟨stage, (s.calls n).movement, (s.calls n).position⟩ :=
  Function.update_self ..

@[simp] theorem call_finish_self (result : Result) : (s.finish n result).calls n = ⟨.done result, none, none⟩ :=
  Function.update_self ..

theorem call_of_move (h : Move s k t) (hne : n ≠ k) : t.calls n = s.calls n := by
  cases h <;> exact call_setCall_of_ne hne _

theorem evolves_upsert {m : Movement} (h : ∀ m₀, s.movements.find? m.id = some m₀ → m₀.Later m) :
    s.movements.Evolves Movement.Later (s.movements.upsert m) := by
  intro id m₀ hm₀
  rw [Table.find?_upsert]
  split
  · next hid =>
    subst hid
    exact ⟨m, rfl, h m₀ hm₀⟩
  · exact ⟨m₀, hm₀, Std.Refl.refl m₀⟩

theorem holdings_upsert {p : Position} (h : ∀ p₀, s.positions.find? p.id = some p₀ → p₀.Same p) :
    s.positions.Evolves Position.Same (s.positions.upsert p) := by
  intro id p₀ hp₀
  rw [Table.find?_upsert]
  split
  · next hid =>
    subst hid
    exact ⟨p, rfl, h p₀ hp₀⟩
  · exact ⟨p₀, hp₀, Std.Refl.refl p₀⟩

theorem Draft.later {m m₀ : Movement} (h : Draft s n m) (hm₀ : s.movements.find? m.id = some m₀) : m₀.Later m := by
  cases h with
  | intent intent positionId hrequest hm hchecks hfresh =>
    have hid : m.id = n := by rw [hm]; cases intent <;> rfl
    rw [hid, hfresh] at hm₀
    cases hm₀
  | advance m₁ input status hm₁ hadmitted hm =>
    rw [hm₀] at hm₁
    cases hm₁
    rw [hm]
    exact hadmitted.later

theorem Based.same {p p₀ : Position} (h : Based s n p) (hp₀ : s.positions.find? p.id = some p₀) : p₀.Same p := by
  cases h with
  | new hid hfresh =>
    rw [hid, hfresh] at hp₀
    cases hp₀
  | old p₁ hp₁ hsame =>
    rw [hp₀] at hp₁
    cases hp₁
    exact hsame

theorem Wf.movement_ne (hs : Wf s) (hne : n ≠ k) {m m' : Movement} (hm : (s.calls n).movement = some m)
    (hm' : (s.calls k).movement = some m') : m.id ≠ m'.id := by
  intro hid
  have hlock := (hs.owns n).movementLock m hm
  rw [hid, (hs.owns k).movementLock m' hm'] at hlock
  exact hne (Option.some.inj hlock).symm

theorem Wf.position_ne (hs : Wf s) (hne : n ≠ k) {p p' : Position} (hp : (s.calls n).position = some p)
    (hp' : (s.calls k).position = some p') : p.id ≠ p'.id := by
  intro hid
  have hlock := (hs.owns n).positionLock p hp
  rw [hid, (hs.owns k).positionLock p' hp'] at hlock
  exact hne (Option.some.inj hlock).symm

theorem Wf.fresh_movement (hs : Wf s) (hactive : (s.calls n).stage.ended = false) : s.movements.find? n = none := by
  by_contra hfind
  obtain ⟨m, hm⟩ := Option.ne_none_iff_exists'.mp hfind
  rw [hs.entered n m hm] at hactive
  cases hactive

theorem Wf.fresh_position (hs : Wf s) (hminted : (s.calls n).stage.minted = false) : s.positions.find? n = none := by
  by_contra hfind
  obtain ⟨p, hp⟩ := Option.ne_none_iff_exists'.mp hfind
  rw [hs.minted n p hp] at hminted
  cases hminted

theorem Wf.movement_ne_new (hs : Wf s) (hne : n ≠ k) (hactive : (s.calls k).stage.ended = false) {m : Movement}
    (hm : (s.calls n).movement = some m) : m.id ≠ k := by
  rintro rfl
  cases (hs.owns n).draft m hm with
  | intent intent positionId hrequest hm hchecks hfresh => exact hne (by rw [hm]; cases intent <;> rfl)
  | advance m₀ input status hm₀ hadmitted hm => cases (hs.fresh_movement hactive).symm.trans hm₀

theorem Wf.position_ne_new (hs : Wf s) (hne : n ≠ k) (hminted : (s.calls k).stage.minted = false) {p : Position}
    (hp : (s.calls n).position = some p) : p.id ≠ k := by
  rintro rfl
  cases (hs.owns n).based p hp with
  | new hid hfresh => exact hne hid.symm
  | old p₀ hp₀ hsame => cases (hs.fresh_position hminted).symm.trans hp₀

theorem frame_commit (hs : Wf s) (hne : n ≠ k) (result : Result) :
    Frame s (s.commit k result) n (s.calls n).movement (s.calls n).position := by
  refine ⟨rfl, fun _ h => Locks.release_held hne h, fun m hm => ?_, fun p hp => ?_, ?_, ?_⟩
  · change (s.visible k).find? m.id = _
    unfold System.visible
    cases hm' : (s.calls k).movement with
    | none => rfl
    | some m' => rw [Option.elim_some, Table.find?_upsert, if_neg (hs.movement_ne hne hm hm')]
  · change ((s.calls k).position.elim s.positions s.positions.upsert).find? p.id = _
    cases hp' : (s.calls k).position with
    | none => rfl
    | some p' => rw [Option.elim_some, Table.find?_upsert, if_neg (hs.position_ne hne hp hp')]
  · change s.movements.Evolves Movement.Later (s.visible k)
    unfold System.visible
    cases hm' : (s.calls k).movement with
    | none => exact .refl
    | some m' => exact evolves_upsert fun m₀ hm₀ => ((hs.owns k).draft m' hm').later hm₀
  · change s.positions.Evolves Position.Same ((s.calls k).position.elim s.positions s.positions.upsert)
    cases hp' : (s.calls k).position with
    | none => exact .refl
    | some p' => exact holdings_upsert fun p₀ hp₀ => ((hs.owns k).based p' hp').same hp₀

theorem frame_write (hne : n ≠ k) {row : Movement} (result : Result)
    (hlater : ∀ m₀, s.movements.find? row.id = some m₀ → m₀.Later row)
    (hother : ∀ m, (s.calls n).movement = some m → m.id ≠ row.id) :
    Frame s ({ s with movements := s.movements.upsert row }.finish k result) n (s.calls n).movement
      (s.calls n).position := by
  refine ⟨rfl, fun _ h => Locks.release_held hne h, fun m hm => ?_, fun _ _ => rfl,
    evolves_upsert hlater, .refl⟩
  change (s.movements.upsert row).find? m.id = _
  rw [Table.find?_upsert, if_neg (hother m hm)]

theorem frame_of_move (hs : Wf s) (h : Move s k t) (hne : n ≠ k) :
    Frame s t n (s.calls n).movement (s.calls n).position := by
  cases h with
  | gaveUp | mismatched | answered | custodialAnswered => exact frame_finish hne _
  | replaying | goOn | lost | project => exact frame_setCall _
  | fundOwn | deactivate | activate => exact frame_setCall _
  | claimNew _ _ hfree | claimOld _ _ _ hfree | insert _ _ _ _ _ hfree => exact frame_take hfree _
  | fund _ _ _ _ _ hfree | lock _ _ _ hfree | update _ _ _ _ _ hfree => exact frame_take hfree _
  | commit hstage => exact frame_commit hs hne _
  | @advanceAlone m input hadvances hactive hbare hm hadmitted hfree =>
    refine frame_write hne _ (fun m₀ hm₀ => ?_) fun m' hm' hid => ?_
    · rw [Movement.advance_id, hm] at hm₀
      cases hm₀
      exact hadmitted.later
    · have hlock := (hs.owns n).movementLock m' hm'
      rw [hid] at hlock
      exact hne (Locks.owner_of_free hfree (List.mem_singleton_self _) hlock)
  | @insertCustodial input p minted hrequest hstage =>
    have hactive : (s.calls k).stage.ended = false := by rw [hstage]; rfl
    refine frame_write hne _ (fun m₀ hm₀ => ?_) fun m' hm' => hs.movement_ne_new hne hactive hm'
    cases (hs.fresh_movement hactive).symm.trans hm₀
  | @mint input program hrequest hstage =>
    have hminted : (s.calls k).stage.minted = false := by rw [hstage]; rfl
    refine ⟨rfl, fun _ h => h, fun _ _ => rfl, fun p hp => ?_, .refl, ?_⟩
    · exact (Table.find?_upsert ..).trans (if_neg (hs.position_ne_new hne hminted hp))
    · refine holdings_upsert fun p₀ hp₀ => ?_
      cases (hs.fresh_position hminted).symm.trans hp₀

theorem rows_of_move (hs : Wf s) (h : Move s n t) : s.movements.Evolves Movement.Later t.movements :=
  (frame_of_move hs h (Nat.succ_ne_self n)).rows

theorem holdings_of_move (hs : Wf s) (h : Move s n t) : s.positions.Evolves Position.Same t.positions :=
  (frame_of_move hs h (Nat.succ_ne_self n)).holdings

/-! ## The call that moves -/

theorem active_of_move (h : Move s n t) : (s.calls n).stage.ended = false := by
  cases h with
  | gaveUp hactive | answered _ hactive | custodialAnswered _ hactive | goOn _ hactive => exact hactive
  | advanceAlone _ hactive => exact hactive
  | mismatched _ hstage => rw [hstage]; rfl
  | replaying _ hstage | claimNew _ hstage | claimOld _ hstage | insert _ hstage => rw [hstage]; rfl
  | insertCustodial _ hstage | mint _ hstage => rw [hstage]; rfl
  | lost _ hstage | project hstage | fundOwn hstage | fund hstage | commit hstage | lock hstage => rw [hstage]; rfl
  | update hstage | deactivate hstage | activate hstage => rw [hstage]; rfl

theorem minted_of_move (h : Move s n t) (hminted : (s.calls n).stage.minted = true) :
    (t.calls n).stage.minted = true := by
  cases h with
  | gaveUp | mismatched | answered | custodialAnswered | advanceAlone | insertCustodial => simp [Stage.minted]
  | commit => simp [System.commit, Stage.minted]
  | goOn _ _ _ _ _ _ hkept => simpa using hkept hminted
  | replaying _ hstage | claimNew _ hstage | claimOld _ hstage | insert _ hstage | mint _ hstage =>
    rw [hstage] at hminted
    cases hminted
  | lost _ hstage | project hstage | fundOwn hstage | fund hstage | lock hstage | update hstage | deactivate hstage
  | activate hstage =>
    rw [hstage] at hminted
    cases hminted

theorem owns_none : Owns s n none none := by constructor <;> simp

theorem Owns.setPosition {movement : Option Movement} {p p' : Position} (h : Owns s n movement (some p))
    (hsame : p.Same p') : Owns s n movement (some p') where
  movementLock := h.movementLock
  positionLock := by
    rintro _ ⟨⟩
    rw [hsame.id]
    exact h.positionLock p rfl
  draft := h.draft
  based := by
    rintro _ ⟨⟩
    cases h.based p rfl with
    | new hid hfresh hvault => exact .new (hsame.id.trans hid) hfresh (by rwa [hsame.columns.1])
    | old p₀ hp₀ hsame₀ => exact .old p₀ (by rw [hsame.id, hp₀]) (IsTrans.trans p₀ p p' hsame₀ hsame)
  placed := by
    rintro m _ hm ⟨⟩
    rw [hsame.identifies]
    exact h.placed m p hm rfl
  housed := by simp

theorem Owns.lockPosition {movement : Option Movement} {p p' : Position} {c : Call}
    (h : Owns s n movement none) (hp : s.positions.find? p.id = some p) (hsame : p.Same p')
    (hfree : s.locks.free n [.position p.id] = true) (hplaced : ∀ m, movement = some m → p.id = m.positionId) :
    Owns ((s.take n [.position p.id]).setCall n c) n movement (some p') := by
  have hframe := h.frame (frame_take hfree c)
  refine ⟨hframe.movementLock, ?_, hframe.draft, ?_, ?_, by simp⟩
  · rintro _ ⟨⟩
    rw [hsame.id]
    exact Locks.acquire_mem (List.mem_singleton_self _)
  · rintro _ ⟨⟩
    exact .old p (by rw [hsame.id]; exact hp) hsame
  · rintro m _ hm ⟨⟩
    obtain ⟨p₀, hp₀, hhome⟩ := h.housed m hm rfl
    rw [← hplaced m hm, hp] at hp₀
    cases hp₀
    rw [hsame.identifies, hhome]

theorem vaultMovement_positionId (intent : VaultIntent) (id positionId : Nat) :
    (intent.vaultMovement id positionId).positionId = positionId := by cases intent <;> rfl

theorem vaultMovement_id (intent : VaultIntent) (id positionId : Nat) :
    (intent.vaultMovement id positionId).id = id := by cases intent <;> rfl

theorem owns_insert (hs : Wf s) {intent : VaultIntent} {positionId : Nat} (hrequest : s.requests n = .vault intent)
    (hstage : (s.calls n).stage = .insert positionId) (hchecks : (intent.vaultMovement n positionId).checks = true)
    (hfree : s.locks.free n (System.entries n intent.common) = true)
    (hhome : ∃ p, s.visiblePosition n (intent.vaultMovement n positionId).positionId = some p ∧
      p.identifies (intent.vaultMovement n positionId) = true) (c : Call) :
    Owns ((s.take n (System.entries n intent.common)).setCall n c) n (some (intent.vaultMovement n positionId))
      (s.calls n).position := by
  have hactive : (s.calls n).stage.ended = false := by rw [hstage]; rfl
  have hold := (hs.owns n).frame (frame_take hfree c)
  obtain ⟨p, hp, hidentifies⟩ := hhome
  rw [vaultMovement_positionId] at hp
  have hwf := hs.stage n
  rw [hstage] at hwf
  refine ⟨?_, hold.positionLock, ?_, hold.based, ?_, ?_⟩
  · rintro _ ⟨⟩
    rw [vaultMovement_id]
    exact Locks.acquire_mem List.mem_cons_self
  · rintro _ ⟨⟩
    exact .intent intent positionId hrequest rfl hchecks (hs.fresh_movement hactive)
  · rintro _ p' ⟨⟩ hp'
    simp only [System.visiblePosition, hp', Option.filter_some, hwf.2 p' hp', decide_true, if_true, Option.some_or,
      Option.some.injEq] at hp
    rw [hp, hidentifies]
  · rintro _ ⟨⟩ hnone
    rw [vaultMovement_positionId]
    refine ⟨p, ?_, hidentifies⟩
    change s.positions.find? positionId = some p
    simpa [System.visiblePosition, hnone] using hp

theorem owns_update (hs : Wf s) {input : AdvanceInput} {status : Status} {m : Movement} {p : Position}
    (hm : s.movements.find? m.id = some m) (hadmitted : Admitted m input status) (hp : (s.calls n).position = some p)
    (hid : p.id = m.positionId) (hfree : s.locks.free n [.movement m.id] = true) (c : Call) :
    Owns ((s.take n [.movement m.id]).setCall n c) n (some (m.advance input status)) (some p) := by
  have hold := (hs.owns n).frame (frame_take hfree c)
  rw [hp] at hold
  refine ⟨?_, hold.positionLock, ?_, hold.based, ?_, by simp⟩
  · rintro _ ⟨⟩
    exact Locks.acquire_mem (List.mem_singleton_self _)
  · rintro _ ⟨⟩
    exact .advance m input status hm hadmitted rfl
  · rintro _ _ ⟨⟩ ⟨⟩
    obtain ⟨p₀, hp₀, hhome⟩ := hs.housed _ m hm
    rw [← hid] at hp₀
    rw [hadmitted.later.identified, (((hs.owns n).based p hp).same hp₀).identifies, hhome]

theorem owns_of_move (hs : Wf s) (h : Move s n t) : Owns t n (t.calls n).movement (t.calls n).position := by
  have hold := hs.owns n
  cases h with
  | gaveUp | mismatched | answered | custodialAnswered | advanceAlone | insertCustodial => simpa using owns_none
  | commit => simpa [System.commit] using owns_none
  | replaying | goOn | lost | project =>
    rw [call_goto_self]
    exact hold.frame (frame_goto _)
  | mint hrequest hstage =>
    have hwf := hs.stage n
    rw [hstage] at hwf
    simpa [hwf.1, hwf.2] using owns_none
  | claimNew hrequest hstage hfree =>
    have hminted : (s.calls n).stage.minted = false := by rw [hstage]; rfl
    rw [call_setCall_self]
    refine ⟨by simp, ?_, by simp, ?_, by simp, by simp⟩
    · rintro _ ⟨⟩
      exact Locks.acquire_mem List.mem_cons_self
    · rintro _ ⟨⟩
      exact .new rfl (hs.fresh_position hminted) fun _ h => by cases h
  | claimOld hrequest hstage hp hfree =>
    rw [call_setCall_self]
    exact owns_none.lockPosition hp rfl hfree (by simp)
  | insert hrequest hstage hrow hchecks hkey hfree hhome =>
    subst hrow
    rw [call_setCall_self]
    exact owns_insert hs hrequest hstage hchecks hfree hhome _
  | fundOwn hstage hm hp =>
    rw [hm, hp] at hold
    rw [call_setCall_self]
    exact (hold.setPosition (Position.same_fund _ _)).frame (frame_setCall _)
  | fund hstage hm hnone hp hid hfree =>
    rw [hm, hnone] at hold
    rw [call_setCall_self]
    refine hold.lockPosition hp rfl hfree ?_
    rintro _ ⟨⟩
    exact hid
  | lock hstage hp hid hfree =>
    rw [call_setCall_self]
    exact owns_none.lockPosition hp rfl hfree (by simp)
  | update hstage hm hadmitted hp hid hfree =>
    rw [call_setCall_self]
    exact owns_update hs hm hadmitted hp hid hfree _
  | deactivate hstage hm hp =>
    rw [hm, hp] at hold
    rw [call_setCall_self]
    exact (hold.setPosition (Position.same_deactivate _ _)).frame (frame_setCall _)
  | activate hstage hm hp =>
    rw [hm, hp] at hold
    rw [call_setCall_self]
    exact (hold.setPosition (Position.same_activate _)).frame (frame_setCall _)

theorem Wf.rows_of_bare (hs : Wf s) (hbare : (s.calls n).stage.bare = true) :
    (s.calls n).movement = none ∧ (s.calls n).position = none := by
  have hwf := hs.stage n
  cases hstage : (s.calls n).stage with
  | lock a =>
    rw [hstage] at hwf
    exact ⟨hwf.1, hwf.2.1⟩
  | insert | resolve | project | projecting | commit | update | deactivate | activate =>
    rw [hstage] at hbare
    cases hbare
  | _ =>
    rw [hstage] at hwf
    exact hwf

theorem stageWf_next {c : Call} {a : Advance} {m : Movement} {p : Position} (hm : c.movement = some m)
    (hp : c.position = some p) : StageWf t c (a.next m) := by
  unfold Advance.next
  split
  · exact ⟨m, p, hm, hp⟩
  · split
    · exact ⟨m, p, hm, hp⟩
    · exact ⟨hm, p, hp⟩

theorem stage_of_move (hs : Wf s) (h : Move s n t) : StageWf t (t.calls n) (t.calls n).stage := by
  have hwf := hs.stage n
  have hrows := rows_of_move hs h
  cases h with
  | gaveUp | mismatched | answered | custodialAnswered | advanceAlone | insertCustodial => simp [StageWf]
  | commit => simp [System.commit, StageWf]
  | replaying hrequest hstage =>
    rw [hstage] at hwf
    simpa [StageWf] using hwf
  | goOn hbare hactive hstage =>
    obtain ⟨hm, hp⟩ := hs.rows_of_bare hbare
    rw [call_goto_self, hm, hp]
    exact hstage.frame hrows
  | lost _ hstage =>
    rw [hstage] at hwf
    simpa [StageWf] using hwf.1
  | mint hrequest hstage =>
    rw [hstage] at hwf
    simpa [StageWf] using hwf
  | claimNew => simp [StageWf, DepositIntent.position]
  | claimOld => simp [StageWf, Position.refresh]
  | insert => simp [StageWf]
  | project hstage hm => simpa [StageWf] using ⟨_, hm⟩
  | fundOwn | fund | activate | deactivate => simp [StageWf]
  | lock hstage hp hid hfree =>
    rw [hstage] at hwf
    rw [call_setCall_self]
    exact StageWf.frame ⟨rfl, hwf.2.2, _, rfl, hid⟩ hrows
  | update =>
    rw [call_setCall_self]
    exact stageWf_next rfl rfl

/-! ## The tables -/

/-- A row that a step leaves in the table. -/
structure Enters (t : System) (k : Nat) (m : Movement) : Prop where
  sound : m.Sound
  housed : ∃ p, t.positions.find? m.positionId = some p ∧ p.identifies m = true
  entered : (t.calls k).stage.ended = true

theorem Draft.sound {m : Movement} (h : Draft s n m) : m.Sound := by
  cases h with
  | intent intent positionId hrequest hm hchecks hfresh =>
    subst hm
    exact vaultMovement_sound hchecks
  | advance m₀ input status hm₀ hadmitted hm =>
    subst hm
    exact hadmitted.advance_sound

theorem Wf.enters (hs : Wf s) (h : Move s n t) {k : Nat} {m : Movement} (hm : s.movements.find? k = some m) :
    Enters t k m := by
  have hover := hs.entered k m hm
  have hne : k ≠ n := by
    rintro rfl
    rw [active_of_move h] at hover
    cases hover
  obtain ⟨p, hp, hhome⟩ := hs.housed k m hm
  obtain ⟨p', hp', hsame⟩ := holdings_of_move hs h _ p hp
  exact ⟨hs.sound k m hm, ⟨p', hp', by rw [hsame.identifies, hhome]⟩, by rw [call_of_move h hne, hover]⟩

theorem Enters.advance {k : Nat} {m : Movement} {input : AdvanceInput} {status : Status} (h : Enters t k m)
    (hadmitted : Admitted m input status) : Enters t k (m.advance input status) := by
  obtain ⟨p, hp, hhome⟩ := h.housed
  exact ⟨hadmitted.advance_sound, ⟨p, hp, by rw [hadmitted.later.identified, hhome]⟩, h.entered⟩

theorem Wf.position_of_commit (hs : Wf s) {result : Result} (hstage : (s.calls n).stage = .commit result)
    {m : Movement} (hm : (s.calls n).movement = some m) :
    ∃ p, (s.calls n).position = some p ∧ p.identifies m = true := by
  have hwf := hs.stage n
  rw [hstage] at hwf
  cases result with
  | written row =>
    obtain ⟨-, p, hp⟩ := hwf
    exact ⟨p, hp, (hs.owns n).placed m p hm hp⟩
  | replayed row =>
    have hnone : (s.calls n).movement = none := hwf
    rw [hm] at hnone
    cases hnone
  | _ => exact hwf.elim

theorem enters_commit (hs : Wf s) {result : Result} (hstage : (s.calls n).stage = .commit result) {m : Movement}
    (hm : (s.calls n).movement = some m) : Enters (s.commit n result) m.id m := by
  have hmove : Move s n (s.commit n result) := .commit hstage
  have hdraft := (hs.owns n).draft m hm
  refine ⟨hdraft.sound, ?_, ?_⟩
  · obtain ⟨p, hp, hhome⟩ := hs.position_of_commit hstage hm
    refine ⟨p, ?_, hhome⟩
    change ((s.calls n).position.elim s.positions s.positions.upsert).find? m.positionId = some p
    rw [hp, Option.elim_some, Table.find?_upsert, if_pos (Position.identifies_id hhome).symm]
  · cases hdraft with
    | intent intent positionId hrequest hrow hchecks hfresh =>
      have hid : m.id = n := by rw [hrow, vaultMovement_id]
      rw [hid]
      simp [System.commit, Stage.ended]
    | advance m₀ input status hm₀ hadmitted hrow => exact (hs.enters hmove hm₀).entered

theorem enters_of_move (hs : Wf s) (h : Move s n t) {k : Nat} {m : Movement} (hm : t.movements.find? k = some m) :
    Enters t k m := by
  have hold : s.movements.find? k = some m → Enters t k m := hs.enters h
  cases h with
  | @commit result hstage =>
    have hm : (s.visible n).find? k = some m := hm
    unfold System.visible at hm
    cases hown : (s.calls n).movement with
    | none => exact hold (by simpa [hown] using hm)
    | some m' =>
      rw [hown, Option.elim_some, Table.find?_upsert] at hm
      split at hm
      · next hk =>
        cases hm
        rw [hk]
        exact enters_commit hs hstage hown
      · exact hold hm
  | @advanceAlone m₀ input hadvances hactive hbare hm₀ hadmitted hfree =>
    have hm : (s.movements.upsert (m₀.advance input .submitted)).find? k = some m := hm
    rw [Table.find?_upsert] at hm
    split at hm
    · next hk =>
      cases hm
      rw [hk]
      exact (hs.enters (.advanceAlone hadvances hactive hbare hm₀ hadmitted hfree) hm₀).advance hadmitted
    · exact hold hm
  | @insertCustodial input p minted hrequest hstage hp hchecks hkey hhome =>
    have hm : (s.movements.upsert (input.movement n p.id)).find? k = some m := hm
    rw [Table.find?_upsert] at hm
    split at hm
    · next hk =>
      cases hm
      have hfind := Table.mem_rows_iff.mp (List.mem_of_find?_eq_some hp)
      refine ⟨custodialMovement_sound hchecks, ⟨p, hfind, hhome⟩, ?_⟩
      rw [hk]
      change (System.calls (System.finish _ n _) n).stage.ended = true
      rw [call_finish_self]
      rfl
    · exact hold hm
  | _ => exact hold hm

theorem minted_of_position (hs : Wf s) (h : Move s n t) {k : Nat} {p : Position}
    (hp : t.positions.find? k = some p) : (t.calls k).stage.minted = true := by
  have hold : ∀ p, s.positions.find? k = some p → (t.calls k).stage.minted = true := by
    intro p hp
    by_cases hk : k = n
    · subst hk
      exact minted_of_move h (hs.minted k p hp)
    · rw [call_of_move h hk, hs.minted k p hp]
  cases h with
  | @commit result hstage =>
    have hp : ((s.calls n).position.elim s.positions s.positions.upsert).find? k = some p := hp
    cases hown : (s.calls n).position with
    | none => exact hold p (by simpa [hown] using hp)
    | some p' =>
      rw [hown, Option.elim_some, Table.find?_upsert] at hp
      split at hp
      · next hk =>
        cases (hs.owns n).based p' hown with
        | new hid hfresh =>
          rw [hk, hid]
          simp [System.commit, Stage.minted]
        | old p₀ hp₀ hsame => exact hold p₀ (by rw [hk, hp₀])
      · exact hold p hp
  | @mint input program hrequest hstage =>
    have hp : (s.positions.upsert (program.position n input.providerWalletId)).find? k = some p := hp
    rw [Table.find?_upsert] at hp
    split at hp
    · next hk =>
      rw [hk]
      change (System.calls (System.goto _ n _) n).stage.minted = true
      rw [call_goto_self]
      rfl
    · exact hold p hp
  | _ => exact hold p hp

theorem fits_next (hs : Wf s) {a : Advance} (hstage : (s.calls n).stage = .update a) (row : Movement) :
    (s.requests n).fits (a.next row) = true :=
  Request.fits_of_advances (advances_of_update hs hstage) a row

theorem Request.fits_written {r : Request} {stage : Stage} (h : r.fits stage = true) (result : Result)
    (hstage : stage = .project ∨ (∃ funder version, stage = .projecting funder version) ∨ stage = .deactivate ∨
      stage = .activate) : r.fits .project = true ∧ r.fits (.commit result) = true ∧
        ∀ funder version, r.fits (.projecting funder version) = true := by
  cases r with
  | custodial => rcases hstage with rfl | ⟨_, _, rfl⟩ | rfl | rfl <;> cases h
  | _ => exact ⟨rfl, rfl, fun _ _ => rfl⟩

theorem fits_of_move (hs : Wf s) (h : Move s n t) : (s.requests n).fits (t.calls n).stage = true := by
  have hold := hs.fits n
  have hdone : ∀ result, (s.requests n).fits (.done result) = true := fun result => by cases s.requests n <;> rfl
  cases h with
  | gaveUp | mismatched | answered | custodialAnswered | advanceAlone | insertCustodial => simpa using hdone _
  | commit => simpa [System.commit] using hdone _
  | goOn _ _ _ _ hfits => simpa using hfits
  | replaying hrequest | lost hrequest | mint hrequest =>
    rw [call_goto_self, hrequest]
    rfl
  | claimNew hrequest | claimOld hrequest | insert hrequest =>
    rw [call_setCall_self, hrequest]
    rfl
  | project hstage =>
    rw [hstage] at hold
    simpa using (Request.fits_written hold .missed (.inl rfl)).2.2 _ _
  | fundOwn hstage | fund hstage =>
    rw [hstage] at hold
    simpa using (Request.fits_written hold _ (.inr (.inl ⟨_, _, rfl⟩))).2.1
  | deactivate hstage =>
    rw [hstage] at hold
    simpa using (Request.fits_written hold .missed (.inr (.inr (.inl rfl)))).1
  | activate hstage =>
    rw [hstage] at hold
    simpa using (Request.fits_written hold _ (.inr (.inr (.inr rfl)))).2.1
  | lock hstage =>
    rw [hstage] at hold
    cases hrequest : s.requests n with
    | vault | custodial =>
      rw [hrequest] at hold
      cases hold
    | advance | reconcile =>
      rw [call_setCall_self]
      rfl
  | update hstage => simpa using fits_next hs hstage _

theorem wf_of_move (hs : Wf s) (h : Move s n t) : Wf t where
  sound _ _ hm := (enters_of_move hs h hm).sound
  entered _ _ hm := (enters_of_move hs h hm).entered
  housed _ _ hm := (enters_of_move hs h hm).housed
  minted _ _ hp := minted_of_position hs h hp
  owns k := by
    by_cases hk : k = n
    · subst hk
      exact owns_of_move hs h
    · rw [call_of_move h hk]
      exact (hs.owns k).frame (frame_of_move hs h hk)
  stage k := by
    by_cases hk : k = n
    · subst hk
      exact stage_of_move hs h
    · rw [call_of_move h hk]
      exact (hs.stage k).frame (rows_of_move hs h)
  fits k := by
    rw [(frame_of_move hs h (Nat.succ_ne_self n)).requests]
    by_cases hk : k = n
    · subst hk
      exact fits_of_move hs h
    · rw [call_of_move h hk]
      exact hs.fits k

theorem wf_initial (h : s.Initial) : Wf s where
  sound := by simp [h.movements]
  entered := by simp [h.movements]
  housed := by simp [h.movements]
  minted := by simp [h.positions]
  owns n := by
    rw [h.calls n]
    exact owns_none
  stage n := by
    rw [h.calls n]
    exact ⟨rfl, rfl⟩
  fits n := by
    rw [h.calls n]
    cases s.requests n <;> rfl

theorem wf_of_reachable {ok : System → Step → Prop} (h : Reachable System.step System.Initial ok s) : Wf s :=
  h.invariant (P := Wf) (fun _ => wf_initial) fun _ _ _ _ hs _ ht => wf_of_move hs (move_of_step hs ht)

/-! ## Examples -/

/-- The ledger before its first call. -/
def System.fresh (requests : Nat → Request) (programs : Nat → Option Program) : System :=
  ⟨requests, programs, .empty, .empty, .none, fun _ => ⟨.idle, none, none⟩⟩

theorem System.fresh_initial (requests : Nat → Request) (programs : Nat → Option Program) :
    (System.fresh requests programs).Initial := ⟨rfl, rfl, rfl, fun _ => rfl⟩

/-- A deposit of one organization into one vault. -/
def someDeposit : DepositIntent where
  organizationId := 1
  projectId := 1
  environment := .sandbox
  provider := "kamino"
  vaultAddress := "vault"
  custodyWalletId := 1
  shareMint := "shares"
  signature := "deposit"
  signedTransaction := "bytes"
  lastValidBlockHeight := 100
  requestId := "key"
  idempotencyFingerprint := "print"
  createsShareAccount := some true
  shareAtaRentFunder := some "sponsor"
  now := 2
  tokenMint := "usdc"
  label := "USDC"
  requestedAmount := "10.5"
  acceptedMinSharesOut := none
  inScope := true

/-- A withdrawal from the position of the first call. -/
def someWithdrawal : WithdrawalIntent where
  toSignedIntent :=
    { someDeposit.toSignedIntent with
      signature := "withdrawal", requestId := "exit", shareAtaRentFunder := some "wallet", now := 3 }
  positionId := 0
  requestedShares := "4"

/-- An advance of one movement. -/
def someAdvance (movementId : Nat) (status : Status) : AdvanceInput where
  movementId
  organizationId := 1
  toStatus := some status
  sharesOut := none
  failureReason := if status = .failed then some (some "expired") else none
  confirmedAt := if status.committed then some (some "noon") else none
  settledAt := if status = .finalized then some (some "noon") else none

end Sdp.Earn
