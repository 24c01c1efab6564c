import Sdp.Code.RpcConnections

/-!
# The life of an RPC connection

Rows and credentials agree in every reachable state, so that a deactivation is final, an activation changes both rows or
nothing, and at most one live default answers for a scope and network. The relay does not go on to what the platform
manages past a connection that was activated or failed and is not withdrawn, unless one goes live between its two reads.
-/

open Sdp.Lib

namespace Sdp.RpcConnections

/-! ## One row -/

/-- What holds of every row. -/
structure RowOk (row : RpcConnectionRow) : Prop where
  checks : row.checks = true
  withdrawn : row.status = .deactivated ↔ row.credential.status = .deactivated
  usable : row.status = .active → row.credential.status = .active
  forgotten : row.credential.status = .deactivated → row.credential.encryptedSecretPayload = none
  promotable : row.promotable = true ∨ row.credential.status = .deactivated

/-- What a statement or a transaction makes of a row. -/
inductive Move (row : RpcConnectionRow) : RpcConnectionRow → Prop
  | same : Move row row
  | demoted : Move row row.demote
  | failed (h : row.fail.checks = true) : Move row row.fail
  | activated (makeDefault : Bool) (now : Nat) (h : row.promotable = true) (ha : row.activatable = true) :
      Move row (row.promote.activate makeDefault now)
  | promoted (h : row.promotable = true) (hn : row.activatable = false) : Move row row.promote
  | deactivated (now : Nat) (h : row.status ≠ .deactivated) : Move row (row.deactivate now)

variable {row row' : RpcConnectionRow}

theorem not_activatable (h : row.activatable = false) : row.status = .deactivated := by
  cases hstatus : row.status <;> simp [RpcConnectionRow.activatable, hstatus] at h ⊢

theorem fail_checks (h : row.fail.checks = true) : row.deactivatedAt = none := by
  simp only [RpcConnectionRow.checks, RpcConnectionRow.fail, Bool.and_eq_true] at h
  simpa using h.1.1.2

theorem deactivatedAt_eq_none (h : row.checks = true) : row.deactivatedAt = none ↔ row.status ≠ .deactivated := by
  simp only [RpcConnectionRow.checks, Bool.and_eq_true] at h
  have hdeactivated := h.1.1.2
  split at hdeactivated
  · next hstatus => simp [hstatus, Option.isSome_iff_ne_none.mp hdeactivated]
  · next hstatus => simp [hstatus, Option.isNone_iff_eq_none.mp hdeactivated]

theorem RowOk.not_promoted (h : RowOk row) (hp : row.promotable = true) : row.status ≠ .deactivated := by
  intro hstatus
  rw [RpcConnectionRow.promotable, h.withdrawn.mp hstatus] at hp
  simp at hp

theorem Move.ok (hmove : Move row row') (h : RowOk row) : RowOk row' := by
  cases hmove with
  | same => exact h
  | demoted =>
    refine ⟨?_, h.withdrawn, h.usable, h.forgotten, h.promotable⟩
    have hchecks := h.checks
    simp only [RpcConnectionRow.checks, RpcConnectionRow.demote, Bool.and_eq_true] at hchecks ⊢
    exact ⟨hchecks.1, by simp⟩
  | failed hchecks =>
    have hstatus := (deactivatedAt_eq_none h.checks).mp (fail_checks hchecks)
    refine ⟨hchecks, ⟨fun hf => (by cases hf), fun hc => ?_⟩, fun hf => (by cases hf), h.forgotten, h.promotable⟩
    exact absurd (h.withdrawn.mpr hc) hstatus
  | activated makeDefault now hp ha =>
    refine ⟨?_, ⟨fun hf => (by cases hf), fun hf => (by cases hf)⟩, fun _ => rfl, fun hf => (by cases hf), .inl rfl⟩
    have hchecks := h.checks
    simp only [RpcConnectionRow.checks, Bool.and_eq_true] at hchecks
    have hproject := hchecks.1.1.1.1
    simp only [RpcConnectionRow.checks, RpcConnectionRow.promote, RpcConnectionRow.activate, Bool.and_eq_true]
    exact ⟨⟨⟨⟨hproject, by simp⟩, by simp⟩, by simp⟩, by simp⟩
  | promoted hp hn => exact absurd (not_activatable hn) (h.not_promoted hp)
  | deactivated now hstatus =>
    refine ⟨?_, ⟨fun _ => rfl, fun _ => rfl⟩, fun hf => (by cases hf), fun _ => rfl, .inr rfl⟩
    have hchecks := h.checks
    simp only [RpcConnectionRow.checks, Bool.and_eq_true] at hchecks
    have hproject := hchecks.1.1.1.1
    simp only [RpcConnectionRow.checks, RpcConnectionRow.deactivate, Bool.and_eq_true]
    exact ⟨⟨⟨⟨hproject, by simp⟩, by simp⟩, by simp⟩, by simp⟩

theorem Move.slot (h : Move row row') : row'.slot = row.slot := by
  cases h <;> rfl

theorem Move.of_deactivated (hmove : Move row row') (h : RowOk row) (hstatus : row.status = .deactivated) :
    row' = row := by
  cases hmove with
  | same => rfl
  | demoted =>
    have hchecks := h.checks
    simp only [RpcConnectionRow.checks, hstatus, Bool.and_eq_true] at hchecks
    have hdefault : row.isDefault = false := by simpa using hchecks.2
    rw [RpcConnectionRow.demote, ← hdefault]
  | failed hchecks => exact absurd hstatus ((deactivatedAt_eq_none h.checks).mp (fail_checks hchecks))
  | activated makeDefault now hp ha => exact absurd hstatus (h.not_promoted hp)
  | promoted hp hn => exact absurd hstatus (h.not_promoted hp)
  | deactivated now hne => exact absurd hstatus hne

/-! ## Tables -/

/-- The rows of both tables are the same but for moves by someone who reaches them. -/
structure Moves (reaches : RpcConnectionRow → Bool) (t t' : ConnectionTable) : Prop where
  kept : ∀ id row, t.find? id = some row → ∃ row', t'.find? id = some row'
  moved : ∀ id row', t'.find? id = some row' →
    ∃ row, t.find? id = some row ∧ Move row row' ∧ (row' = row ∨ reaches row = true)

variable {t t' : ConnectionTable} {actor : Actor} {id : String} {now : Nat}

theorem Moves.find? {reaches : RpcConnectionRow → Bool} (h : Moves reaches t t') (hrow : t.find? id = some row) :
    ∃ row', t'.find? id = some row' ∧ Move row row' ∧ (row' = row ∨ reaches row = true) := by
  obtain ⟨row', hrow'⟩ := h.kept id row hrow
  obtain ⟨row₀, hrow₀, hmove⟩ := h.moved id row' hrow'
  obtain rfl := Option.some.inj (hrow.symm.trans hrow₀)
  exact ⟨row', hrow', hmove⟩

theorem withinChecks_of (h : withinChecks t = true) (hrow : t.find? id = some row) : row.checks = true :=
  List.all_eq_true.mp h row (Table.find?_eq_some_iff.mp hrow).1

theorem recordCheckFailure_moves (h : recordCheckFailure t actor id = some t') : Moves actor.reaches t t' := by
  obtain ⟨hchecks, h⟩ := Option.ite_none_right_eq_some.mp h
  obtain rfl := Option.some.inj h
  refine ⟨fun k row hrow => ⟨_, (Table.row_update id _ _ hrow).choose_spec.1⟩, fun k row' hrow' => ?_⟩
  obtain ⟨row, hrow, rfl | ⟨-, hreaches, rfl⟩⟩ := Table.row_of_update _ hrow'
  · exact ⟨row', hrow, .same, .inl rfl⟩
  · exact ⟨row, hrow, .failed (withinChecks_of hchecks hrow'), .inr hreaches⟩

theorem deactivationTransaction_moves (h : deactivationTransaction t actor id now = some t') :
    Moves actor.reaches t t' := by
  obtain ⟨-, h⟩ := Option.ite_none_right_eq_some.mp h
  obtain rfl := Option.some.inj h
  refine ⟨fun k row hrow => ⟨_, (Table.row_update id _ _ hrow).choose_spec.1⟩, fun k row' hrow' => ?_⟩
  obtain ⟨row, hrow, rfl | ⟨-, hguard, rfl⟩⟩ := Table.row_of_update _ hrow'
  · exact ⟨row', hrow, .same, .inl rfl⟩
  · simp only [Bool.and_eq_true, decide_eq_true_eq] at hguard
    exact ⟨row, hrow, .deactivated now hguard.1.2, .inr hguard.1.1⟩

theorem activationTransaction_eq {slot : Slot} {makeDefault activated : Bool}
    (h : activationTransaction t actor id slot makeDefault now = .ok (t', activated)) :
    oneDefault t' = true ∧ ∃ row, t.find? id = some row ∧ actor.reaches row = true ∧ row.promotable = true ∧
      activated = row.activatable ∧
      ∀ k, t'.find? k =
        if k = id then some (if row.activatable then row.promote.activate makeDefault now else row.promote)
        else (t.find? k).map fun row =>
          if makeDefault && (row.slot = slot && row.isDefault && row.id ≠ id) then row.demote else row := by
  obtain ⟨cleared, hcleared, hfind⟩ : ∃ cleared : ConnectionTable,
      (if makeDefault then clearDefault t slot id else t) = cleared ∧ ∀ k, cleared.find? k = (t.find? k).map fun row =>
        if makeDefault && (row.slot = slot && row.isDefault && row.id ≠ id) then row.demote else row := by
    refine ⟨_, rfl, fun k => ?_⟩
    cases makeDefault with
    | true =>
      rw [if_pos rfl, clearDefault, Table.find?_updateAll]
      simp only [Bool.true_and]
    | false => simp
  have hid : cleared.find? id = t.find? id := by
    rw [hfind]
    cases hrow : t.find? id with
    | none => rfl
    | some row => simp [show row.id = id from Table.key_of_find? hrow]
  rw [activationTransaction, hcleared] at h
  dsimp only at h
  split at h
  · cases h
  · next hmatches =>
    split at h
    · cases h
    · next hdefault =>
      split at h
      · cases h
      · simp only [Except.ok.injEq, Prod.mk.injEq] at h
        obtain ⟨rfl, rfl⟩ := h
        simp only [Bool.not_eq_true', Bool.not_eq_false] at hmatches hdefault
        obtain ⟨row, hrow, hguard⟩ := Table.matches?_iff.mp hmatches
        obtain ⟨hreaches, hpromotable⟩ := Bool.and_eq_true_iff.mp hguard
        have hreaches' : actor.reaches row.promote = true := hreaches
        have hactivatable' : row.promote.activatable = row.activatable := rfl
        refine ⟨hdefault, row, hid ▸ hrow, hreaches, hpromotable, ?_, fun k => ?_⟩
        · rw [Table.matches?, Table.find?_update, if_pos rfl, hrow]
          simp [hreaches, hpromotable, hreaches', hactivatable']
        · by_cases hk : k = id
          · rw [if_pos hk, hk, Table.find?_update, if_pos rfl, Table.find?_update, if_pos rfl, hrow]
            simp [hreaches, hpromotable, hreaches', hactivatable']
          · rw [if_neg hk, Table.find?_update, if_neg hk, Table.find?_update, if_neg hk, hfind]

theorem activationTransaction_moves {slot : Slot} {makeDefault activated : Bool}
    (hslot : slot.1 = actor.organizationId ∧ slot.2.1 ∈ actor.scopeKeys)
    (h : activationTransaction t actor id slot makeDefault now = .ok (t', activated)) : Moves actor.reaches t t' := by
  obtain ⟨-, row, hrow, hreaches, hpromotable, -, hfind⟩ := activationTransaction_eq h
  refine ⟨fun k row hrow => ?_, fun k row' hrow' => ?_⟩
  · rw [hfind, hrow]
    split
    · exact ⟨_, rfl⟩
    · exact ⟨_, rfl⟩
  rw [hfind] at hrow'
  split at hrow'
  · next hk =>
    obtain rfl := Option.some.inj hrow'
    refine ⟨row, hk ▸ hrow, ?_, .inr hreaches⟩
    split
    · next ha => exact .activated makeDefault now hpromotable ha
    · next hn => exact .promoted hpromotable (Bool.eq_false_of_not_eq_true hn)
  · obtain ⟨row₀, hrow₀, rfl⟩ := Option.map_eq_some_iff.mp hrow'
    refine ⟨row₀, hrow₀, ?_⟩
    split
    · next hcleared =>
      simp only [Bool.and_eq_true, decide_eq_true_eq] at hcleared
      refine ⟨.demoted, .inr ?_⟩
      obtain rfl := hcleared.2.1.1
      simp only [Actor.reaches, Bool.and_eq_true, decide_eq_true_eq]
      exact hslot
    · exact ⟨.same, .inl rfl⟩

/-! ## The unique index -/

theorem oneDefault_of_map {f : RpcConnectionRow → RpcConnectionRow} (h : oneDefault t = true)
    (hrows : t'.rows = t.rows.map f) (hslot : ∀ row, (f row).slot = row.slot)
    (hlive : ∀ row, (f row).isLiveDefault = true → row.isLiveDefault = true) : oneDefault t' = true := by
  rw [oneDefault, decide_eq_true_eq] at h ⊢
  have hslots : (RpcConnectionRow.slot ∘ f) = RpcConnectionRow.slot := funext hslot
  rw [hrows, List.filter_map, List.map_map, hslots]
  exact h.sublist ((List.monotone_filter_right _ hlive).map _)

theorem oneDefault_of_update {guard : RpcConnectionRow → Bool} {set : RpcConnectionRow → RpcConnectionRow}
    {hset : ∀ row, (set row).id = row.id} (hs : oneDefault t = true) (hslot : ∀ row, (set row).slot = row.slot)
    (hlive : ∀ row, (set row).isLiveDefault = true → row.isLiveDefault = true) :
    oneDefault (t.update id guard set hset) = true := by
  refine oneDefault_of_map hs rfl (fun row => ?_) fun row h => ?_
  · unfold Table.setRow
    split
    · exact hslot row
    · rfl
  · unfold Table.setRow at h
    split at h
    · exact hlive row h
    · exact h

theorem recordCheckFailure_oneDefault (hs : oneDefault t = true) (h : recordCheckFailure t actor id = some t') :
    oneDefault t' = true := by
  obtain ⟨-, h⟩ := Option.ite_none_right_eq_some.mp h
  obtain rfl := Option.some.inj h
  exact oneDefault_of_update hs (fun _ => rfl) fun _ hlive => by cases hlive

theorem deactivationTransaction_oneDefault (hs : oneDefault t = true)
    (h : deactivationTransaction t actor id now = some t') : oneDefault t' = true := by
  obtain ⟨-, h⟩ := Option.ite_none_right_eq_some.mp h
  obtain rfl := Option.some.inj h
  exact oneDefault_of_update hs (fun _ => rfl) fun _ hlive => by cases hlive

/-! ## The system -/

variable {s u : System} {l : Step} {r : Nat}

/-- What holds in every reachable state. -/
structure Inv (s : System) : Prop where
  rows : ∀ id row, s.connections.find? id = some row → RowOk row
  index : oneDefault s.connections = true
  /-- An administrator probes a connection that it reaches. -/
  requests : ∀ r actor id slot makeDefault, s.requests r = .probing actor id slot makeDefault →
    ∃ row, s.connections.find? id = some row ∧ row.slot = slot ∧ actor.reaches row = true

theorem slot_reached (h : actor.reaches row = true) :
    row.slot.1 = actor.organizationId ∧ row.slot.2.1 ∈ actor.scopeKeys := by
  simpa [Actor.reaches, RpcConnectionRow.slot] using h

theorem probeFinished_cases {ok : Bool} (h : s.probeFinished r ok now = some u) :
    ∃ actor id slot makeDefault request, s.requests r = .probing actor id slot makeDefault ∧
      u.lookups = s.lookups ∧ u.requests = Function.update s.requests r request ∧
      ((∃ activated, ok = true ∧
          activationTransaction s.connections actor id slot makeDefault now = .ok (u.connections, activated) ∧
          request = if activated then .activated
            else .refused "The RPC connection changed while it was being activated") ∨
        (∃ message, request = .refused message) ∧
          (u.connections = s.connections ∨
            ok = false ∧ recordCheckFailure s.connections actor id = some u.connections)) := by
  unfold System.probeFinished at h
  split at h
  · next actor id slot makeDefault hrequest =>
    refine ⟨actor, id, slot, makeDefault, ?_⟩
    split at h
    · next hok =>
      split at h
      · obtain rfl := Option.some.inj h
        exact ⟨_, hrequest, rfl, rfl, .inr ⟨⟨_, rfl⟩, .inl rfl⟩⟩
      · obtain rfl := Option.some.inj h
        exact ⟨_, hrequest, rfl, rfl, .inr ⟨⟨_, rfl⟩, .inl rfl⟩⟩
      · obtain rfl := Option.some.inj h
        exact ⟨_, hrequest, rfl, rfl, .inr ⟨⟨_, rfl⟩, .inl rfl⟩⟩
      · next connections activated htransaction =>
        obtain rfl := Option.some.inj h
        exact ⟨_, hrequest, rfl, rfl, .inl ⟨activated, hok, htransaction, rfl⟩⟩
    · next hok =>
      split at h
      · next connections hrecorded =>
        obtain rfl := Option.some.inj h
        exact ⟨_, hrequest, rfl, rfl, .inr ⟨⟨_, rfl⟩, .inr ⟨Bool.eq_false_of_not_eq_true hok, hrecorded⟩⟩⟩
      · obtain rfl := Option.some.inj h
        exact ⟨_, hrequest, rfl, rfl, .inr ⟨⟨_, rfl⟩, .inl rfl⟩⟩
  · cases h

/-- Who a step acts for. -/
def Step.actsFor (s : System) : Step → Option Actor
  | .submit actor _ _ _ _ => some actor
  | .finishProbe r _ _ =>
    match s.requests r with
    | .probing actor _ _ _ => some actor
    | _ => none
  | .deactivate actor _ _ => some actor
  | _ => none

/-- What a step does to the connections. -/
inductive Effect (s u : System) (l : Step) : Prop
  | none (h : u.connections = s.connections)
  | submitted (row : RpcConnectionRow) (actor : Actor) (hactor : l.actsFor s = some actor)
      (hreaches : actor.reaches row = true) (hfresh : s.connections.find? row.id = none) (hok : RowOk row)
      (hdefault : row.isDefault = false)
      (h : u.connections = s.connections.insertNew row)
  | recorded (actor : Actor) (id : String) (hactor : l.actsFor s = some actor)
      (h : recordCheckFailure s.connections actor id = some u.connections)
  | activated (r : Nat) (actor : Actor) (id : String) (slot : Slot) (makeDefault activated : Bool)
      (now : Nat) (hl : l = .finishProbe r true now) (hrequest : s.requests r = .probing actor id slot makeDefault)
      (h : activationTransaction s.connections actor id slot makeDefault now = .ok (u.connections, activated))
  | deactivated (actor : Actor) (id : String) (now : Nat) (hactor : l.actsFor s = some actor)
      (h : deactivationTransaction s.connections actor id now = some u.connections)

theorem lookedUp_eq {secret : Bool} (h : s.lookedUp r secret = some u) :
    ∃ lookup, u = s.look r lookup := by
  unfold System.lookedUp at h
  split at h
  · exact ⟨_, (Option.some.inj h).symm⟩
  · split at h
    · exact ⟨_, (Option.some.inj h).symm⟩
    · exact ⟨_, (Option.some.inj h).symm⟩
  · split at h
    · exact ⟨_, (Option.some.inj h).symm⟩
    · exact ⟨_, (Option.some.inj h).symm⟩
  · cases h

theorem activationStarted_eq (s : System) (r : Nat) (actor : Actor) (id : String) (makeDefault : Bool) :
    ∃ request, s.activationStarted r actor id makeDefault = s.goto r request ∧
      ∀ actor' id' slot makeDefault', request = .probing actor' id' slot makeDefault' →
        ∃ row, s.connections.find? id' = some row ∧ row.slot = slot ∧ actor'.reaches row = true := by
  unfold System.activationStarted
  split
  · exact ⟨_, rfl, fun _ _ _ _ h => by cases h⟩
  · next row hrow =>
    split
    · exact ⟨_, rfl, fun _ _ _ _ h => by cases h⟩
    · refine ⟨_, rfl, fun actor' id' slot makeDefault' h => ?_⟩
      obtain ⟨rfl, rfl, rfl, rfl⟩ := Request.probing.inj h
      obtain ⟨hfound, hreaches⟩ := Option.filter_eq_some_iff.mp hrow
      exact ⟨row, hfound, rfl, hreaches⟩

theorem scopeKey_mem {projectId : Option String} (h : projectId = none ∨ projectId = actor.projectId) :
    projectId.getD organizationScopeKey ∈ actor.scopeKeys := by
  rcases h with rfl | rfl
  · exact List.mem_cons_self
  · rw [Actor.scopeKeys]
    cases actor.projectId <;> simp

theorem effect_of_step (h : step s l = some u) : Effect s u l := by
  cases l with
  | submit actor projectId id network payload =>
    obtain ⟨⟨hproject, hfresh, hchecks⟩, h⟩ := Option.ite_none_right_eq_some.mp h
    obtain rfl := Option.some.inj h
    refine .submitted _ actor rfl ?_ hfresh ?_ rfl rfl
    · exact Bool.and_eq_true_iff.mpr ⟨decide_eq_true rfl, decide_eq_true (scopeKey_mem hproject)⟩
    · exact ⟨hchecks, ⟨fun hf => (by cases hf), fun hf => (by cases hf)⟩, fun hf => (by cases hf),
        fun hf => (by cases hf), .inl rfl⟩
  | startActivation r actor id makeDefault =>
    simp only [step] at h
    split at h
    · obtain rfl := Option.some.inj h
      obtain ⟨request, heq, -⟩ := activationStarted_eq s r actor id makeDefault
      exact .none (by rw [heq]; rfl)
    · cases h
  | finishProbe r ok now =>
    obtain ⟨actor, id, slot, makeDefault, request, hrequest, -, -, hcases⟩ := probeFinished_cases h
    have hactor : (Step.finishProbe r ok now).actsFor s = some actor := by simp only [Step.actsFor, hrequest]
    rcases hcases with ⟨activated, rfl, htransaction, -⟩ | ⟨-, hsame | ⟨-, hrecorded⟩⟩
    · exact .activated r actor id slot makeDefault activated now rfl hrequest htransaction
    · exact .none hsame
    · exact .recorded actor id hactor hrecorded
  | deactivate actor id now =>
    simp only [step] at h
    split at h
    · next hsome =>
      obtain rfl := Option.some.inj h
      exact .deactivated actor id now rfl hsome
    · obtain rfl := Option.some.inj h
      exact .none rfl
  | startLookup r organizationId projectId network =>
    simp only [step] at h
    split at h
    · obtain rfl := Option.some.inj h
      exact .none rfl
    · cases h
  | read r secret =>
    obtain ⟨lookup, rfl⟩ := lookedUp_eq h
    exact .none rfl

theorem Effect.find? (h : Effect s u l) (hs : Inv s) {id : String} (hrow : s.connections.find? id = some row) :
    ∃ row', u.connections.find? id = some row' ∧ Move row row' ∧
      (row' = row ∨ ∃ actor, l.actsFor s = some actor ∧ actor.reaches row = true) := by
  cases h with
  | none h => exact ⟨row, h ▸ hrow, .same, .inl rfl⟩
  | submitted row₀ actor hactor hreaches hfresh hok hdefault h =>
    exact ⟨row, by rw [h, Table.find?_insertNew, hrow]; simp, .same, .inl rfl⟩
  | recorded actor id hactor h =>
    obtain ⟨row', hrow', hmove, hsame⟩ := (recordCheckFailure_moves h).find? hrow
    exact ⟨row', hrow', hmove, hsame.imp (fun h => h) fun hreaches => ⟨actor, hactor, hreaches⟩⟩
  | activated r actor id slot makeDefault activated now hl hrequest h =>
    obtain ⟨row₀, -, rfl, hreaches⟩ := hs.requests r actor id slot makeDefault hrequest
    obtain ⟨row', hrow', hmove, hsame⟩ := (activationTransaction_moves (slot_reached hreaches) h).find? hrow
    have hactor : l.actsFor s = some actor := by simp only [hl, Step.actsFor, hrequest]
    exact ⟨row', hrow', hmove, hsame.imp (fun h => h) fun hreaches => ⟨actor, hactor, hreaches⟩⟩
  | deactivated actor id now hactor h =>
    obtain ⟨row', hrow', hmove, hsame⟩ := (deactivationTransaction_moves h).find? hrow
    exact ⟨row', hrow', hmove, hsame.imp (fun h => h) fun hreaches => ⟨actor, hactor, hreaches⟩⟩

theorem Effect.of_find? (h : Effect s u l) (hs : Inv s) {id : String} {row' : RpcConnectionRow}
    (hrow' : u.connections.find? id = some row') :
    (∃ row, s.connections.find? id = some row ∧ Move row row') ∨ RowOk row' ∧ row'.isDefault = false := by
  cases h with
  | none h => exact .inl ⟨row', h ▸ hrow', .same⟩
  | submitted row₀ actor hactor hreaches hfresh hok hdefault h =>
    rw [h, Table.find?_insertNew] at hrow'
    split at hrow'
    · next hid =>
      rw [hid, hfresh] at hrow'
      obtain rfl := Option.some.inj hrow'
      exact .inr ⟨hok, hdefault⟩
    · exact .inl ⟨row', hrow', .same⟩
  | recorded actor id hactor h =>
    obtain ⟨row, hrow, hmove, -⟩ := (recordCheckFailure_moves h).moved _ _ hrow'
    exact .inl ⟨row, hrow, hmove⟩
  | activated r actor id slot makeDefault activated now hl hrequest h =>
    obtain ⟨row₀, -, rfl, hreaches⟩ := hs.requests r actor id slot makeDefault hrequest
    obtain ⟨row, hrow, hmove, -⟩ := (activationTransaction_moves (slot_reached hreaches) h).moved _ _ hrow'
    exact .inl ⟨row, hrow, hmove⟩
  | deactivated actor id now hactor h =>
    obtain ⟨row, hrow, hmove, -⟩ := (deactivationTransaction_moves h).moved _ _ hrow'
    exact .inl ⟨row, hrow, hmove⟩

theorem Effect.index (h : Effect s u l) (hs : Inv s) : oneDefault u.connections = true := by
  cases h with
  | none h => exact h ▸ hs.index
  | submitted row₀ actor hactor hreaches hfresh hok hdefault h =>
    have hrows : u.connections.rows = s.connections.rows ++ [row₀] := by
      rw [h, Table.insertNew, dif_neg (Table.find?_eq_none_iff.mp hfresh)]
    have hlive : row₀.isLiveDefault = false := by rw [RpcConnectionRow.isLiveDefault, hdefault]; rfl
    have hindex := hs.index
    rw [oneDefault] at hindex ⊢
    simpa [hrows, hlive] using hindex
  | recorded actor id hactor h => exact recordCheckFailure_oneDefault hs.index h
  | activated r actor id slot makeDefault activated now hl hrequest h => exact (activationTransaction_eq h).1
  | deactivated actor id now hactor h => exact deactivationTransaction_oneDefault hs.index h

theorem reaches_congr {row row' : RpcConnectionRow} (h : row'.slot = row.slot) :
    actor.reaches row' = actor.reaches row := by
  obtain ⟨horganization, hslot⟩ := Prod.ext_iff.mp h
  obtain ⟨hscope, -⟩ := Prod.ext_iff.mp hslot
  have horganization : row'.organizationId = row.organizationId := horganization
  have hscope : row'.scopeKey = row.scopeKey := hscope
  rw [Actor.reaches, Actor.reaches, horganization, hscope]

theorem probing_of_step (h : step s l = some u) {r : Nat} {actor : Actor} {id : String}
    {slot : Slot} {makeDefault : Bool} (hu : u.requests r = .probing actor id slot makeDefault) :
    s.requests r = .probing actor id slot makeDefault ∨
      ∃ row, s.connections.find? id = some row ∧ row.slot = slot ∧ actor.reaches row = true := by
  cases l with
  | submit actor projectId id network payload =>
    obtain ⟨-, h⟩ := Option.ite_none_right_eq_some.mp h
    obtain rfl := Option.some.inj h
    exact .inl hu
  | startActivation r' actor' id' makeDefault' =>
    simp only [step] at h
    split at h
    · obtain rfl := Option.some.inj h
      obtain ⟨request, heq, hprobing⟩ := activationStarted_eq s r' actor' id' makeDefault'
      rw [heq, System.goto] at hu
      simp only [Function.update_apply] at hu
      split at hu
      · exact .inr (hprobing _ _ _ _ hu)
      · exact .inl hu
    · cases h
  | finishProbe r' ok now =>
    obtain ⟨_, _, _, _, request, -, -, hrequests, hcases⟩ := probeFinished_cases h
    rw [hrequests, Function.update_apply] at hu
    split at hu
    · rcases hcases with ⟨activated, -, -, rfl⟩ | ⟨⟨message, rfl⟩, -⟩
      · cases activated <;> cases hu
      · cases hu
    · exact .inl hu
  | deactivate actor id now =>
    simp only [step] at h
    split at h
    · obtain rfl := Option.some.inj h
      exact .inl hu
    · obtain rfl := Option.some.inj h
      exact .inl hu
  | startLookup r' organizationId projectId network =>
    simp only [step] at h
    split at h
    · obtain rfl := Option.some.inj h
      exact .inl hu
    · cases h
  | read r' secret =>
    obtain ⟨lookup, rfl⟩ := lookedUp_eq h
    exact .inl hu

theorem Inv.step (hs : Inv s) (h : RpcConnections.step s l = some u) : Inv u := by
  have heffect := effect_of_step h
  refine ⟨fun id row' hrow' => ?_, heffect.index hs, fun r actor id slot makeDefault hu => ?_⟩
  · rcases heffect.of_find? hs hrow' with ⟨row, hrow, hmove⟩ | ⟨hok, -⟩
    · exact hmove.ok (hs.rows id row hrow)
    · exact hok
  · obtain ⟨row, hrow, hslot, hreaches⟩ : ∃ row, s.connections.find? id = some row ∧ row.slot = slot ∧
        actor.reaches row = true := (probing_of_step h hu).elim (hs.requests r actor id slot makeDefault) fun h => h
    obtain ⟨row', hrow', hmove, -⟩ := heffect.find? hs hrow
    exact ⟨row', hrow', hmove.slot.trans hslot, (reaches_congr hmove.slot).trans hreaches⟩

theorem inv_start : Inv System.start :=
  ⟨fun _ _ h => (by cases h), rfl, fun _ _ _ _ _ h => (by cases h)⟩

theorem Inv.run {ls : List Step} (hs : Inv s) (h : Lib.run RpcConnections.step s ls = some u) : Inv u := by
  induction ls generalizing s with
  | nil => exact Option.some.inj h ▸ hs
  | cons l ls ih =>
    obtain ⟨v, hv, h⟩ := Option.bind_eq_some_iff.mp h
    exact ih (hs.step hv) h

/-! ## Administrators -/

def admin : Actor := ⟨"org", none⟩

def organizationSlot : Slot := ("org", organizationScopeKey, .devnet)

/-- A connection goes live, and its next check fails. -/
def liveThenFailed : List Step :=
  [.submit admin none "rconn_1" .devnet none, .startActivation 0 admin "rconn_1" true, .finishProbe 0 true 1,
    .startActivation 1 admin "rconn_1" true, .finishProbe 1 false 2]

/-- A connection that was deactivated is never touched again, its credential is deactivated and its secret forgotten,
and it answers for no scope. -/
theorem deactivation_is_final {ls ls' : List Step} (hs : Lib.run step System.start ls = some s)
    (hrow : s.connections.find? id = some row) (hstatus : row.status = .deactivated) (h : Lib.run step s ls' = some u) :
    u.connections.find? id = some row ∧ row.credential = ⟨.deactivated, none⟩ ∧
      ∀ slot, findEffectiveConnection u.connections slot ≠ some row := by
  have hinv : Inv s := inv_start.run hs
  have hkept : u.connections.find? id = some row := by
    clear hs
    induction ls' generalizing s with
    | nil => exact Option.some.inj h ▸ hrow
    | cons l ls' ih =>
      obtain ⟨v, hv, h⟩ := Option.bind_eq_some_iff.mp h
      obtain ⟨row', hrow', hmove, -⟩ := (effect_of_step hv).find? hinv hrow
      obtain rfl := hmove.of_deactivated (hinv.rows id row hrow) hstatus
      exact ih hrow' h (hinv.step hv)
  have hok := hinv.rows id row hrow
  have hcredential := hok.withdrawn.mp hstatus
  have hforgotten := hok.forgotten hcredential
  refine ⟨hkept, ?_, fun slot heffective => ?_⟩
  · cases hc : row.credential with
    | mk status payload =>
      rw [hc] at hcredential hforgotten
      obtain rfl : status = .deactivated := hcredential
      obtain rfl : payload = none := hforgotten
      rfl
  · have hlive := List.find?_some heffective
    simp [isLive, hcredential] at hlive

theorem withdrawn_stays : ∃ s u row,
    Lib.run step System.start (liveThenFailed ++ [.deactivate admin "rconn_1" 3]) = some s ∧
    Lib.run step s [.startActivation 2 admin "rconn_1" true] = some u ∧ u.connections.find? "rconn_1" = some row ∧
    row.credential = ⟨.deactivated, none⟩ := by
  have hrow : ((Lib.run step System.start (liveThenFailed ++ [.deactivate admin "rconn_1" 3])).bind
      (·.connections.find? "rconn_1")).any (fun row => row.status = .deactivated) = true := by decide
  have hlater : ((Lib.run step System.start (liveThenFailed ++ [.deactivate admin "rconn_1" 3])).bind fun s =>
      Lib.run step s [.startActivation 2 admin "rconn_1" true]).isSome = true := by decide
  cases hs : Lib.run step System.start (liveThenFailed ++ [.deactivate admin "rconn_1" 3]) with
  | none =>
    rw [hs] at hrow
    cases hrow
  | some s =>
    rw [hs, Option.bind_some] at hrow hlater
    obtain ⟨row, hrow, hstatus⟩ := (Option.any_eq_true _ _).mp hrow
    obtain ⟨u, hu⟩ := Option.isSome_iff_exists.mp hlater
    have hfinal := deactivation_is_final hs hrow (of_decide_eq_true hstatus) hu
    exact ⟨s, u, row, rfl, hu, hfinal.1, hfinal.2.1⟩

/-- At most one row is the live default of its slot. -/
theorem live_unique (h : oneDefault t = true) {row row' : RpcConnectionRow} (hrow : row ∈ t.rows)
    (hrow' : row' ∈ t.rows) (hlive : row.isLiveDefault = true) (hlive' : row'.isLiveDefault = true)
    (hslot : row.slot = row'.slot) : row = row' := by
  rw [oneDefault, decide_eq_true_eq] at h
  exact List.inj_on_of_nodup_map h (List.mem_filter.mpr ⟨hrow, hlive⟩) (List.mem_filter.mpr ⟨hrow', hlive'⟩) hslot

/-- What answers for a slot is the one live connection of it. -/
theorem findEffectiveConnection_iff (h : oneDefault t = true) {slot : Slot} :
    findEffectiveConnection t slot = some row ↔ row ∈ t.rows ∧ row.slot = slot ∧ isLive row = true := by
  constructor
  · intro hfound
    have hguard := List.find?_some hfound
    rw [Bool.and_eq_true, inScope, decide_eq_true_eq] at hguard
    exact ⟨List.mem_of_find?_eq_some hfound, hguard⟩
  · rintro ⟨hrow, rfl, hlive⟩
    obtain ⟨row', hrow'⟩ : ∃ row', findEffectiveConnection t row.slot = some row' := by
      rw [← Option.isSome_iff_exists]
      exact List.find?_isSome.mpr ⟨row, hrow, by simp [inScope, hlive]⟩
    have hguard := List.find?_some hrow'
    rw [Bool.and_eq_true, inScope, decide_eq_true_eq] at hguard
    rw [isLive, Bool.and_eq_true] at hlive hguard
    rw [hrow', live_unique h (List.mem_of_find?_eq_some hrow') hrow hguard.2.1 hlive.1 hguard.1]

/-- When a probe succeeds, its connection and credential become active, and the connection the default that answers for
its scope if that was asked for, or the request is refused and every connection is what it was. -/
theorem activation_is_whole {ls : List Step} (hs : Lib.run step System.start ls = some s) {slot : Slot}
    {makeDefault : Bool} (hrequest : s.requests r = .probing actor id slot makeDefault)
    (h : step s (.finishProbe r true now) = some u) :
    (u.requests r = .activated ∧ ∃ row, u.connections.find? id = some row ∧ row.status = .active ∧
        row.credential.status = .active ∧ row.isDefault = makeDefault ∧
        (makeDefault = true → findEffectiveConnection u.connections slot = some row)) ∨
      u.connections = s.connections ∧ ∃ message, u.requests r = .refused message := by
  have hinv : Inv s := inv_start.run hs
  obtain ⟨actor', id', slot', makeDefault', request, hrequest', -, hrequests, hcases⟩ := probeFinished_cases h
  obtain ⟨rfl, rfl, rfl, rfl⟩ := Request.probing.inj (hrequest.symm.trans hrequest')
  have hdone : u.requests r = request := by rw [hrequests, Function.update_self]
  rcases hcases with ⟨activated, -, htransaction, rfl⟩ | ⟨⟨message, rfl⟩, hsame | ⟨hfalse, -⟩⟩
  · left
    obtain ⟨hindex, row, hrow, -, hpromotable, rfl, hfind⟩ := activationTransaction_eq htransaction
    have hactivatable : row.activatable = true := by
      by_contra hn
      exact (hinv.rows id row hrow).not_promoted hpromotable (not_activatable (Bool.eq_false_of_not_eq_true hn))
    have hrow' : u.connections.find? id = some (row.promote.activate makeDefault now) := by
      rw [hfind, if_pos rfl, if_pos hactivatable]
    refine ⟨by rw [hdone, if_pos hactivatable], _, hrow', rfl, rfl, rfl, fun hdefault => ?_⟩
    obtain ⟨row₀, hrow₀, hslot, -⟩ := hinv.requests r actor id slot makeDefault hrequest
    obtain rfl := Option.some.inj (hrow.symm.trans hrow₀)
    exact (findEffectiveConnection_iff hindex).mpr ⟨(Table.find?_eq_some_iff.mp hrow').1, hslot, by rw [hdefault]; rfl⟩
  · exact .inr ⟨hsame, message, hdone⟩
  · cases hfalse

theorem first_activation_is_whole : ∃ s u, Lib.run step System.start (liveThenFailed.take 2) = some s ∧
    step s (.finishProbe 0 true 1) = some u ∧
    ((u.requests 0 = .activated ∧ ∃ row, u.connections.find? "rconn_1" = some row ∧ row.status = .active ∧
        row.credential.status = .active ∧ row.isDefault = true ∧
        (true = true → findEffectiveConnection u.connections organizationSlot = some row)) ∨
      u.connections = s.connections ∧ ∃ message, u.requests 0 = .refused message) := by
  have hrequest : (Lib.run step System.start (liveThenFailed.take 2)).map (·.requests 0) =
      some (.probing admin "rconn_1" organizationSlot true) := by decide
  have hlater : ((Lib.run step System.start (liveThenFailed.take 2)).bind fun s =>
      step s (.finishProbe 0 true 1)).isSome = true := by decide
  cases hs : Lib.run step System.start (liveThenFailed.take 2) with
  | none =>
    rw [hs] at hrequest
    cases hrequest
  | some s =>
    rw [hs] at hrequest hlater
    obtain ⟨u, hu⟩ := Option.isSome_iff_exists.mp hlater
    exact ⟨s, u, rfl, hu, activation_is_whole hs (Option.some.inj hrequest) hu⟩

/-- A connection changes only by someone who acts for its organization, and for the organization as a whole or for its
project. -/
theorem foreign_connections_untouched {ls : List Step} (hs : Lib.run step System.start ls = some s)
    (hrow : s.connections.find? id = some row) (h : step s l = some u)
    (hforeign : ∀ actor, l.actsFor s = some actor → actor.reaches row = false) : u.connections.find? id = some row := by
  obtain ⟨row', hrow', -, rfl | ⟨actor, hactor, hreaches⟩⟩ :=
    (effect_of_step h).find? (inv_start.run hs) hrow
  · exact hrow'
  · rw [hforeign actor hactor] at hreaches
    cases hreaches

theorem other_organization_changes_nothing : ∃ s u row, Lib.run step System.start liveThenFailed = some s ∧
    step s (.deactivate ⟨"other", none⟩ "rconn_1" 3) = some u ∧ u.connections.find? "rconn_1" = some row := by
  have hrow : ((Lib.run step System.start liveThenFailed).bind (·.connections.find? "rconn_1")).any
      (fun row => Actor.reaches ⟨"other", none⟩ row = false) = true := by decide
  have hlater : ((Lib.run step System.start liveThenFailed).bind fun s =>
      step s (.deactivate ⟨"other", none⟩ "rconn_1" 3)).isSome = true := by decide
  cases hs : Lib.run step System.start liveThenFailed with
  | none =>
    rw [hs] at hrow
    cases hrow
  | some s =>
    rw [hs, Option.bind_some] at hrow hlater
    obtain ⟨row, hrow, hforeign⟩ := (Option.any_eq_true _ _).mp hrow
    obtain ⟨u, hu⟩ := Option.isSome_iff_exists.mp hlater
    refine ⟨s, u, row, rfl, hu, foreign_connections_untouched hs hrow hu fun actor hactor => ?_⟩
    rw [← Option.some.inj hactor]
    exact of_decide_eq_true hforeign

/-! ## The relay -/

/-- No connection goes live in a slot between the two reads of a lookup there. -/
def Quiet (s : System) (l : Step) : Prop :=
  ∀ r now actor id slot makeDefault, l = .finishProbe r true now → s.requests r = .probing actor id slot makeDefault →
    ∀ r' slots, s.lookups r' ≠ .asking (slot :: slots) true

/-- A slot of which a lookup missed a live connection still has none. -/
def Missed (s : System) : Prop :=
  ∀ r slot slots, s.lookups r = .asking (slot :: slots) true →
    ∀ id row, s.connections.find? id = some row → row.slot = slot → isLive row = false

theorem live_of_step (hs : Inv s) (h : step s l = some u) {row' : RpcConnectionRow}
    (hrow' : u.connections.find? id = some row') (hlive : isLive row' = true) :
    (∃ row, s.connections.find? id = some row ∧ row.slot = row'.slot ∧ isLive row = true) ∨
      ∃ r now actor makeDefault, l = .finishProbe r true now ∧
        s.requests r = .probing actor id row'.slot makeDefault := by
  cases effect_of_step h with
  | none h => exact .inl ⟨row', h ▸ hrow', rfl, hlive⟩
  | submitted row₀ actor hactor hreaches hfresh hok hdefault h =>
    rw [h, Table.find?_insertNew] at hrow'
    split at hrow'
    · next hid =>
      rw [hid, hfresh] at hrow'
      obtain rfl := Option.some.inj hrow'
      simp [isLive, RpcConnectionRow.isLiveDefault, hdefault] at hlive
    · exact .inl ⟨row', hrow', rfl, hlive⟩
  | recorded actor id' hactor h =>
    obtain ⟨-, h⟩ := Option.ite_none_right_eq_some.mp h
    rw [← Option.some.inj h] at hrow'
    obtain ⟨row, hrow, rfl | ⟨-, -, rfl⟩⟩ := Table.row_of_update _ hrow'
    · exact .inl ⟨row', hrow, rfl, hlive⟩
    · cases hlive
  | activated r actor id' slot makeDefault activated now hl hrequest h =>
    obtain ⟨-, row, hrow, -, -, -, hfind⟩ := activationTransaction_eq h
    obtain ⟨row₀, hrow₀, hslot, -⟩ := hs.requests r actor id' slot makeDefault hrequest
    obtain rfl := Option.some.inj (hrow.symm.trans hrow₀)
    rw [hfind] at hrow'
    split at hrow'
    · next hid =>
      have hslot' : row'.slot = slot := by
        rw [← Option.some.inj hrow']
        split <;> exact hslot
      exact .inr ⟨r, now, actor, makeDefault, hl, by rw [hid, hslot', hrequest]⟩
    · obtain ⟨row₁, hrow₁, rfl⟩ := Option.map_eq_some_iff.mp hrow'
      split at hlive
      · cases hlive
      · next hkept => exact .inl ⟨row₁, hrow₁, by rw [if_neg hkept], hlive⟩
  | deactivated actor id' now hactor h =>
    obtain ⟨-, h⟩ := Option.ite_none_right_eq_some.mp h
    rw [← Option.some.inj h] at hrow'
    obtain ⟨row, hrow, rfl | ⟨-, -, rfl⟩⟩ := Table.row_of_update _ hrow'
    · exact .inl ⟨row', hrow, rfl, hlive⟩
    · cases hlive

theorem lookups_of_step (h : step s l = some u) (r : Nat) :
    u.lookups r = s.lookups r ∨
      (s.lookups r = .idle ∧ ∃ organizationId projectId network,
        u.lookups r = .asking (lookupSlots organizationId projectId network) false) ∨
      ∃ secret, l = .read r secret ∧ u.connections = s.connections := by
  cases l with
  | submit actor projectId id network payload =>
    obtain ⟨-, h⟩ := Option.ite_none_right_eq_some.mp h
    exact .inl (Option.some.inj h ▸ rfl)
  | startActivation r' actor' id' makeDefault' =>
    simp only [step] at h
    split at h
    · obtain rfl := Option.some.inj h
      obtain ⟨request, heq, -⟩ := activationStarted_eq s r' actor' id' makeDefault'
      exact .inl (by rw [heq]; rfl)
    · cases h
  | finishProbe r' ok now =>
    obtain ⟨_, _, _, _, _, -, hlookups, -, -⟩ := probeFinished_cases h
    exact .inl (by rw [hlookups])
  | deactivate actor id now =>
    simp only [step] at h
    split at h
    · exact .inl (Option.some.inj h ▸ rfl)
    · exact .inl (Option.some.inj h ▸ rfl)
  | startLookup r' organizationId projectId network =>
    simp only [step] at h
    split at h
    · next hidle =>
      obtain rfl := Option.some.inj h
      by_cases hr : r = r'
      · subst hr
        exact .inr (.inl ⟨hidle, organizationId, projectId, network, Function.update_self ..⟩)
      · exact .inl (Function.update_of_ne hr ..)
    · cases h
  | read r' secret =>
    obtain ⟨lookup, rfl⟩ := lookedUp_eq h
    by_cases hr : r = r'
    · exact .inr (.inr ⟨secret, by rw [hr], rfl⟩)
    · exact .inl (Function.update_of_ne hr ..)

theorem read_cases {secret : Bool} {slots : List (Slot)} {missed : Bool}
    (hlookup : s.lookups r = .asking slots missed) (h : step s (.read r secret) = some u) :
    (slots = [] ∧ u.lookups r = .answered .platform) ∨
    ∃ slot rest, slots = slot :: rest ∧
      ((missed = false ∧ ∃ row, findEffectiveConnection s.connections slot = some row ∧
          u.lookups r = .answered (if secret then .connection row.id else .unusable)) ∨
        (missed = false ∧ findEffectiveConnection s.connections slot = none ∧ u.lookups r = .asking slots true) ∨
        (missed = true ∧ findScopeConnectionState s.connections slot = .unusable ∧ u.lookups r = .answered .unusable) ∨
        (missed = true ∧ findScopeConnectionState s.connections slot ≠ .unusable ∧
          u.lookups r = .asking rest false)) := by
  cases slots with
  | nil =>
    simp only [step, System.lookedUp, hlookup] at h
    obtain rfl := Option.some.inj h
    exact .inl ⟨rfl, Function.update_self ..⟩
  | cons slot rest =>
    refine .inr ⟨slot, rest, rfl, ?_⟩
    cases missed with
    | false =>
      simp only [step, System.lookedUp, hlookup] at h
      split at h
      · next row hrow =>
        obtain rfl := Option.some.inj h
        exact .inl ⟨rfl, row, hrow, Function.update_self ..⟩
      · next hnone =>
        obtain rfl := Option.some.inj h
        exact .inr (.inl ⟨rfl, hnone, Function.update_self ..⟩)
    | true =>
      simp only [step, System.lookedUp, hlookup] at h
      split at h
      · next hunusable =>
        obtain rfl := Option.some.inj h
        exact .inr (.inr (.inl ⟨rfl, hunusable, Function.update_self ..⟩))
      · next hne =>
        obtain rfl := Option.some.inj h
        exact .inr (.inr (.inr ⟨rfl, hne, Function.update_self ..⟩))

theorem findEffectiveConnection_eq_none {slot : Slot} (h : findEffectiveConnection t slot = none)
    (hrow : row ∈ t.rows) (hslot : row.slot = slot) : isLive row = false := by
  have hguard := List.find?_eq_none.mp h row hrow
  simpa [inScope, hslot] using hguard

theorem findScopeConnectionState_unusable {slot : Slot}
    (hlive : ∀ row ∈ t.rows, row.slot = slot → isLive row = false) (hrow : row ∈ t.rows) (hslot : row.slot = slot)
    (hconfigured : isConfigured row = true) : findScopeConnectionState t slot = .unusable := by
  have hmem : row ∈ t.rows.filter fun row => inScope slot row && isConfigured row :=
    List.mem_filter.mpr ⟨hrow, by simp [inScope, hslot, hconfigured]⟩
  have hnone : (t.rows.filter fun row => inScope slot row && isConfigured row).find? isLive = none := by
    rw [List.find?_eq_none]
    intro row' hrow'
    obtain ⟨hrow', hguard⟩ := List.mem_filter.mp hrow'
    rw [Bool.and_eq_true, inScope, decide_eq_true_eq] at hguard
    simp [hlive row' hrow' hguard.1]
  rw [findScopeConnectionState]
  simp only [hnone, List.isEmpty_eq_false_iff.mpr (List.ne_nil_of_mem hmem), Bool.false_eq_true, if_false]

theorem Missed.step (hinv : Inv s) (hs : Missed s) (hquiet : Quiet s l) (h : RpcConnections.step s l = some u) :
    Missed u := by
  intro r slot slots hlookup id row' hrow' hslot
  by_contra hlive
  have hlive : isLive row' = true := Bool.eq_true_of_not_eq_false hlive
  have hbefore : s.lookups r = .asking (slot :: slots) true → False := by
    intro hasking
    rcases live_of_step hinv h hrow' hlive with
      ⟨row, hrow, hrowslot, hrowlive⟩ | ⟨r', now, actor, makeDefault, hl, hrequest⟩
    · rw [hs r slot slots hasking id row hrow (hrowslot.trans hslot)] at hrowlive
      cases hrowlive
    · exact hquiet r' now actor id _ makeDefault hl hrequest r slots (hslot ▸ hasking)
  rcases lookups_of_step h r with hsame | ⟨-, _, _, _, hstarted⟩ | ⟨secret, rfl, hconnections⟩
  · exact hbefore (hsame ▸ hlookup)
  · rw [hstarted] at hlookup
    cases (Lookup.asking.inj hlookup).2
  · cases hasking : s.lookups r with
    | idle => simp [RpcConnections.step, System.lookedUp, hasking] at h
    | answered answer => simp [RpcConnections.step, System.lookedUp, hasking] at h
    | asking slots' missed =>
      rcases read_cases hasking h with
        ⟨-, hu⟩ | ⟨slot', rest, rfl, ⟨-, _, -, hu⟩ | ⟨rfl, hnone, hu⟩ | ⟨-, -, hu⟩ | ⟨-, -, hu⟩⟩
      · rw [hu] at hlookup; cases hlookup
      · rw [hu] at hlookup; cases hlookup
      · rw [hu] at hlookup
        obtain ⟨hslots, -⟩ := Lookup.asking.inj hlookup
        obtain ⟨rfl, rfl⟩ := List.cons.inj hslots
        rw [hconnections] at hrow'
        rw [findEffectiveConnection_eq_none hnone (Table.find?_eq_some_iff.mp hrow').1 hslot] at hlive
        cases hlive
      · rw [hu] at hlookup; cases hlookup
      · rw [hu] at hlookup; cases hlookup

theorem quiet_invariant (h : Reachable step (· = System.start) Quiet s) : Inv s ∧ Missed s := by
  refine h.invariant (P := fun s => Inv s ∧ Missed s) (fun s hs => ?_)
    fun s l u _ hs hquiet h => ⟨hs.1.step h, hs.2.step hs.1 hquiet h⟩
  subst hs
  exact ⟨inv_start, fun _ _ _ h => by cases h⟩

/-- The slot holds a connection that was live or whose check failed, and that is not withdrawn. -/
def Configured (slot : Slot) (s : System) : Prop :=
  ∃ row ∈ s.connections.rows, row.slot = slot ∧ isConfigured row = true

/-- A lookup still has a slot to ask, or is answered with what the tenant has. -/
def Unanswered (r : Nat) (slot : Slot) (s : System) : Prop :=
  (∃ slots missed, s.lookups r = .asking slots missed ∧ slot ∈ slots) ∨
    ∃ answer, s.lookups r = .answered answer ∧ answer ≠ .platform

/-- A lookup that still has a configured slot to ask is not answered with what the platform manages, as long as no
connection of a slot goes live between the two reads of it. -/
theorem relay_fails_closed (hs : Reachable step (· = System.start) Quiet s) {slots : List (Slot)}
    {slot : Slot} (hlookup : s.lookups r = .asking slots false) (hslot : slot ∈ slots)
    (h : Reachable step (· = s) (fun v l => Quiet v l ∧ Configured slot v) u) :
    u.lookups r ≠ .answered .platform := by
  have hinv : (Inv u ∧ Missed u) ∧ Unanswered r slot u := by
    refine h.invariant (P := fun u => (Inv u ∧ Missed u) ∧ Unanswered r slot u) (fun v hv => ?_)
      fun v l w _ hv hok hw => ?_
    · subst hv
      exact ⟨quiet_invariant hs, .inl ⟨slots, false, hlookup, hslot⟩⟩
    · obtain ⟨⟨hinv, hmissed⟩, hstage⟩ := hv
      obtain ⟨hquiet, row, hrow, hrowslot, hconfigured⟩ := hok
      refine ⟨⟨hinv.step hw, hmissed.step hinv hquiet hw⟩, ?_⟩
      rcases lookups_of_step hw r with hsame | ⟨hidle, -⟩ | ⟨secret, rfl, -⟩
      · rwa [Unanswered, hsame]
      · rcases hstage with ⟨_, _, hasking, -⟩ | ⟨_, hanswered, -⟩
        · rw [hidle] at hasking; cases hasking
        · rw [hidle] at hanswered; cases hanswered
      · rcases hstage with ⟨slots, missed, hasking, hmem⟩ | ⟨answer, hanswered, -⟩
        · rcases read_cases hasking hw with ⟨rfl, -⟩ | ⟨slot', rest, rfl, hread⟩
          · cases hmem
          · rcases hread with ⟨-, row', -, hw'⟩ | ⟨-, -, hw'⟩ | ⟨-, -, hw'⟩ | ⟨rfl, hne, hw'⟩
            · refine .inr ⟨_, hw', ?_⟩
              cases secret <;> simp
            · exact .inl ⟨_, _, hw', hmem⟩
            · exact .inr ⟨_, hw', by simp⟩
            · -- The slot that is passed is not the configured one.
              refine .inl ⟨rest, false, hw', (List.mem_cons.mp hmem).resolve_left fun heq => hne ?_⟩
              subst heq
              exact findScopeConnectionState_unusable
                (fun row hrow => hmissed r slot rest hasking row.id row (Table.mem_rows_iff.mp hrow))
                hrow hrowslot hconfigured
        · simp [step, System.lookedUp, hanswered] at hw
  rcases hinv.2 with ⟨slots, missed, hasking, -⟩ | ⟨answer, hanswered, hne⟩
  · rw [hasking]
    simp
  · rw [hanswered]
    exact fun heq => hne (Lookup.answered.inj heq)

/-- A connection whose first check fails. -/
def failedThenLookup : List Step :=
  [.submit admin none "rconn_1" .devnet none, .startActivation 0 admin "rconn_1" true, .finishProbe 0 false 1,
    .startLookup 0 "org" none .devnet]

theorem failed_is_not_passed : ∃ s u, Lib.run step System.start failedThenLookup = some s ∧
    step s (.read 0 true) = some u ∧ u.lookups 0 ≠ .answered .platform := by
  have hlookup : (Lib.run step System.start failedThenLookup).map (·.lookups 0) =
      some (.asking [organizationSlot] false) := by decide
  have hconfigured : (Lib.run step System.start failedThenLookup).any (fun s =>
      s.connections.rows.any fun row => row.slot = organizationSlot && isConfigured row) = true := by decide
  have hlater : ((Lib.run step System.start failedThenLookup).bind fun s => step s (.read 0 true)).isSome = true := by
    decide
  have hquiet : ∀ v, ∀ l ∈ failedThenLookup, Quiet v l := by
    intro v l hl r now actor id slot makeDefault heq
    subst heq
    simp [failedThenLookup] at hl
  cases hs : Lib.run step System.start failedThenLookup with
  | none =>
    rw [hs] at hlookup
    cases hlookup
  | some s =>
    rw [hs] at hlookup hconfigured
    rw [hs, Option.bind_some] at hlater
    obtain ⟨u, hu⟩ := Option.isSome_iff_exists.mp hlater
    obtain ⟨row, hrow, hguard⟩ := List.any_eq_true.mp (show (s.connections.rows.any fun row =>
      row.slot = organizationSlot && isConfigured row) = true from hconfigured)
    obtain ⟨hslot, hrowconfigured⟩ := Bool.and_eq_true_iff.mp hguard
    have hstart : Reachable step (· = System.start) Quiet System.start := .start rfl
    have hreachable := hstart.run_of hquiet hs
    have hread : Reachable step (· = s) (fun v l => Quiet v l ∧ Configured organizationSlot v) u := by
      refine .step (.start rfl) ⟨?_, row, hrow, of_decide_eq_true hslot, hrowconfigured⟩ hu
      exact fun _ _ _ _ _ _ h => by cases h
    exact ⟨s, u, rfl, hu, relay_fails_closed hreachable (Option.some.inj hlookup) List.mem_cons_self hread⟩

/-- The connection is live or failed all along, but the lookup misses it: it goes live between the two reads. -/
theorem race_goes_to_platform :
    (Lib.run step System.start (liveThenFailed ++ [.startLookup 0 "org" none .devnet, .read 0 true,
      .startActivation 2 admin "rconn_1" true, .finishProbe 2 true 3, .read 0 true, .read 0 true])).map (·.lookups 0) =
      some (.answered .platform) := by
  decide

end Sdp.RpcConnections
