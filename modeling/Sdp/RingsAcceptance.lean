import Sdp.RingsBroadcasts

/-!
# What becomes of a transaction that the network has accepted

An error after the broadcast is reported as a failure that may be retried. When no such error happens while the
transaction is accepted or still to be broadcast, only the timeout of the index fails its operation.
-/

open Sdp.Lib

namespace Sdp.Rings

open Payments (CallOutcome)

variable {deps : Dependencies} {s t : System}

/-! ## The errors that are reported -/

/-- The network has the transaction of the operation, or may still get it. -/
def Live (s : System) (id : String) : Prop := id ∈ s.accepted ∨ ∃ n, (s.processes n).broadcasts = some id

def In (s : System) (id : String) (state : OperationState) : Prop :=
  ∃ row, s.operations.find? id = some row ∧ row.state = state

/-- Photon indexed the transaction within the budget. -/
def IndexedInTime (s : System) (id : String) : Prop :=
  ∃ since indexedAt, s.indexingSince id = some since ∧ s.photon id = some indexedAt ∧
    indexedAt ≤ since + ringsIndexingTimeoutMs

/-- The call of a process reports no failure of a transaction that is live. -/
def CallSurvives (s : System) (c : Call) (p : Process) : Prop :=
  match c, p with
  | .submitOuterTransaction accepted error, .submitting .. => error.isSome → accepted = false
  | .append error, .appending ref .transactionSubmitted => error.isSome → ¬ (Live s ref.id ∧ In s ref.id .submitted)
  | .transitionState outcome _, .transitioning ref .submitted =>
    outcome = .failed → ¬ (Live s ref.id ∧ In s ref.id .submitted)
  | .transitionState outcome _, .transitioning ref (.indexed _) =>
    outcome = .failed → ¬ (Live s ref.id ∧ In s ref.id .indexing)
  | .verifyIndexed error, .verifying ref _ => error.isSome → ¬ (Live s ref.id ∧ In s ref.id .indexing)
  | .failOperation outcome, .timingOut ref => outcome ≠ .failed → ¬ (In s ref.id .indexing ∧ IndexedInTime s ref.id)
  | _, _ => True

def Survives (s : System) : Event → Prop
  | .call n c => CallSurvives s c (s.processes n)
  | .elapse _ | .resolveApproval .. | .index _ => True

/-! ## What is kept -/

/-- The sweep failed the operation after the budget was over, and Photon had not indexed it by then. -/
def TimedOut (s : System) (row : OperationRow) : Prop :=
  row.state = .failed ∧ row.failure = some System.timeoutFailure ∧ ∃ since, s.indexingSince row.id = some since ∧
    since + ringsIndexingTimeoutMs < s.now ∧
    ∀ indexedAt, s.photon row.id = some indexedAt → since + ringsIndexingTimeoutMs < indexedAt

def Reported (s : System) (row : OperationRow) : Prop :=
  row.state = .submitted ∨ row.state = .indexing ∨ row.state = .completed ∨ TimedOut s row

/-- The operation came to `indexing` so long ago that its budget is over. -/
def Overdue (s : System) (ref : OperationRef) : Prop :=
  (∃ row, s.operations.find? ref.id = some row ∧ OperationState.indexing.rank ≤ row.state.rank) ∧
    ∃ since, s.indexingSince ref.id = some since ∧ since + ringsIndexingTimeoutMs < s.now

/-- A process that is about to fail an operation. -/
def Harmless (s : System) : Process → Prop
  | .failing ref state _ =>
    OperationState.submitted.rank ≤ state.rank → ¬ Live s ref.id ∨ Past s ref state
  | .timingOut ref => Overdue s ref
  | _ => True

structure Kept (s : System) : Prop where
  since : ∀ id row, s.operations.find? id = some row → row.state = .indexing →
    s.indexingSince id = some row.updatedAt
  reported : ∀ id, Live s id → ∃ row, s.operations.find? id = some row ∧ Reported s row
  harmless : ∀ n, Harmless s (s.processes n)
  overdue : ∀ n ref, Task.timeOut ref ∈ s.tasks n → Overdue s ref
  called : ∀ id ∈ s.accepted, id ∈ s.submissions.map (·.operationId)

/-! ## Later systems -/

structure Onward (s t : System) : Prop where
  ext : Extends s t
  now : s.now ≤ t.now
  since : ∀ id row, s.operations.find? id = some row → OperationState.indexing.rank ≤ row.state.rank →
    t.indexingSince id = s.indexingSince id
  /-- A transaction comes to life when its signature is stored. -/
  live : ∀ id, Live t id → Live s id ∨ In s id .readyToSign
  photon : ∀ id indexedAt, t.photon id = some indexedAt → s.photon id = some indexedAt ∨ s.now ≤ indexedAt

theorem Onward.dead {ref : OperationRef} {state : OperationState} (h : Onward s t) (hat : At s ref state)
    (hrank : OperationState.submitted.rank ≤ state.rank) (hdead : ¬ Live s ref.id) : ¬ Live t ref.id := by
  intro hlive
  rcases h.live _ hlive with hlive | ⟨row, hrow, hstate⟩
  · exact hdead hlive
  · obtain ⟨row', hrow', -, hle⟩ := hat
    cases hrow.symm.trans hrow'
    rw [hstate] at hle
    exact absurd (hrank.trans hle) (by decide)

theorem Overdue.onward {ref : OperationRef} (h : Overdue s ref) (hon : Onward s t) : Overdue t ref := by
  obtain ⟨⟨row, hrow, hrank⟩, since, hsince, hover⟩ := h
  obtain ⟨row', hrow', hlater⟩ := hon.ext.rows _ row hrow
  refine ⟨⟨row', hrow', hrank.trans hlater.rank_le⟩, since, ?_, hover.trans_le hon.now⟩
  exact (hon.since _ row hrow hrank).trans hsince

theorem Harmless.onward {p : Process} (h : Harmless s p) (hplaced : Placed s p) (hon : Onward s t) : Harmless t p := by
  cases p with
  | failing ref state failure =>
    intro hrank
    rcases h hrank with hdead | hpast
    · exact .inl (hon.dead (hplaced ref state rfl) hrank hdead)
    · exact .inr (hpast.extends hon.ext)
  | timingOut ref => exact Overdue.onward h hon
  | _ => trivial

theorem TimedOut.onward {id : String} {row : OperationRow} (h : TimedOut s row) (hon : Onward s t)
    (hrow : s.operations.find? id = some row) : TimedOut t row := by
  obtain ⟨hfailed, hfailure, since, hsince, hover, hphoton⟩ := h
  have hid : row.id = id := Table.key_of_find? hrow
  refine ⟨hfailed, hfailure, since, ?_, hover.trans_le hon.now, fun indexedAt hindexed => ?_⟩
  · rw [hid] at hsince ⊢
    refine (hon.since id row hrow ?_).trans hsince
    rw [hfailed]
    decide
  · rcases hon.photon _ _ hindexed with hindexed | hlate
    · exact hphoton indexedAt hindexed
    · exact hover.trans_le hlate

theorem Reported.onward {id : String} {row : OperationRow} (h : Reported s row) (hon : Onward s t)
    (hrow : s.operations.find? id = some row) : Reported t row := by
  rcases h with h | h | h | h
  · exact .inl h
  · exact .inr (.inl h)
  · exact .inr (.inr (.inl h))
  · exact .inr (.inr (.inr (h.onward hon hrow)))

theorem Kept.onward (hinv : Inv deps s) (hs : Kept s) (hon : Onward s t)
    (hsince : ∀ id row, t.operations.find? id = some row → row.state = .indexing →
      t.indexingSince id = some row.updatedAt)
    (hreported : ∀ id, Live t id → ∃ row, t.operations.find? id = some row ∧ Reported t row)
    (hprocesses : ∀ n, t.processes n = s.processes n ∨ Harmless t (t.processes n))
    (htasks : ∀ n ref, Task.timeOut ref ∈ t.tasks n → Task.timeOut ref ∈ s.tasks n ∨ Overdue t ref)
    (hcalled : ∀ id ∈ t.accepted, id ∈ t.submissions.map (·.operationId)) : Kept t := by
  refine ⟨hsince, hreported, fun n => ?_, fun n ref hmem => ?_, hcalled⟩
  · rcases hprocesses n with hsame | hharmless
    · rw [hsame]
      exact (hs.harmless n).onward (hinv.processes n).placed hon
    · exact hharmless
  · rcases htasks n ref hmem with hmem | hoverdue
    · exact (hs.overdue n ref hmem).onward hon
    · exact hoverdue

theorem Kept.sameRows (hinv : Inv deps s) (hs : Kept s) (hext : Extends s t) (hoperations : t.operations = s.operations)
    (hindexing : t.indexingSince = s.indexingSince) (hnow : s.now ≤ t.now)
    (hphoton : ∀ id indexedAt, t.photon id = some indexedAt → s.photon id = some indexedAt ∨ s.now ≤ indexedAt)
    (hlive : ∀ id, Live t id → Live s id)
    (hprocesses : Onward s t → ∀ n, t.processes n = s.processes n ∨ Harmless t (t.processes n))
    (htasks : Onward s t → ∀ n ref, Task.timeOut ref ∈ t.tasks n → Task.timeOut ref ∈ s.tasks n ∨ Overdue t ref)
    (hcalled : ∀ id ∈ t.accepted, id ∈ t.submissions.map (·.operationId)) : Kept t := by
  have hon : Onward s t :=
    ⟨hext, hnow, fun _ _ _ _ => by rw [hindexing], fun id h => .inl (hlive id h), hphoton⟩
  refine hs.onward hinv hon (fun id row hrow hstate => ?_) (fun id h => ?_) (hprocesses hon) (htasks hon) hcalled
  · rw [hindexing]
    exact hs.since id row (hoperations ▸ hrow) hstate
  · obtain ⟨row, hrow, hreported⟩ := hs.reported id (hlive id h)
    exact ⟨row, hoperations ▸ hrow, hreported.onward hon hrow⟩

/-! ## Steps -/

theorem harmless_thrown {ref : OperationRef} {caught : Option OperationState} {error : PortError}
    (h : ∀ state, caught = some state → OperationState.submitted.rank ≤ state.rank →
      ¬ Live s ref.id ∨ Past s ref state) : Harmless s (.thrown ref caught error) := by
  cases caught with
  | none => trivial
  | some state => exact h state rfl

theorem dead_or_past {ref : OperationRef} {state : OperationState} (hat : At s ref state)
    (h : ¬ (Live s ref.id ∧ In s ref.id state)) : ¬ Live s ref.id ∨ Past s ref state := by
  by_cases hin : In s ref.id state
  · exact .inl fun hlive => h ⟨hlive, hin⟩
  · refine .inr (past_of_miss hat fun row hrow => hin ⟨row, hrow.1, hrow.2.2⟩)

theorem past_of_at {ref : OperationRef} {state state' : OperationState} (hat : At s ref state)
    (hlt : state'.rank < state.rank) : Past s ref state' := by
  obtain ⟨row, hrow, -, hle⟩ := hat
  exact ⟨row, hrow, hlt.trans_le hle⟩

theorem harmless_polling {ref : OperationRef} {row : OperationRow} (h : (filled row.outerTxSignature).isSome = true) :
    Harmless s (.polling ref row) := by
  unfold Process.polling
  split
  · next hnone =>
    rw [hnone] at h
    cases h
  · trivial

theorem harmless_afterAppend {ref : OperationRef} {note : Note} (hfacts : NoteFacts deps s ref note) :
    Harmless s (.afterAppend ref note) := by
  cases note with
  | transitioned site row =>
    cases site with
    | policyOk evaluation =>
      show Harmless s (if evaluation.requiresApproval then _ else _)
      split <;> trivial
    | resumed => exact harmless_polling hfacts.2
    | _ => trivial
  | evaluated evaluation =>
    show Harmless s (if evaluation.decision = .deny then _ else _)
    split
    · exact fun hrank => absurd hrank (by decide)
    · trivial
  | _ => trivial

theorem harmless_execute (hinv : Inv deps s) {ref : OperationRef} {row : OperationRow}
    (h : s.operations.getOperationById ref = some row) : Harmless s (.execute ref row) := by
  obtain ⟨hrow, -⟩ := at_of_getOperationById h
  unfold Process.execute
  split
  · split
    · exact fun hrank => absurd hrank (by decide)
    · trivial
  · trivial
  · next hstate =>
    refine harmless_polling ((hinv.rows _ _ hrow).signed ?_ ?_)
    · rw [hstate]; decide
    · rw [hstate]; exact nofun
  · trivial

theorem harmless_of_moves (hinv : Inv deps s) {c : Call} {p p' : Process} (hok : ProcessOk deps s p)
    (hsurvives : CallSurvives s c p) (h : Moves deps s c p p') : Harmless s p' := by
  cases h with
  | appended => exact harmless_afterAppend hok.facts
  | @appendThrown ref note error =>
    refine harmless_thrown fun state hcaught hrank => ?_
    have hat : At s ref note.reached := hok.placed _ _ rfl
    cases note with
    | transitioned site row =>
      -- The transition is done.
      obtain ⟨rfl, -⟩ := Site.caught_spec hcaught
      exact .inr (past_of_at hat ((rank_target site).symm ▸ Nat.lt_succ_self _))
    | transactionSubmitted =>
      cases hcaught
      exact dead_or_past hat (hsurvives rfl)
    | completed =>
      cases hcaught
      exact .inr (past_of_at hat (by decide))
    | proofReceived =>
      cases hcaught
      exact absurd hrank (by decide)
    | _ => cases hcaught
  | @transitionThrown ref site outcome message hfailed =>
    refine harmless_thrown fun state hcaught hrank => ?_
    obtain ⟨rfl, -⟩ := Site.caught_spec hcaught
    have hat : At s ref site.expectedState := hok.placed _ _ rfl
    rcases hfailed with rfl | hmiss
    · cases site with
      | submitted => exact dead_or_past hat (hsurvives rfl)
      | indexed => exact dead_or_past hat (hsurvives rfl)
      | proofReceived | signed => exact absurd hrank (by simp [Site.expectedState, OperationState.rank])
      | _ => cases hcaught
    · exact .inr (past_of_miss hat hmiss)
  | @raceLost ref site =>
    unfold Process.lostRace
    split <;> trivial
  | enforceThrown => exact fun hrank => absurd hrank (by decide)
  | read hrow => exact harmless_execute hinv hrow
  | rereadThrown => exact fun _ => .inr hok.facts.2
  | @approval ref request =>
    unfold Process.afterApproval
    split <;> first | trivial | exact fun hrank => absurd hrank (by decide)
  | buildThrown | proofThrown | signThrown => exact fun hrank => absurd hrank (by decide)
  | verifyThrown => exact fun _ => dead_or_past (hok.placed _ _ rfl) (hsurvives rfl)
  | _ => trivial

theorem processes_after {u : System} {n : Nat} {p : Process} (hprocesses : u.processes = s.processes)
    (hp : Harmless (u.setProcess n p) p) (m : Nat) : (u.setProcess n p).processes m = s.processes m ∨
      Harmless (u.setProcess n p) ((u.setProcess n p).processes m) := by
  rw [processes_setProcess]
  split
  · exact .inr hp
  · exact .inl (congrFun hprocesses m)

theorem live_after {u : System} {n : Nat} {p : Process} (hprocesses : u.processes = s.processes)
    (haccepted : ∀ id ∈ u.accepted, Live s id) (hp : ∀ id, p.broadcasts = some id → Live s id) (id : String)
    (h : Live (u.setProcess n p) id) : Live s id := by
  rcases h with h | ⟨m, hm⟩
  · exact haccepted id h
  · rw [processes_setProcess] at hm
    split at hm
    · exact hp id hm
    · exact .inr ⟨m, by rw [← hprocesses]; exact hm⟩

theorem kept_reserved {tenant : Tenant} {request : PrepareRequest} {retryOf : Option String} {id : String} {n : Nat}
    {p : Process} (hinv : Inv deps s) (hs : Kept s) (hid : s.operations.find? id = none)
    (h : p = .done ∨ p = .appending ⟨tenant, id⟩ (.created request)) :
    Kept ((s.reserved tenant request retryOf id).setProcess n p) := by
  have hp : p.broadcasts = none ∧ ∀ u, Harmless u p := by
    rcases h with rfl | rfl <;> exact ⟨rfl, fun _ => trivial⟩
  have hlive := live_after (s := s) (u := s.reserved tenant request retryOf id) (n := n) (p := p) rfl
    (fun _ h => .inl h) (fun id hid => nomatch hp.1.symm.trans hid)
  have hon : Onward s ((s.reserved tenant request retryOf id).setProcess n p) :=
    ⟨extends_reserved.trans (extends_setProcess n p), le_rfl, fun _ _ _ _ => rfl, fun id h => .inl (hlive id h),
      fun _ _ h => .inl h⟩
  have hfind : ∀ k, ((s.reserved tenant request retryOf id).setProcess n p).operations.find? k =
      if k = id then some (.reserve id tenant request.input request.intentKey retryOf s.now)
      else s.operations.find? k := find?_reserved hid
  refine hs.onward hinv hon (fun k row hrow hstate => ?_) (fun k hk => ?_) (processes_after rfl (hp.2 _))
    (fun _ _ h => .inl h) hs.called
  · rw [hfind] at hrow
    split at hrow
    · cases hrow
      cases hstate
    · exact hs.since k row hrow hstate
  · obtain ⟨row, hrow, hreported⟩ := hs.reported k (hlive k hk)
    have hk : k ≠ id := by
      rintro rfl
      exact absurd (hrow.symm.trans hid) (Option.some_ne_none row)
    exact ⟨row, by rw [hfind, if_neg hk]; exact hrow, hreported.onward hon hrow⟩

theorem kept_transitioned (hinv : Inv deps s) (hs : Kept s) {ref : OperationRef} {site : Site} {row : OperationRow}
    {n : Nat} {p : Process} {message : Option String} (hrow : s.operations.Finds ref site.expectedState row)
    (h : p = .thrown ref site.caught (.other message) ∨
      p = .appending ref (.transitioned site (OperationTable.moved site.target site.patch s.now row))) :
    Kept ((s.transitioned ref site row).setProcess n p) := by
  have hid := hrow.id
  have hstate := hrow.2.2
  have hfind : ∀ k, ((s.transitioned ref site row).setProcess n p).operations.find? k = _ := find?_transitioned hrow
  have hsince : ∀ k, k ≠ ref.id →
      ((s.transitioned ref site row).setProcess n p).indexingSince k = s.indexingSince k := by
    intro k hk
    have hnot : ¬ row.id = k := by rw [hid]; exact Ne.symm hk
    simp [System.setProcess, System.transitioned, System.commit, OperationTable.moved, Patch.apply, hnot]
  have hbroadcasts : ∀ id, p.broadcasts = some id → Live s id ∨ id = ref.id ∧ site.expectedState = .readyToSign := by
    intro id hid
    rcases h with rfl | rfl
    · cases site <;> cases hid
    · cases site with
      | signed => cases hid; exact .inr ⟨rfl, rfl⟩
      | _ => cases hid
  have hlive : ∀ id, Live ((s.transitioned ref site row).setProcess n p) id →
      Live s id ∨ id = ref.id ∧ site.expectedState = .readyToSign := by
    rintro id (h | ⟨m, hm⟩)
    · exact .inl (.inl h)
    · rw [processes_setProcess] at hm
      split at hm
      · exact hbroadcasts id hm
      · exact .inl (.inr ⟨m, hm⟩)
  have hon : Onward s ((s.transitioned ref site row).setProcess n p) := by
    refine ⟨(extends_transitioned ref site row).trans (extends_setProcess n p), le_rfl, fun k r hr hrank => ?_,
      fun id hid => ?_, fun _ _ h => .inl h⟩
    · by_cases hk : k = ref.id
      · -- It comes to `indexing` from before.
        subst hk
        cases hrow.1.symm.trans hr
        rw [hstate] at hrank
        have hnot : site.target ≠ .indexing := by
          intro htarget
          have hnext := rank_target site
          rw [htarget] at hnext
          rw [← Nat.succ.inj hnext] at hrank
          exact absurd hrank (by decide)
        simp [System.setProcess, System.transitioned, System.commit, hnot]
      · exact hsince k hk
    · rcases hlive id hid with hlive | ⟨rfl, hready⟩
      · exact .inl hlive
      · exact .inr ⟨row, hrow.1, hstate.trans hready⟩
  refine hs.onward hinv hon (fun k r hr hindexing => ?_) (fun k hk => ?_) (processes_after rfl ?_) (fun _ _ h => .inl h)
    hs.called
  · rw [hfind] at hr
    split at hr
    · next hk =>
      cases hr
      have htarget : site.target = .indexing := hindexing
      subst hk
      simp [System.setProcess, System.transitioned, System.commit, OperationTable.moved, Patch.apply, htarget, hid]
    · next hk =>
      rw [hsince k hk]
      exact hs.since k r hr hindexing
  · rw [hfind]
    split
    · next hk =>
      subst hk
      refine ⟨_, rfl, ?_⟩
      rcases hlive _ hk with hlive | ⟨-, hready⟩
      · obtain ⟨r, hr, hreported⟩ := hs.reported _ hlive
        cases hrow.1.symm.trans hr
        unfold Reported TimedOut at hreported
        rw [hstate] at hreported
        cases site with
        | submitted | resumed => exact .inr (.inl rfl)
        | indexed => exact .inr (.inr (.inl rfl))
        | _ => simp [Site.expectedState] at hreported
      · cases site with
        | signed => exact .inl rfl
        | _ => cases hready
    · next hne =>
      rcases hlive _ hk with hlive | ⟨hk, -⟩
      · obtain ⟨r, hr, hreported⟩ := hs.reported _ hlive
        exact ⟨r, hr, hreported.onward hon hr⟩
      · exact absurd hk hne
  · rcases h with rfl | rfl
    · refine harmless_thrown fun state hcaught _ => .inr ?_
      obtain ⟨rfl, -⟩ := Site.caught_spec hcaught
      refine ⟨_, (hfind _).trans (if_pos rfl), ?_⟩
      show site.expectedState.rank < site.target.rank
      rw [rank_target]
      exact Nat.lt_succ_self _
    · trivial

theorem kept_failed (hinv : Inv deps s) (hs : Kept s) {ref : OperationRef} {expected : OperationState}
    {edge : FailEdge} {failure : OperationFailure} {row : OperationRow} {n : Nat} {p : Process}
    (hedge : failEdgeFor expected = some edge) (hrow : s.operations.Finds ref expected row)
    (h : p = .done ∨ p = .appending ref .failed)
    (hfailed : ¬ Live s ref.id ∨ TimedOut s (OperationTable.withFailure failure s.now row)) :
    Kept ((s.failed ref expected failure).setProcess n p) := by
  have hp : p.broadcasts = none ∧ ∀ u, Harmless u p := by
    rcases h with rfl | rfl <;> exact ⟨rfl, fun _ => trivial⟩
  have hfind : ∀ k, ((s.failed ref expected failure).setProcess n p).operations.find? k = _ := find?_failed hrow failure
  have hlive := live_after (s := s) (u := s.failed ref expected failure) (n := n) (p := p) rfl (fun _ h => .inl h)
    (fun id hid => nomatch hp.1.symm.trans hid)
  have hon : Onward s ((s.failed ref expected failure).setProcess n p) :=
    ⟨(extends_failed ref failure hedge).trans (extends_setProcess n p), le_rfl, fun _ _ _ _ => rfl,
      fun id h => .inl (hlive id h), fun _ _ h => .inl h⟩
  refine hs.onward hinv hon (fun k r hr hindexing => ?_) (fun k hk => ?_) (processes_after rfl (hp.2 _))
    (fun _ _ h => .inl h) hs.called
  · rw [hfind] at hr
    split at hr
    · cases hr
      cases hindexing
    · exact hs.since k r hr hindexing
  · rw [hfind]
    split
    · next heq =>
      subst heq
      exact ⟨_, rfl, .inr (.inr (.inr (hfailed.resolve_left fun hdead => hdead (hlive _ hk))))⟩
    · obtain ⟨r, hr, hreported⟩ := hs.reported k (hlive k hk)
      exact ⟨r, hr, hreported.onward hon hr⟩

theorem dead_of_failing (hs : Kept s) {ref : OperationRef} {expected : OperationState} {failure : OperationFailure}
    {row : OperationRow} {n : Nat} {edge : FailEdge} (hp : s.processes n = .failing ref expected failure)
    (hedge : failEdgeFor expected = some edge) (hrow : s.operations.Finds ref expected row) : ¬ Live s ref.id := by
  intro hlive
  by_cases hrank : OperationState.submitted.rank ≤ expected.rank
  · have hharmless := hs.harmless n
    rw [hp] at hharmless
    rcases hharmless hrank with hdead | ⟨r, hr, hlt⟩
    · exact hdead hlive
    · cases hrow.1.symm.trans hr
      rw [hrow.2.2] at hlt
      exact lt_irrefl _ hlt
  · obtain ⟨r, hr, hreported⟩ := hs.reported _ hlive
    cases hrow.1.symm.trans hr
    unfold Reported TimedOut at hreported
    rw [hrow.2.2] at hreported
    rcases hreported with h | h | h | h
    · exact hrank (h ▸ le_rfl)
    · exact hrank (h ▸ by decide)
    · exact hrank (h ▸ by decide)
    · exact (Edge.fail hedge).not_terminal (.inr h.1)

theorem kept_timedOut (hinv : Inv deps s) (hs : Kept s) {ref : OperationRef} {row : OperationRow} {n : Nat}
    (hp : s.processes n = .timingOut ref) (hrow : s.operations.Finds ref .indexing row)
    (hlate : ¬ (In s ref.id .indexing ∧ IndexedInTime s ref.id)) :
    Kept ((s.failed ref .indexing System.timeoutFailure).setProcess n .done) := by
  have hharmless := hs.harmless n
  rw [hp] at hharmless
  obtain ⟨-, since, hsince, hover⟩ := hharmless
  refine kept_failed hinv hs rfl hrow (.inl rfl) (.inr ⟨rfl, rfl, since, ?_, hover, fun indexedAt hindexed => ?_⟩)
  · show s.indexingSince row.id = some since
    rw [hrow.id, hsince]
  · have hindexed : s.photon ref.id = some indexedAt := by
      rw [← hrow.id]
      exact hindexed
    refine lt_of_not_ge fun hle => hlate ⟨⟨row, hrow.1, hrow.2.2⟩, since, indexedAt, hsince, hindexed, hle⟩

theorem kept_submitted (hinv : Inv deps s) (honce : Once deps s) (hs : Kept s) {ref : OperationRef}
    {signedTx signature : String} {accepted : Bool} {error : Option PortError} {n : Nat}
    (hp : s.processes n = .submitting ref signedTx signature) (hrefused : error.isSome → accepted = false) :
    Kept (s.submitOuterTransaction n ref signedTx signature accepted error) := by
  have hbroadcasts : (s.processes n).broadcasts = some ref.id := by rw [hp]; rfl
  have hprocess : ∀ m id,
      ((s.submitOuterTransaction n ref signedTx signature accepted error).processes m).broadcasts = some id →
        m ≠ n ∧ (s.processes m).broadcasts = some id := by
    intro m id hm
    simp only [System.submitOuterTransaction, processes_setProcess] at hm
    split at hm
    · cases error <;> cases hm
    · next hmn => exact ⟨hmn, hm⟩
  have haccepted : (s.submitOuterTransaction n ref signedTx signature accepted error).accepted =
      if accepted then ref.id :: s.accepted else s.accepted := rfl
  refine hs.sameRows hinv ⟨.refl, List.Subset.refl _, fun _ h => h⟩ rfl rfl le_rfl (fun _ _ h => .inl h) (fun id h => ?_)
    (fun hon m => ?_) (fun _ _ _ h => .inl h) (fun id hid => ?_)
  · rcases h with h | ⟨m, hm⟩
    · rw [haccepted] at h
      split at h
      · rcases List.mem_cons.mp h with rfl | h
        · exact .inr ⟨n, hbroadcasts⟩
        · exact .inl h
      · exact .inl h
    · exact .inr ⟨m, (hprocess m id hm).2⟩
  · by_cases hm : m = n
    · subst hm
      refine .inr ?_
      simp only [System.submitOuterTransaction, processes_setProcess, if_true]
      cases error with
      | none => trivial
      | some error =>
        -- It was not accepted, and nobody else broadcasts it.
        refine fun _ => .inl ?_
        have hrefused := hrefused rfl
        subst hrefused
        rintro (h | ⟨m', hm'⟩)
        · exact honce.fresh m ref.id hbroadcasts (hs.called _ h)
        · obtain ⟨hne, hm'⟩ := hprocess m' ref.id hm'
          exact hne (honce.one m' m ref.id hm' hbroadcasts)
    · refine .inl ?_
      simp only [System.submitOuterTransaction, processes_setProcess, if_neg hm]
  · have hsubs : (s.submitOuterTransaction n ref signedTx signature accepted error).submissions =
        s.submissions ++ [⟨ref.id, signedTx, signature⟩] := rfl
    rw [hsubs, List.map_append, List.mem_append]
    rw [haccepted] at hid
    split at hid
    · rcases List.mem_cons.mp hid with rfl | hid
      · exact .inr (List.mem_singleton_self _)
      · exact .inl (hs.called id hid)
    · exact .inl (hs.called id hid)

theorem mem_listInFlightOperations {operations : OperationTable} {staleBefore limit : Nat} {row : OperationRow}
    (h : row ∈ operations.listInFlightOperations staleBefore limit) : row ∈ operations.rows :=
  List.mem_of_mem_filter ((List.mem_insertionSort _).mp (List.mem_of_mem_take h))

theorem overdue_of_sweep (hs : Kept s) {ref : OperationRef} (h : Task.timeOut ref ∈ s.sweepTasks) : Overdue s ref := by
  obtain ⟨row, hrow, htask⟩ := List.mem_filterMap.mp h
  have hmem := Table.mem_rows_iff.mp (mem_listInFlightOperations hrow)
  split at htask
  · next hover =>
    cases htask
    refine ⟨⟨row, hmem, hover.1 ▸ le_rfl⟩, row.updatedAt, hs.since _ row hmem hover.1, hover.2⟩
  · split at htask <;> cases htask

theorem Kept.call (hinv : Inv deps s) (honce : Once deps s) (hs : Kept s) {n : Nat} {c : Call}
    (hsurvives : Survives s (.call n c)) (h : Effect deps s n c t) : Kept t := by
  have hcall : CallSurvives s c (s.processes n) := hsurvives
  cases h with
  | @moved c p h =>
    have hharmless := harmless_of_moves hinv (hinv.processes n) hcall h
    have hplaced := (processOk_of_moves hinv (hinv.processes n) h).placed
    refine hs.sameRows hinv (extends_setProcess n _) rfl rfl le_rfl (fun _ _ h => .inl h)
      (live_after rfl (fun _ h => .inl h) fun id hid => .inr ⟨n, broadcasts_of_moves h hid⟩) (fun hon => ?_)
      (fun _ _ _ h => .inl h) hs.called
    exact processes_after rfl (hharmless.onward hplaced hon)
  | listed =>
    refine hs.sameRows hinv ⟨.refl, List.Subset.refl _, fun _ h => h⟩ rfl rfl le_rfl (fun _ _ h => .inl h)
      (live_after rfl (fun _ h => .inl h) nofun) (fun _ => processes_after rfl trivial) (fun hon m ref hmem => ?_) hs.called
    have hmem : Task.timeOut ref ∈ Function.update s.tasks n s.sweepTasks m := hmem
    rw [Function.update_apply] at hmem
    split at hmem
    · exact .inr ((overdue_of_sweep hs hmem).onward hon)
    · exact .inl hmem
  | @swept task tasks _ htasks =>
    refine hs.sameRows hinv ⟨.refl, List.Subset.refl _, fun _ h => h⟩ rfl rfl le_rfl (fun _ _ h => .inl h)
      (live_after rfl (fun _ h => .inl h) ?_) (fun hon => processes_after rfl ?_) (fun _ m ref hmem => .inl ?_) hs.called
    · cases task <;> exact nofun
    · cases task with
      | timeOut ref => exact (hs.overdue n ref (htasks ▸ List.mem_cons_self)).onward hon
      | execute ref => trivial
    · have hmem : Task.timeOut ref ∈ Function.update s.tasks n tasks m := hmem
      rw [Function.update_apply] at hmem
      split at hmem
      · next hm => exact hm ▸ htasks ▸ List.mem_cons_of_mem _ hmem
      · exact hmem
  | reserved _ hid _ h => exact kept_reserved hinv hs hid h
  | transitioned _ hrow h => exact kept_transitioned hinv hs hrow h
  | failed hp hrow h =>
    obtain ⟨edge, hedge⟩ := (hp ▸ hinv.processes n : ProcessOk deps s (.failing _ _ _)).facts
    exact kept_failed hinv hs hedge hrow h (.inl (dead_of_failing hs hp hedge hrow))
  | timedOut hp hrow houtcome =>
    rw [hp] at hcall
    exact kept_timedOut hinv hs hp hrow (hcall houtcome)
  | refused =>
    exact hs.sameRows hinv ((extends_requestApproval _).trans (extends_setProcess n _)) rfl rfl le_rfl (fun _ _ h => .inl h)
      (live_after rfl (fun _ h => .inl h) nofun) (fun _ => processes_after rfl fun hrank => absurd hrank (by decide))
      (fun _ _ _ h => .inl h) hs.called
  | judged =>
    exact hs.sameRows hinv ((extends_judged _ _).trans (extends_setProcess n _)) rfl rfl le_rfl (fun _ _ h => .inl h)
      (live_after rfl (fun _ h => .inl h) nofun) (fun _ => processes_after rfl trivial) (fun _ _ _ h => .inl h) hs.called
  | submitted hp =>
    rw [hp] at hcall
    exact kept_submitted hinv honce hs hp hcall
  | crashed =>
    refine hs.sameRows hinv ⟨.refl, List.Subset.refl _, fun _ h => h⟩ rfl rfl le_rfl (fun _ _ h => .inl h)
      (live_after rfl (fun _ h => .inl h) nofun) (fun _ => processes_after rfl trivial) (fun _ m ref hmem => .inl ?_)
      hs.called
    have hmem : Task.timeOut ref ∈ Function.update s.tasks n [] m := hmem
    rw [Function.update_apply] at hmem
    split at hmem
    · cases hmem
    · exact hmem

theorem kept_step (hinv : Inv deps s) (honce : Once deps s) (hs : Kept s) {e : Event} (hsurvives : Survives s e)
    (h : step deps s e = some t) : Kept t := by
  cases e with
  | call n c => exact hs.call hinv honce hsurvives (effect_of_call h)
  | elapse ms =>
    have hext := (extends_of_event (fun _ _ he => Event.noConfusion he) h).1
    cases h
    exact hs.sameRows hinv hext rfl rfl (Nat.le_add_right _ _) (fun _ _ h => .inl h) (fun _ h => h) (fun _ _ => .inl rfl)
      (fun _ _ _ h => .inl h) hs.called
  | resolveApproval request status =>
    have hext := (extends_of_event (fun _ _ he => Event.noConfusion he) h).1
    simp only [step] at h
    split at h
    · cases h
      exact hs.sameRows hinv hext rfl rfl le_rfl (fun _ _ h => .inl h) (fun _ h => h) (fun _ _ => .inl rfl)
        (fun _ _ _ h => .inl h) hs.called
    · cases h
  | index id =>
    have hext := (extends_of_event (fun _ _ he => Event.noConfusion he) h).1
    simp only [step] at h
    split at h
    · cases h
      refine hs.sameRows hinv hext rfl rfl le_rfl (fun k indexedAt hindexed => ?_) (fun _ h => h) (fun _ _ => .inl rfl)
        (fun _ _ _ h => .inl h) hs.called
      have hindexed : Function.update s.photon id (some s.now) k = some indexedAt := hindexed
      rw [Function.update_apply] at hindexed
      split at hindexed
      · cases hindexed
        exact .inr le_rfl
      · exact .inl hindexed
    · cases h

theorem kept_start : Kept .start where
  since _ _ h := nomatch h
  reported id h := by
    rcases h with h | ⟨n, h⟩
    · cases h
    · cases h
  harmless _ := trivial
  overdue _ _ h := nomatch h
  called _ h := nomatch h

theorem kept_reachable (h : Reachable (step deps) (· = .start) Survives s) : Kept s := by
  refine h.invariant (fun _ hs => hs ▸ kept_start) fun s e t hreach hs hsurvives ht => ?_
  have hany : Reachable (step deps) (· = .start) anyStep s := hreach.weaken fun _ _ _ => trivial
  exact kept_step (inv_reachable hany) (once_reachable hany) hs hsurvives ht

/-! ## Retries -/

/-- The operation that is retried. -/
def Process.retryOf : Process → Option String
  | .requiringWallet _ _ _ retryOf | .reserving _ _ retryOf => retryOf
  | _ => none

theorem retryOf_thrown {ref : OperationRef} {caught : Option OperationState} {error : PortError} :
    (Process.thrown ref caught error).retryOf = none := by
  cases caught <;> rfl

theorem retryOf_polling {ref : OperationRef} {row : OperationRow} : (Process.polling ref row).retryOf = none := by
  unfold Process.polling
  split <;> rfl

theorem retryOf_afterAppend {ref : OperationRef} {note : Note} : (Process.afterAppend ref note).retryOf = none := by
  cases note with
  | transitioned site row =>
    cases site with
    | policyOk evaluation =>
      show (if evaluation.requiresApproval then _ else _ : Process).retryOf = none
      split <;> rfl
    | resumed => exact retryOf_polling
    | _ => rfl
  | evaluated evaluation =>
    show (if evaluation.decision = .deny then _ else _ : Process).retryOf = none
    split <;> rfl
  | _ => rfl

theorem retryOf_execute {ref : OperationRef} {row : OperationRow} : (Process.execute ref row).retryOf = none := by
  unfold Process.execute
  split
  · split <;> rfl
  · rfl
  · exact retryOf_polling
  · rfl

theorem retryOf_afterApproval {ref : OperationRef} {status : Option Operations.ApprovalRequestStatus} :
    (Process.afterApproval ref status).retryOf = none := by
  unfold Process.afterApproval
  split <;> rfl

theorem retryOf_lostRace {ref : OperationRef} {site : Site} : (Process.lostRace ref site).retryOf = none := by
  unfold Process.lostRace
  split <;> rfl

/-- What is retried is over. -/
structure Retries (s : System) : Prop where
  processes : ∀ n id, (s.processes n).retryOf = some id → In s id .failed
  rows : ∀ k row id, s.operations.find? k = some row → row.retryOfOperationId = some id → In s id .failed

theorem In.failed_extends {id : String} (h : In s id .failed) (hext : Extends s t) : In t id .failed := by
  obtain ⟨row, hrow, hstate⟩ := h
  obtain ⟨row', hrow', hlater⟩ := hext.rows id row hrow
  exact ⟨row', hrow', hlater.terminal (.inr hstate) ▸ hstate⟩

theorem retryOf_of_moves {c : Call} {p p' : Process} {id : String} (h : Moves deps s c p p')
    (hp' : p'.retryOf = some id) : p.retryOf = some id ∨ In s id .failed := by
  cases h with
  | wallet => exact .inl hp'
  | @retried ref clientNonce context row hrow hfailed =>
    cases hp'
    obtain ⟨hfind, -⟩ := at_of_getOperationById hrow
    exact .inr ⟨row, Table.key_of_find? hfind ▸ hfind, hfailed⟩
  | appended => exact nomatch retryOf_afterAppend.symm.trans hp'
  | appendThrown | transitionThrown => exact nomatch retryOf_thrown.symm.trans hp'
  | raceLost => exact nomatch retryOf_lostRace.symm.trans hp'
  | read => exact nomatch retryOf_execute.symm.trans hp'
  | approval => exact nomatch retryOf_afterApproval.symm.trans hp'
  | _ => cases hp'

theorem Retries.goes {u : System} {n : Nat} {p : Process} (hs : Retries s) (hext : Extends s u)
    (hprocesses : u.processes = s.processes)
    (hrows : ∀ k row id, u.operations.find? k = some row → row.retryOfOperationId = some id → In s id .failed)
    (hp : ∀ id, p.retryOf = some id → In s id .failed) : Retries (u.setProcess n p) := by
  have hext : Extends s (u.setProcess n p) := hext.trans (extends_setProcess n p)
  refine ⟨fun m id hm => ?_, fun k row id hrow hid => (hrows k row id hrow hid).failed_extends hext⟩
  rw [processes_setProcess, hprocesses] at hm
  split at hm
  · exact (hp id hm).failed_extends hext
  · exact (hs.processes m id hm).failed_extends hext

theorem Retries.set {u : System} {n : Nat} {p : Process} {ref : OperationRef} {row row' : OperationRow}
    (hs : Retries s) (hext : Extends s u) (hprocesses : u.processes = s.processes)
    (hrow : s.operations.find? ref.id = some row)
    (hfind : ∀ k, u.operations.find? k = if k = ref.id then some row' else s.operations.find? k)
    (hretry : row'.retryOfOperationId = row.retryOfOperationId) (hp : p.retryOf = none) : Retries (u.setProcess n p) := by
  refine hs.goes hext hprocesses (fun k r id hr hid => ?_) fun id hid => nomatch hp.symm.trans hid
  rw [hfind] at hr
  split at hr
  · cases hr
    exact hs.rows ref.id row id hrow (hretry.symm.trans hid)
  · exact hs.rows k r id hr hid

theorem Retries.call {n : Nat} {c : Call} (hinv : Inv deps s) (hs : Retries s) (h : Effect deps s n c t) :
    Retries t := by
  cases h with
  | moved h =>
    refine hs.goes .refl rfl hs.rows fun id hid => ?_
    exact (retryOf_of_moves h hid).elim (hs.processes n id) fun hfailed => hfailed
  | listed | crashed => exact hs.goes ⟨.refl, List.Subset.refl _, fun _ h => h⟩ rfl hs.rows fun _ h => by cases h
  | @swept task =>
    refine hs.goes ⟨.refl, List.Subset.refl _, fun _ h => h⟩ rfl hs.rows ?_
    cases task <;> exact fun _ h => by cases h
  | @reserved tenant request retryOf id outcome p hp hid hkey h =>
    refine hs.goes extends_reserved rfl (fun k r original hr horiginal => ?_) ?_
    · rw [find?_reserved hid] at hr
      split at hr
      · cases hr
        exact hs.processes n original (hp ▸ horiginal)
      · exact hs.rows k r original hr horiginal
    · rcases h with rfl | rfl <;> exact fun _ h => by cases h
  | @transitioned ref site row outcome message p hp hrow h =>
    refine hs.set (extends_transitioned ref site row) rfl hrow.1 (find?_transitioned hrow) rfl ?_
    rcases h with rfl | rfl
    · exact retryOf_thrown
    · rfl
  | failed hp hrow h =>
    obtain ⟨edge, hedge⟩ := (hp ▸ hinv.processes n : ProcessOk deps s (.failing _ _ _)).facts
    refine hs.set (extends_failed _ _ hedge) rfl hrow.1 (find?_failed hrow _) rfl ?_
    rcases h with rfl | rfl <;> rfl
  | timedOut hp hrow => exact hs.set (extends_failed _ _ rfl) rfl hrow.1 (find?_failed hrow _) rfl rfl
  | refused => exact hs.goes (extends_requestApproval _) rfl hs.rows fun _ h => by cases h
  | judged => exact hs.goes (extends_judged _ _) rfl hs.rows fun _ h => by cases h
  | @submitted ref signedTx signature accepted error =>
    refine hs.goes ⟨.refl, List.Subset.refl _, fun _ h => h⟩ rfl hs.rows ?_
    cases error <;> exact fun _ h => by cases h

theorem retries_reachable (h : Reachable (step deps) (· = .start) anyStep s) : Retries s := by
  refine h.invariant (fun _ hs => hs ▸ ⟨fun _ _ h => (nomatch h), fun _ _ _ h => nomatch h⟩) ?_
  intro s e t hreach hs _ ht
  by_cases hcall : ∃ n c, e = .call n c
  · obtain ⟨n, c, rfl⟩ := hcall
    exact hs.call (inv_reachable hreach) (effect_of_call ht)
  · obtain ⟨hext, hprocesses, hoperations, -, -⟩ := extends_of_event (fun n c he => hcall ⟨n, c, he⟩) ht
    refine ⟨fun n id hid => (hs.processes n id (hprocesses ▸ hid)).failed_extends hext, fun k row id hrow hid => ?_⟩
    exact (hs.rows k row id (hoperations ▸ hrow) hid).failed_extends hext

/-! ## The law -/

/-- While no error is reported for a live transaction, what the network has accepted is under way, completed or timed
out, and only in the last case its operation is retried. -/
theorem accepted_not_retried (deps : Dependencies) (s : System)
    (h : Reachable (step deps) (· = .start) Survives s) :
    (∀ id ∈ s.accepted, ∃ row, s.operations.find? id = some row ∧ Reported s row) ∧
      ∀ k retry id, s.operations.find? k = some retry → retry.retryOfOperationId = some id → id ∈ s.accepted →
        ∃ row, s.operations.find? id = some row ∧ TimedOut s row := by
  have hkept := kept_reachable h
  have hany : Reachable (step deps) (· = .start) anyStep s := h.weaken fun _ _ _ => trivial
  refine ⟨fun id hid => hkept.reported id (.inl hid), fun k retry id hretry hof hid => ?_⟩
  obtain ⟨row, hrow, hfailed⟩ := (retries_reachable hany).rows k retry id hretry hof
  obtain ⟨row', hrow', hreported⟩ := hkept.reported id (.inl hid)
  cases hrow.symm.trans hrow'
  unfold Reported at hreported
  rw [hfailed] at hreported
  rcases hreported with h | h | h | h
  · cases h
  · cases h
  · cases h
  · exact ⟨row, hrow, h⟩

/-! ## A lost answer -/

namespace Call

/-- No error, and no sweep that times out. -/
def quiet : Call → Bool
  | .append error | .verifyIndexed error | .submitOuterTransaction _ error => error.isNone
  | .transitionState outcome _ => outcome ≠ .failed
  | .failOperation _ => false
  | _ => true

end Call

theorem survives_of_quiet {n : Nat} {c : Call} (h : c.quiet = true) : Survives s (.call n c) := by
  show CallSurvives s c (s.processes n)
  unfold CallSurvives
  split <;> simp_all [Call.quiet]

theorem reachable_of_quiet {n : Nat} {calls : List Call} (hquiet : ∀ c ∈ calls, c.quiet = true)
    (h : run (step deps) .start (calls.map (.call n)) = some s) : Reachable (step deps) (· = .start) Survives s := by
  have hstart : Reachable (step deps) (· = .start) Survives .start := .start rfl
  refine hstart.run_of (fun u e he => ?_) h
  obtain ⟨c, hc, rfl⟩ := List.mem_map.mp he
  exact survives_of_quiet (hquiet c hc)

def submittedCalls : List Call := shieldingCalls ++ [.submitOuterTransaction true none, .append none]

theorem shielding_not_retried : ∃ s, run (step service) .start (submittedCalls.map (.call 0)) = some s ∧
    "hro_1" ∈ s.accepted ∧ ∃ row, s.operations.find? "hro_1" = some row ∧ Reported s row := by
  obtain ⟨s, hs, haccepted⟩ : ∃ s, run (step service) .start (submittedCalls.map (.call 0)) = some s ∧
      "hro_1" ∈ s.accepted := ⟨_, rfl, List.mem_singleton_self _⟩
  have hquiet : ∀ c ∈ submittedCalls, c.quiet = true := by decide
  exact ⟨s, hs, haccepted, (accepted_not_retried service s (reachable_of_quiet hquiet hs)).1 _ haccepted⟩

/-- The network accepts the transaction, and the answer of the call is lost. -/
def lostAnswer : List Call :=
  shieldingCalls ++ [.submitOuterTransaction true (some (.adapter .submitFailed "socket hang up" true)),
    .failOperation .answered, .append none]

def retryCalls : List Call :=
  [.retryOperation ⟨tenant, "hro_1"⟩ "nonce-2" ⟨none, none, none⟩, .requireOperation true] ++
    callsToSubmitted "hro_2" ++ [.submitOuterTransaction true none]

/-- The intent key of a shielding. -/
def shieldingKey (clientNonce : String) : String := computeIntentKey service.sha256 (shielding clientNonce)

theorem canonical_shielding_ne :
    String.ofList (canonical (shielding "nonce-1")).text ≠ String.ofList (canonical (shielding "nonce-2")).text := by
  intro h
  have htree : canonical (shielding "nonce-1") = canonical (shielding "nonce-2") :=
    Json.text_injective (String.ofList_injective h)
  simp [canonical, shielding] at htree

theorem shieldingKey_ne : shieldingKey "nonce-1" ≠ shieldingKey "nonce-2" := by
  have hfirst : service.sha256 (String.ofList (canonical (shielding "nonce-1")).text) =
      "572473d55231a36d2d8147ad8f7ea3926257972be8d874f5f5239c4c42a772a3" := by
    simp [service, defaultDependencies, recordedDigests]
  have hsecond : service.sha256 (String.ofList (canonical (shielding "nonce-2")).text) =
      "834b25962351d53aa87deaabb3401772b688643ef8c9c183f4ebb1cd2d92fc14" := by
    simp [service, defaultDependencies, recordedDigests, canonical_shielding_ne]
  unfold shieldingKey computeIntentKey
  rw [hfirst, hsecond]
  decide

/-- The retry is about to be reserved. -/
def callsToRetry : List Event :=
  lostAnswer.map (.call 0) ++ [.call 1 (.retryOperation ⟨tenant, "hro_1"⟩ "nonce-2" ⟨none, none, none⟩),
    .call 1 (.requireOperation true), .call 1 (.requireWallet (some "wal_1"))]

def retrying : System := (run (step service) .start callsToRetry).getD .start

def retryRequest : PrepareRequest :=
  ⟨"wal_1", shieldingKey "nonce-2", shielding "nonce-2", ⟨none, none, none⟩⟩

/-- And it is reserved. -/
def retryReserved : System :=
  (retrying.reserved tenant retryRequest (some "hro_1") "hro_2").setProcess 1
    (.appending ⟨tenant, "hro_2"⟩ (.created retryRequest))

theorem reserveIntent_new {n : Nat} {tenant : Tenant} {request : PrepareRequest} {retryOf : Option String} {id : String}
    (hprocess : s.processes n = .reserving tenant request retryOf) (hid : s.operations.find? id = none)
    (hnew : request.intentKey ∉ s.operations.rows.map (·.intentKey)) :
    step deps s (.call n (.reserveIntent id .answered)) =
      some ((s.reserved tenant request retryOf id).setProcess n (.appending ⟨tenant, id⟩ (.created request))) := by
  set row := OperationRow.reserve id tenant request.input request.intentKey retryOf s.now
  have hnone : s.operations.rows.find? (fun r => r.intentKey = row.intentKey) = none := by
    rw [List.find?_eq_none]
    intro r hr
    have hne : r.intentKey ≠ row.intentKey := fun h => hnew (List.mem_map.mpr ⟨r, hr, h⟩)
    simpa using hne
  have hreserve : s.operations.reserveIntent row = (s.operations.insertNew row, row, true) := by
    unfold OperationTable.reserveIntent
    rw [hnone]
  show System.call deps s n (.reserveIntent id .answered) = _
  unfold System.call
  rw [hprocess]
  show s.reserveIntent n tenant request retryOf id .answered = _
  unfold System.reserveIntent
  rw [if_pos hid, hreserve]
  rfl

theorem retry_reserved :
    step service retrying (.call 1 (.reserveIntent "hro_2" .answered)) = some retryReserved := by
  have hkeys : retrying.operations.rows.map (·.intentKey) = [shieldingKey "nonce-1"] := rfl
  have hnew : retryRequest.intentKey ∉ retrying.operations.rows.map (·.intentKey) := by
    rw [hkeys, List.mem_singleton]
    exact shieldingKey_ne.symm
  have hprocess : retrying.processes 1 = .reserving tenant retryRequest (some "hro_1") := rfl
  exact reserveIntent_new hprocess rfl hnew

/-- What the counterexample is about. -/
def System.summary (s : System) :
    List String × Option (OperationState × Option OperationFailure) × Option (Option String) :=
  (s.accepted, (s.operations.find? "hro_1").map fun row => (row.state, row.failure),
    (s.operations.find? "hro_2").map (·.retryOfOperationId))

theorem lost_answer_retried : ∃ s, run (step service) .start
      (lostAnswer.map (.call 0) ++ retryCalls.map (.call 1)) = some s ∧
    "hro_1" ∈ s.accepted ∧ "hro_2" ∈ s.accepted ∧
    (∃ row, s.operations.find? "hro_1" = some row ∧ row.state = .failed ∧
      row.failure = some ⟨.submitFailed, "socket hang up", true⟩ ∧ ¬ Reported s row) ∧
    ∃ retry, s.operations.find? "hro_2" = some retry ∧ retry.retryOfOperationId = some "hro_1" := by
  have h : (run (step service) .start (lostAnswer.map (.call 0) ++ retryCalls.map (.call 1))).map System.summary =
      some (["hro_2", "hro_1"], some (.failed, some ⟨.submitFailed, "socket hang up", true⟩), some (some "hro_1")) := by
    have hcalls : lostAnswer.map (Event.call 0) ++ retryCalls.map (.call 1) = callsToRetry ++
        .call 1 (.reserveIntent "hro_2" .answered) :: (retryCalls.drop 4).map (.call 1) := rfl
    have hretrying : run (step service) .start callsToRetry = some retrying := rfl
    rw [hcalls, run_append, hretrying, Option.bind_some, run, retry_reserved, Option.bind_some]
    decide +kernel
  obtain ⟨s, hs, hsummary⟩ := Option.map_eq_some_iff.mp h
  simp only [System.summary, Prod.mk.injEq, Option.map_eq_some_iff] at hsummary
  obtain ⟨haccepted, ⟨row, hrow, hstate, hfailure⟩, retry, hretry, hof⟩ := hsummary
  refine ⟨s, hs, by simp [haccepted], by simp [haccepted], ⟨row, hrow, hstate, hfailure, ?_⟩, retry, hretry, hof⟩
  unfold Reported TimedOut
  rw [hstate, hfailure]
  rintro (h | h | h | ⟨-, h, -⟩)
  · cases h
  · cases h
  · cases h
  · cases h

end Sdp.Rings
