import Sdp.RingsInvariant

/-!
# A Rings operation is broadcast once

Between the transition to `submitted` and the call that broadcasts there is one process, since no row comes back to
`ready_to_sign`.
-/

open Sdp.Lib

namespace Sdp.Rings

open Operations (PolicyEvaluationRow ApprovalRequestStatus)
open Payments (CallOutcome)

variable {deps : Dependencies} {s t : System}

/-! ## Rows -/

/-- What one step makes of a row. -/
inductive RowStep (deps : Dependencies) (s : System) : OperationRow → OperationRow → Prop
  | same {row : OperationRow} : RowStep deps s row row
  | moved {ref : OperationRef} {site : Site} {row : OperationRow}
      (hfinds : s.operations.Finds ref site.expectedState row) (hfacts : SiteFacts deps s ref site) :
      RowStep deps s row (OperationTable.moved site.target site.patch s.now row)
  | failed {ref : OperationRef} {expected : OperationState} {edge : FailEdge} {failure : OperationFailure}
      {row : OperationRow} (hedge : failEdgeFor expected = some edge) (hfinds : s.operations.Finds ref expected row) :
      RowStep deps s row (OperationTable.withFailure failure s.now row)

/-- Each row is a row of before after one step, or a new one. -/
def RowsStep (deps : Dependencies) (s t : System) : Prop := ∀ id,
  (∃ row row', s.operations.find? id = some row ∧ t.operations.find? id = some row' ∧ RowStep deps s row row') ∨
    s.operations.find? id = none ∧ ∀ row', t.operations.find? id = some row' →
      ∃ tenant input intentKey retryOf, row' = .reserve id tenant input intentKey retryOf s.now

theorem rowsStep_same (h : t.operations = s.operations) : RowsStep deps s t := by
  intro id
  rw [h]
  cases hrow : s.operations.find? id with
  | none => exact .inr ⟨rfl, fun row' h => absurd h.symm (Option.some_ne_none row')⟩
  | some row => exact .inl ⟨row, row, rfl, rfl, .same⟩

theorem rowsStep_set {ref : OperationRef} {row row' : OperationRow} (hrow : s.operations.find? ref.id = some row)
    (hfind : ∀ k, t.operations.find? k = if k = ref.id then some row' else s.operations.find? k)
    (hstep : RowStep deps s row row') : RowsStep deps s t := by
  intro id
  rw [hfind]
  split
  · next hid => exact .inl ⟨row, row', hid ▸ hrow, rfl, hstep⟩
  · cases hother : s.operations.find? id with
    | none => exact .inr ⟨rfl, fun row' h => absurd h.symm (Option.some_ne_none row')⟩
    | some other => exact .inl ⟨other, other, rfl, rfl, .same⟩

theorem rowsStep_reserved {tenant : Tenant} {request : PrepareRequest} {retryOf : Option String} {id : String}
    (hid : s.operations.find? id = none) : RowsStep deps s (s.reserved tenant request retryOf id) := by
  intro k
  rw [find?_reserved hid]
  split
  · next hk =>
    refine .inr ⟨hk ▸ hid, fun row' hrow' => ?_⟩
    exact ⟨tenant, request.input, request.intentKey, retryOf, by rw [hk]; exact (Option.some.inj hrow').symm⟩
  · cases hother : s.operations.find? k with
    | none => exact .inr ⟨rfl, fun row' h => absurd h.symm (Option.some_ne_none row')⟩
    | some other => exact .inl ⟨other, other, rfl, rfl, .same⟩

theorem rowsStep_of_effect {n : Nat} {c : Call} (hinv : Inv deps s) (h : Effect deps s n c t) : RowsStep deps s t := by
  cases h with
  | moved | listed | swept | refused | judged | submitted | crashed => exact rowsStep_same rfl
  | reserved _ hid => exact rowsStep_reserved hid
  | transitioned hp hrow =>
    have hok : ProcessOk deps s (.transitioning _ _) := hp ▸ hinv.processes n
    exact rowsStep_set hrow.1 (find?_transitioned hrow) (.moved hrow hok.facts)
  | failed hp hrow =>
    obtain ⟨edge, hedge⟩ := (hp ▸ hinv.processes n : ProcessOk deps s (.failing _ _ _)).facts
    exact rowsStep_set hrow.1 (find?_failed hrow _) (.failed hedge hrow)
  | timedOut _ hrow => exact rowsStep_set hrow.1 (find?_failed hrow _) (.failed rfl hrow)

theorem rowsStep_of_step {e : Event} (hinv : Inv deps s) (h : step deps s e = some t) : RowsStep deps s t := by
  by_cases hcall : ∃ n c, e = .call n c
  · obtain ⟨n, c, rfl⟩ := hcall
    exact rowsStep_of_effect hinv (effect_of_call h)
  · obtain ⟨-, -, hoperations, -, -⟩ := extends_of_event (fun n c he => hcall ⟨n, c, he⟩) h
    exact rowsStep_same hoperations

/-! ## The broadcaster -/

/-- The operation that a process is about to broadcast. -/
def Process.broadcasts : Process → Option String
  | .submitting ref _ _ | .appending ref (.transitioned (.signed ..) _) => some ref.id
  | _ => none

theorem broadcasts_of_moves {c : Call} {p p' : Process} {id : String} (h : Moves deps s c p p')
    (hp' : p'.broadcasts = some id) : p.broadcasts = some id := by
  cases h with
  | @appended ref note =>
    cases note with
    | transitioned site row =>
      cases site with
      | signed => exact hp'
      | policyOk evaluation =>
        simp only [Process.afterAppend, Process.afterTransition] at hp'
        split at hp' <;> cases hp'
      | resumed =>
        simp only [Process.afterAppend, Process.afterTransition, Process.polling] at hp'
        split at hp' <;> cases hp'
      | _ => cases hp'
    | evaluated evaluation =>
      simp only [Process.afterAppend] at hp'
      split at hp' <;> cases hp'
    | _ => cases hp'
  | @appendThrown ref note error =>
    cases hcaught : note.caught with
    | none => simp only [hcaught, Process.thrown, Option.elim] at hp'; cases hp'
    | some state => simp only [hcaught, Process.thrown, Option.elim] at hp'; cases hp'
  | @transitionThrown ref site =>
    cases site <;> cases hp'
  | @raceLost ref site =>
    cases site <;> cases hp'
  | @read ref row =>
    simp only [Process.execute, Process.polling] at hp'
    split at hp'
    · split at hp' <;> cases hp'
    · cases hp'
    · split at hp' <;> cases hp'
    · cases hp'
  | @approval ref request =>
    simp only [Process.afterApproval] at hp'
    split at hp' <;> cases hp'
  | _ => cases hp'

structure Once (deps : Dependencies) (s : System) : Prop where
  stored : ∀ sub ∈ s.submissions, deps.signatureOf sub.signedTx = some sub.signature ∧
    Keeps s sub.operationId .submitted (·.outerTxSignature) sub.signature
  nodup : (s.submissions.map (·.operationId)).Nodup
  fresh : ∀ n id, (s.processes n).broadcasts = some id → id ∉ s.submissions.map (·.operationId)
  one : ∀ n m id, (s.processes n).broadcasts = some id → (s.processes m).broadcasts = some id → n = m

theorem at_of_broadcasts (hinv : Inv deps s) {n : Nat} {id : String} (h : (s.processes n).broadcasts = some id) :
    ∃ row, s.operations.find? id = some row ∧ OperationState.submitted.rank ≤ row.state.rank := by
  have hok := hinv.processes n
  cases hp : s.processes n with
  | submitting ref signedTx signature =>
    rw [hp] at h hok
    cases h
    obtain ⟨row, hrow, -, hrank⟩ := hok.placed ref _ rfl
    exact ⟨row, hrow, hrank⟩
  | appending ref note =>
    rw [hp] at h hok
    cases note with
    | transitioned site row =>
      cases site with
      | signed signedTx signature =>
        cases h
        obtain ⟨row, hrow, -, hrank⟩ := hok.placed ref _ rfl
        exact ⟨row, hrow, hrank⟩
      | _ => cases h
    | _ => cases h
  | _ => rw [hp] at h; cases h

theorem Once.goes {u : System} {n : Nat} {p : Process} (hs : Once deps s) (hext : Extends s u)
    (hprocesses : u.processes = s.processes) (hsubmissions : u.submissions = s.submissions)
    (hp : ∀ id, p.broadcasts = some id → (s.processes n).broadcasts = some id) : Once deps (u.setProcess n p) := by
  have hbefore : ∀ m id, ((u.setProcess n p).processes m).broadcasts = some id →
      (s.processes m).broadcasts = some id := by
    intro m id hm
    rw [processes_setProcess, hprocesses] at hm
    split at hm
    · next hmn => exact hmn ▸ hp id hm
    · exact hm
  refine ⟨fun sub hsub => ?_, hsubmissions ▸ hs.nodup, fun m id hm => ?_, fun m m' id hm hm' => ?_⟩
  · obtain ⟨hsignature, hkeeps⟩ := hs.stored sub (hsubmissions ▸ hsub)
    exact ⟨hsignature, hkeeps.signature_extends (hext.trans (extends_setProcess n p))⟩
  · show id ∉ u.submissions.map _
    rw [hsubmissions]
    exact hs.fresh m id (hbefore m id hm)
  · exact hs.one m m' id (hbefore m id hm) (hbefore m' id hm')

/-- Once an operation has a broadcaster or was broadcast, it is past `ready_to_sign`. -/
theorem not_broadcast_of_finds (hinv : Inv deps s) (hs : Once deps s) {ref : OperationRef} {row : OperationRow}
    (hrow : s.operations.Finds ref .readyToSign row) :
    (∀ n, (s.processes n).broadcasts ≠ some ref.id) ∧ ref.id ∉ s.submissions.map (·.operationId) := by
  have hlow : ¬ OperationState.submitted.rank ≤ row.state.rank := by
    rw [hrow.2.2]
    decide
  refine ⟨fun n hn => ?_, fun hmem => ?_⟩
  · obtain ⟨row', hrow', hrank⟩ := at_of_broadcasts hinv hn
    cases hrow.1.symm.trans hrow'
    exact hlow hrank
  · obtain ⟨sub, hsub, hid⟩ := List.mem_map.mp hmem
    obtain ⟨-, row', hrow', hrank, -⟩ := hs.stored sub hsub
    rw [hid] at hrow'
    cases hrow.1.symm.trans hrow'
    exact hlow hrank

theorem once_transitioned (hinv : Inv deps s) (hs : Once deps s) {ref : OperationRef} {site : Site} {row : OperationRow}
    {n : Nat} {p : Process} {message : Option String} (hrow : s.operations.Finds ref site.expectedState row)
    (h : p = .thrown ref site.caught (.other message) ∨
      p = .appending ref (.transitioned site (OperationTable.moved site.target site.patch s.now row))) :
    Once deps ((s.transitioned ref site row).setProcess n p) := by
  have hext := extends_transitioned (s := s) ref site row
  by_cases hp : p.broadcasts = none
  · exact hs.goes hext rfl rfl fun id hid => nomatch hp.symm.trans hid
  · -- The site is the one that stores the signature.
    have hsite : site.expectedState = .readyToSign ∧ p.broadcasts = some ref.id := by
      rcases h with rfl | rfl
      · cases site <;> exact absurd rfl hp
      · cases site with
        | signed => exact ⟨rfl, rfl⟩
        | _ => exact absurd rfl hp
    obtain ⟨hstate, hp⟩ := hsite
    obtain ⟨hnobody, hnot⟩ := not_broadcast_of_finds hinv hs (hstate ▸ hrow)
    have hprocess : ∀ m id, (((s.transitioned ref site row).setProcess n p).processes m).broadcasts = some id →
        m = n ∧ id = ref.id ∨ id ≠ ref.id ∧ (s.processes m).broadcasts = some id := by
      intro m id hm
      rw [processes_setProcess] at hm
      split at hm
      · next hmn => exact .inl ⟨hmn, Option.some.inj (hm.symm.trans hp)⟩
      · refine .inr ⟨?_, hm⟩
        rintro rfl
        exact hnobody m hm
    refine ⟨fun sub hsub => ?_, hs.nodup, fun m id hm => ?_, fun m m' id hm hm' => ?_⟩
    · obtain ⟨hsignature, hkeeps⟩ := hs.stored sub hsub
      exact ⟨hsignature, hkeeps.signature_extends (hext.trans (extends_setProcess n p))⟩
    · rcases hprocess m id hm with ⟨-, rfl⟩ | ⟨-, hm⟩
      · exact hnot
      · exact hs.fresh m id hm
    · rcases hprocess m id hm with ⟨rfl, rfl⟩ | ⟨hne, hm⟩
      · rcases hprocess m' _ hm' with ⟨rfl, -⟩ | ⟨hne, -⟩
        · rfl
        · exact absurd rfl hne
      · rcases hprocess m' id hm' with ⟨-, rfl⟩ | ⟨-, hm'⟩
        · exact absurd rfl hne
        · exact hs.one m m' id hm hm'

theorem once_submitted (hinv : Inv deps s) (hs : Once deps s) {ref : OperationRef} {signedTx signature : String}
    {accepted : Bool} {error : Option PortError} {n : Nat} (hp : s.processes n = .submitting ref signedTx signature) :
    Once deps (s.submitOuterTransaction n ref signedTx signature accepted error) := by
  have hbroadcasts : (s.processes n).broadcasts = some ref.id := by rw [hp]; rfl
  have hfacts : Facts deps s (.submitting ref signedTx signature) := hp ▸ (hinv.processes n).facts
  have hprocess : ∀ m id,
      ((s.submitOuterTransaction n ref signedTx signature accepted error).processes m).broadcasts = some id →
        m ≠ n ∧ (s.processes m).broadcasts = some id := by
    intro m id hm
    simp only [System.submitOuterTransaction, processes_setProcess] at hm
    split at hm
    · cases error <;> cases hm
    · next hmn => exact ⟨hmn, hm⟩
  have hsubs : (s.submitOuterTransaction n ref signedTx signature accepted error).submissions =
      s.submissions ++ [⟨ref.id, signedTx, signature⟩] := rfl
  refine ⟨fun sub hsub => ?_, ?_, fun m id hm => ?_, fun m m' id hm hm' => ?_⟩
  · rcases List.mem_append.mp (hsubs ▸ hsub) with hsub | hsub
    · exact hs.stored sub hsub
    · cases List.mem_singleton.mp hsub
      exact hfacts
  · rw [hsubs, List.map_append]
    refine hs.nodup.append (List.nodup_singleton _) fun id hmem hnew => ?_
    cases List.mem_singleton.mp hnew
    exact hs.fresh n ref.id hbroadcasts hmem
  · obtain ⟨hne, hm⟩ := hprocess m id hm
    rw [hsubs, List.map_append, List.mem_append, not_or]
    refine ⟨hs.fresh m id hm, fun hnew => hne ?_⟩
    cases List.mem_singleton.mp hnew
    exact hs.one m n ref.id hm hbroadcasts
  · exact hs.one m m' id (hprocess m id hm).2 (hprocess m' id hm').2

theorem Once.call {n : Nat} {c : Call} (hinv : Inv deps s) (hs : Once deps s) (h : Effect deps s n c t) :
    Once deps t := by
  cases h with
  | moved h => exact hs.goes Extends.refl rfl rfl fun id => broadcasts_of_moves h
  | listed | crashed => exact hs.goes ⟨.refl, List.Subset.refl _, fun _ h => h⟩ rfl rfl nofun
  | @swept task =>
    refine hs.goes ⟨.refl, List.Subset.refl _, fun _ h => h⟩ rfl rfl ?_
    cases task <;> exact nofun
  | reserved _ _ _ h =>
    refine hs.goes extends_reserved rfl rfl ?_
    rcases h with rfl | rfl <;> exact nofun
  | transitioned _ hrow h => exact once_transitioned hinv hs hrow h
  | failed hp hrow h =>
    obtain ⟨edge, hedge⟩ := (hp ▸ hinv.processes n : ProcessOk deps s (.failing _ _ _)).facts
    refine hs.goes (extends_failed _ _ hedge) rfl rfl ?_
    rcases h with rfl | rfl <;> exact nofun
  | timedOut => exact hs.goes (extends_failed _ _ rfl) rfl rfl nofun
  | refused => exact hs.goes (extends_requestApproval _) rfl rfl nofun
  | judged => exact hs.goes (extends_judged _ _) rfl rfl nofun
  | submitted hp => exact once_submitted hinv hs hp

theorem once_reachable (h : Reachable (step deps) (· = .start) anyStep s) : Once deps s := by
  refine h.invariant (fun _ hs => ?_) fun s e t hreach hs _ ht => ?_
  · cases hs
    exact ⟨nofun, List.nodup_nil, fun _ _ h => (nomatch h), fun _ _ _ h _ => nomatch h⟩
  · by_cases hcall : ∃ n c, e = .call n c
    · obtain ⟨n, c, rfl⟩ := hcall
      exact hs.call (inv_reachable hreach) (effect_of_call ht)
    · obtain ⟨hext, hprocesses, -, -, hsubmissions⟩ := extends_of_event (fun n c he => hcall ⟨n, c, he⟩) ht
      refine ⟨fun sub hsub => ?_, hsubmissions ▸ hs.nodup, hprocesses ▸ hsubmissions ▸ hs.fresh,
        hprocesses ▸ hs.one⟩
      obtain ⟨hsignature, hkeeps⟩ := hs.stored sub (hsubmissions ▸ hsub)
      exact ⟨hsignature, hkeeps.signature_extends hext⟩

/-! ## The law -/

/-- The policy allowed the operation, or its own approval request is approved. -/
def Authorized (s : System) (row : OperationRow) : Prop :=
  ∃ evaluation, (row.id, evaluation) ∈ s.verdicts ∧ (evaluation.decision = .allow ∨
    ∃ request, evaluation.approvalRequestId = some request ∧ row.approvalRequestId = some request ∧
      s.approvals request = some .approved)

/-- What a step does to a row that there is. -/
structure Follows (s : System) (row row' : OperationRow) : Prop where
  edge : row'.state = row.state ∨ Edge row.state row'.state
  absorbing : row.state.terminal → row' = row
  authorized : row'.state = .proving → row.state ≠ .proving → row.state = .approvalRequired ∧ Authorized s row

theorem authorized_of_target (hinv : Inv deps s) {ref : OperationRef} {site : Site} {row : OperationRow}
    (hfinds : s.operations.Finds ref site.expectedState row) (hfacts : SiteFacts deps s ref site)
    (htarget : site.target = .proving) : row.state = .approvalRequired ∧ Authorized s row := by
  have hid := hfinds.id
  cases site with
  | allowed =>
    obtain ⟨evaluation, hmem, hallow⟩ := hfacts
    exact ⟨hfinds.2.2, evaluation, hid ▸ hmem, .inl hallow⟩
  | granted =>
    obtain ⟨request, ⟨row', hrow', -, hrequest⟩, happroved⟩ := hfacts
    cases hfinds.1.symm.trans hrow'
    obtain ⟨evaluation, hmem, hevaluation⟩ := (hinv.rows _ _ hfinds.1).own request hrequest
    exact ⟨hfinds.2.2, evaluation, hmem, .inr ⟨request, hevaluation, hrequest, happroved⟩⟩
  | _ => cases htarget

theorem follows_of_rowStep (hinv : Inv deps s) {row row' : OperationRow} (h : RowStep deps s row row') :
    Follows s row row' := by
  cases h with
  | same => exact ⟨.inl rfl, fun _ => rfl, fun hproving hnot => absurd hproving hnot⟩
  | @moved ref site row hfinds hfacts =>
    have hedge : Edge row.state site.target := hfinds.2.2 ▸ edge_site site
    exact ⟨.inr hedge, fun hterminal => absurd hterminal hedge.not_terminal,
      fun htarget _ => authorized_of_target hinv hfinds hfacts htarget⟩
  | @failed ref expected edge failure row hedge hfinds =>
    have hfail : Edge row.state .failed := hfinds.2.2 ▸ .fail hedge
    exact ⟨.inr hfail, fun hterminal => absurd hterminal hfail.not_terminal, nofun⟩

theorem submitted_before {events : List Event} (h : run (step deps) .start events = some s) {id signature : String}
    {row : OperationRow} (hrow : s.operations.find? id = some row)
    (hsignature : row.outerTxSignature = some signature) :
    ∃ earlier u row', earlier <+: events ∧ run (step deps) .start earlier = some u ∧
      u.operations.find? id = some row' ∧ row'.state = .submitted ∧ row'.outerTxSignature = some signature := by
  induction events using List.reverseRecOn generalizing s row with
  | nil =>
    cases h
    cases hrow
  | append_singleton events e ih =>
    obtain ⟨u, hu, hstep⟩ := Option.bind_eq_some_iff.mp ((run_append ..).symm.trans h)
    obtain ⟨v, hv, hlast⟩ := Option.bind_eq_some_iff.mp hstep
    cases hlast
    have hinv : Inv deps u := inv_reachable (reachable_of_run hu)
    have hbefore : ∀ r, u.operations.find? id = some r → r.outerTxSignature = some signature →
        ∃ earlier w row', earlier <+: events ++ [e] ∧ run (step deps) .start earlier = some w ∧
          w.operations.find? id = some row' ∧ row'.state = .submitted ∧ row'.outerTxSignature = some signature := by
      intro r hr hrs
      obtain ⟨earlier, w, row', hprefix, hrest⟩ := ih hu hr hrs
      exact ⟨earlier, w, row', hprefix.trans (List.prefix_append _ _), hrest⟩
    rcases rowsStep_of_step hinv hv id with ⟨r, r', hr, hr', hstep⟩ | ⟨-, hnew⟩
    · cases hrow.symm.trans hr'
      cases hstep with
      | same => exact hbefore _ hr hsignature
      | @moved ref site r hfinds hfacts =>
        cases site with
        | signed => exact ⟨events ++ [e], s, _, List.prefix_refl _, h, hrow, rfl, hsignature⟩
        | _ => exact hbefore _ hr hsignature
      | failed => exact hbefore _ hr hsignature
    · obtain ⟨tenant, input, intentKey, retryOf, rfl⟩ := hnew row hrow
      cases hsignature

theorem submissions_or_operations {e : Event} (h : step deps s e = some t) :
    t.submissions = s.submissions ∨ t.operations = s.operations := by
  by_cases hcall : ∃ n c, e = .call n c
  · obtain ⟨n, c, rfl⟩ := hcall
    cases effect_of_call h with
    | submitted => exact .inr rfl
    | _ => exact .inl rfl
  · obtain ⟨-, -, -, -, hsubmissions⟩ := extends_of_event (fun n c he => hcall ⟨n, c, he⟩) h
    exact .inl hsubmissions

/-- In every run: no two operations have one intent key, an operation is broadcast once at most, what is broadcast was
stored in `submitted` before, and each step follows the table, past the policy with an authorization only. -/
theorem operations_broadcast_once (deps : Dependencies) (events : List Event) (e : Event) (s t : System)
    (hs : run (step deps) .start events = some s) (ht : step deps s e = some t) :
    (t.operations.rows.map (·.intentKey)).Nodup ∧ (t.submissions.map (·.operationId)).Nodup ∧
      (∀ sub, t.submissions = s.submissions ++ [sub] →
        deps.signatureOf sub.signedTx = some sub.signature ∧
          (∃ row, s.operations.find? sub.operationId = some row ∧ row.outerTxSignature = some sub.signature) ∧
          ∃ earlier u row, earlier <+: events ∧ run (step deps) .start earlier = some u ∧
            u.operations.find? sub.operationId = some row ∧ row.state = .submitted ∧
            row.outerTxSignature = some sub.signature) ∧
      ∀ id row', t.operations.find? id = some row' →
        (∃ row, s.operations.find? id = some row ∧ Follows s row row') ∨
          s.operations.find? id = none ∧ row'.state = .draft := by
  have hreach : Reachable (step deps) (· = .start) anyStep s := reachable_of_run hs
  have hinv := inv_reachable hreach
  have hreach' : Reachable (step deps) (· = .start) anyStep t := .step hreach trivial ht
  have honce := once_reachable hreach'
  refine ⟨(inv_reachable hreach').keys, honce.nodup, fun sub hsub => ?_, fun id row' hrow' => ?_⟩
  · obtain ⟨hsignature, row', hrow', -, hstored⟩ :=
      honce.stored sub (hsub ▸ List.mem_append_right _ (List.mem_singleton_self _))
    have hsame : t.operations = s.operations := by
      refine (submissions_or_operations ht).resolve_left fun hsame => ?_
      have hlength := congrArg List.length (hsame.symm.trans hsub)
      rw [List.length_append, List.length_singleton] at hlength
      omega
    have hrow : s.operations.find? sub.operationId = some row' := hsame ▸ hrow'
    exact ⟨hsignature, ⟨row', hrow, hstored⟩, submitted_before hs hrow hstored⟩
  · rcases rowsStep_of_step hinv ht id with ⟨r, r', hr, hr', hstep⟩ | ⟨hnone, hnew⟩
    · cases hrow'.symm.trans hr'
      exact .inl ⟨r, hr, follows_of_rowStep hinv hstep⟩
    · obtain ⟨tenant, input, intentKey, retryOf, rfl⟩ := hnew row' hrow'
      exact .inr ⟨hnone, rfl⟩

/-! ## A shielding -/

def shielding (clientNonce : String) : PrivateOperationInput where
  walletId := "hrw_1"
  opType := .shield
  asset := some ⟨"So11111111111111111111111111111111111111112", "1000000"⟩
  fromAddr := none
  toAddr := none
  zoneId := none
  transferMode := none
  timelock := none
  clientNonce

/-- SHA-256 where the intent keys of two shieldings need it. -/
def recordedDigests : List (String × String) :=
  [(String.ofList (canonical (shielding "nonce-1")).text,
      "572473d55231a36d2d8147ad8f7ea3926257972be8d874f5f5239c4c42a772a3"),
    (String.ofList (canonical (shielding "nonce-2")).text,
      "834b25962351d53aa87deaabb3401772b688643ef8c9c183f4ebb1cd2d92fc14")]

/-- A transaction without instructions whose signature is 64 times the byte 7. -/
def signedTx : String :=
  "AQcHBwcHBwcHBwcHBwcHBwcHBwcHBwcHBwcHBwcHBwcHBwcHBwcHBwcHBwcHBwcHBwcHBwcHBwcHBwcHBwcHBwcBAAABCQkJCQkJCQkJCQkJ" ++
    "CQkJCQkJCQkJCQkJCQkJCQkJCQkFBQUFBQUFBQUFBQUFBQUFBQUFBQUFBQUFBQUFBQUFBQA="

def signature : String := "99eUso3aSbE9tqGSTXzo3TLfKb9RkMTURrHKQ1K7Zh3BbeqPevr5E1iCbpTjqHuTFLtfxTTD5ekfVuZFzQyEQf8"

/-- The service, as far as the two shieldings need it: `signedTx` is all that is signed. -/
def service : Dependencies :=
  defaultDependencies (fun text => ((recordedDigests.find? (·.1 = text)).map (·.2)).getD text)
    (fun _ => some signature) (by
      intro tx s h
      cases h
      decide)

def tenant : Tenant := ⟨"org_1", "prj_1"⟩

/-- No policy is active. -/
def noPolicy : PolicyState := ⟨Policy.implicitDefaultAllowPolicy, none, "wop_1", "peval_1", "1"⟩

/-- From the reservation on to `submitted`, when nothing fails. -/
def callsToSubmitted (id : String) : List Call :=
  [.requireWallet (some "wal_1"), .reserveIntent id .answered, .append none, .transitionState .answered none,
    .append none, .enforcePolicy noPolicy none, .append none, .transitionState .answered none, .append none,
    .transitionState .answered none, .append none, .buildOperation (.ok "unsigned"),
    .requestProof (.ok ⟨"live", "proof_1"⟩), .transitionState .answered none, .append none, .append none,
    .signOuterTransaction (.ok signedTx), .transitionState .answered none, .append none]

def shieldingCalls : List Call :=
  .prepareOperation tenant (shielding "nonce-1") ⟨none, none, none⟩ :: callsToSubmitted "hro_1"

theorem shielding_broadcast_once : ∃ s t, run (step service) .start (shieldingCalls.map (.call 0)) = some s ∧
    step service s (.call 0 (.submitOuterTransaction true none)) = some t ∧
    t.submissions = [⟨"hro_1", signedTx, signature⟩] ∧ (t.submissions.map (·.operationId)).Nodup := by
  refine ⟨_, _, rfl, rfl, rfl, ?_⟩
  exact (operations_broadcast_once service (shieldingCalls.map (.call 0))
    (.call 0 (.submitOuterTransaction true none)) _ _ rfl rfl).2.1

end Sdp.Rings
