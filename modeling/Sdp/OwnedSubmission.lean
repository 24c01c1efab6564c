import Sdp.Code.OwnedSubmission

/-!
# A refunded submission and its retries

The loop refunds a send that preflight rejected and throws the mapped error. The retries around it
read that error by its text alone, so a text that looks transient sends a refunded transaction
again. Nothing else does.
-/

namespace Sdp.Owned

/-- Nothing is sent after a release, and what was sent before it was rejected at preflight. -/
def RefundSafe (events : List SubmissionEvent) : Prop :=
  ∀ before after, events = before ++ .released :: after →
    (∀ o, .send o ∉ after) ∧ ∀ o, .send o ∈ before → o.isPreflight = true

/-- A definite error means that no send may have been accepted. -/
def DefiniteSafe (events : List SubmissionEvent) (result : Except Thrown String) : Prop :=
  ∀ error, result = .error error → isDefiniteSubmissionError error = true →
    ∀ o, .send o ∈ events → o.isPreflight = true

/-! ## Lists of events -/

theorem refundSafe_of_not_mem {events : List SubmissionEvent} (h : .released ∉ events) : RefundSafe events := by
  rintro before after rfl
  exact absurd (by simp) h

theorem refundSafe_of_no_send {events : List SubmissionEvent} (h : ∀ o, .send o ∉ events) : RefundSafe events := by
  rintro before after rfl
  refine ⟨fun o ho => h o (by simp [ho]), fun o ho => absurd (by simp [ho]) (h o)⟩

theorem refundSafe_released {events : List SubmissionEvent} :
    RefundSafe (.released :: events) ↔ ∀ o, .send o ∉ events := by
  constructor
  · intro h
    exact (h [] events rfl).1
  · intro h
    exact refundSafe_of_no_send fun o => by simp [h o]

theorem refundSafe_send {o : SendOutcome} (ho : o.isPreflight = true) {events : List SubmissionEvent} :
    RefundSafe (.send o :: events) ↔ RefundSafe events := by
  constructor
  · rintro h before after rfl
    obtain ⟨hafter, hbefore⟩ := h (.send o :: before) after rfl
    exact ⟨hafter, fun o' ho' => hbefore o' (List.mem_cons_of_mem _ ho')⟩
  · intro h before after heq
    cases before with
    | nil => cases heq
    | cons e before =>
      obtain ⟨rfl, hevents⟩ := List.cons.inj heq
      obtain ⟨hafter, hbefore⟩ := h before after hevents
      refine ⟨hafter, fun o' ho' => ?_⟩
      rcases List.mem_cons.mp ho' with h' | h'
      · cases h'
        exact ho
      · exact hbefore o' h'

/-! ## The loop -/

variable {sends : Nat → SendAttempt}

/-- The loop from an attempt on. -/
def sendLoop (sends : Nat → SendAttempt) (retries attempt : Nat) (sawTransientFailure : Bool) :
    List SubmissionEvent × Except Thrown String :=
  withTransientRpcRetry (sendAttempt sends) (fun attempt => (sends attempt).late) retries attempt sawTransientFailure

/-- The loop sends again. -/
def retries? (sends : Nat → SendAttempt) (retries attempt : Nat) (error : Thrown) : Prop :=
  0 < retries ∧ isTransientRpcError error = true ∧ (sends attempt).late = false

theorem sendLoop_ok {retries attempt : Nat} {saw saw' : Bool} {events : List SubmissionEvent} {signature : String}
    (h : sendAttempt sends attempt saw = (events, saw', .ok signature)) :
    sendLoop sends retries attempt saw = (events, .ok signature) := by
  unfold sendLoop withTransientRpcRetry
  rw [h]

theorem sendLoop_error {retries attempt : Nat} {saw saw' : Bool} {events : List SubmissionEvent} {error : Thrown}
    (h : sendAttempt sends attempt saw = (events, saw', .error error)) :
    ¬ retries? sends retries attempt error ∧ sendLoop sends retries attempt saw = (events, .error error) ∨
      retries? sends retries attempt error ∧
        sendLoop sends retries attempt saw =
          (events ++ (sendLoop sends (retries - 1) (attempt + 1) saw').1,
            (sendLoop sends (retries - 1) (attempt + 1) saw').2) := by
  unfold sendLoop
  rw [withTransientRpcRetry, h]
  cases retries with
  | zero => exact .inl ⟨fun hr => absurd hr.1 (lt_irrefl 0), rfl⟩
  | succ retries =>
    by_cases hr : isTransientRpcError error = true ∧ (sends attempt).late = false
    · refine .inr ⟨⟨Nat.succ_pos _, hr⟩, ?_⟩
      simp [hr.1, hr.2]
    · refine .inl ⟨fun hr' => hr hr'.2, ?_⟩
      have : (!isTransientRpcError error || (sends attempt).late) = true := by
        cases ht : isTransientRpcError error <;> cases hl : (sends attempt).late <;> simp_all
      simp [this]

theorem not_definite_thrown (error : SendError) : isDefiniteSubmissionError error.thrown = false := by
  cases error with
  | preflight => rfl
  | other message transientCode => cases transientCode <;> rfl

theorem sendAttempt_accepted {attempt : Nat} {signature : String} (h : (sends attempt).outcome = .accepted signature)
    (saw : Bool) : sendAttempt sends attempt saw = ([.send (.accepted signature)], saw, .ok signature) := by
  simp [sendAttempt, h]

theorem sendAttempt_preflight {attempt : Nat} {error : SendError} {mapped : Thrown}
    (h : (sends attempt).outcome = .rejected error) (hmap : mapPreflightError error = some mapped) :
    sendAttempt sends attempt false =
      (.send (.rejected error) :: (sends attempt).release.events, false, .error mapped) := by
  simp [sendAttempt, h, hmap]

theorem sendAttempt_other {attempt : Nat} {error : SendError} {saw : Bool}
    (h : (sends attempt).outcome = .rejected error) (hmap : saw = true ∨ mapPreflightError error = none) :
    ∃ thrown saw', sendAttempt sends attempt saw = ([.send (.rejected error)], saw', .error thrown) ∧
      isDefiniteSubmissionError thrown = false ∧ (isTransientRpcError thrown = true → saw' = true) := by
  have hnone : (if saw then none else mapPreflightError error) = none := by
    rcases hmap with rfl | hmap
    · rfl
    · rw [hmap, ite_self]
  unfold sendAttempt
  dsimp only
  rw [h]
  dsimp only
  rw [hnone]
  dsimp only
  split
  · next hsaw =>
    have hsaw : saw = true := (Bool.and_eq_true_iff.mp hsaw).1
    exact ⟨ambiguous, saw, rfl, rfl, fun _ => hsaw⟩
  · exact ⟨error.thrown, _, rfl, not_definite_thrown error, fun ht => by simp [ht]⟩

/-- After a transient failure nothing is released, and no error is definite. -/
theorem sendLoop_saw (sends : Nat → SendAttempt) (retries attempt : Nat) :
    .released ∉ (sendLoop sends retries attempt true).1 ∧
      ∀ error, (sendLoop sends retries attempt true).2 = .error error → isDefiniteSubmissionError error = false := by
  induction retries using Nat.strong_induction_on generalizing attempt with
  | _ retries ih =>
    cases ho : (sends attempt).outcome with
    | accepted signature =>
      rw [sendLoop_ok (sendAttempt_accepted ho true)]
      exact ⟨by simp, nofun⟩
    | rejected error =>
      obtain ⟨thrown, saw', hattempt, hdefinite, hsaw⟩ := sendAttempt_other ho (.inl rfl)
      rcases sendLoop_error hattempt with ⟨-, hloop⟩ | ⟨⟨hpos, htransient, -⟩, hloop⟩
      · rw [hloop]
        refine ⟨by simp, fun e he => ?_⟩
        cases he
        exact hdefinite
      · obtain rfl := hsaw htransient
        obtain ⟨hreleased, herror⟩ := ih (retries - 1) (Nat.sub_lt hpos one_pos) (attempt + 1)
        rw [hloop]
        exact ⟨by simpa using hreleased, herror⟩

/-- The send was rejected at preflight, and the text of the mapped error looks transient. -/
def RetriedPreflight (a : SendAttempt) : Prop :=
  ∃ error mapped, a.outcome = .rejected error ∧ mapPreflightError error = some mapped ∧
    isTransientRpcError mapped = true ∧ a.late = false

/-- The sends up to one that is refunded are all retried. -/
def RefundRetried (sends : Nat → SendAttempt) (retries attempt : Nat) : Prop :=
  ∃ i < retries, (∀ k ≤ i, RetriedPreflight (sends (attempt + k))) ∧ (sends (attempt + i)).release.released = true

theorem refundRetried_iff {retries attempt : Nat} :
    RefundRetried sends retries attempt ↔
      0 < retries ∧ RetriedPreflight (sends attempt) ∧
        ((sends attempt).release.released = true ∨ RefundRetried sends (retries - 1) (attempt + 1)) := by
  have shift (k : Nat) : attempt + 1 + k = attempt + (k + 1) := by omega
  constructor
  · rintro ⟨i, hi, hretried, hreleased⟩
    refine ⟨by omega, hretried 0 (Nat.zero_le _), ?_⟩
    cases i with
    | zero => exact .inl hreleased
    | succ i =>
      refine .inr ⟨i, by omega, fun k hk => ?_, ?_⟩
      · rw [shift]
        exact hretried (k + 1) (by omega)
      · rw [shift]
        exact hreleased
  · rintro ⟨hpos, hfirst, hreleased | ⟨i, hi, hretried, hreleased⟩⟩
    · refine ⟨0, hpos, fun k hk => ?_, hreleased⟩
      obtain rfl := Nat.le_zero.mp hk
      exact hfirst
    · refine ⟨i + 1, by omega, fun k hk => ?_, ?_⟩
      · cases k with
        | zero => exact hfirst
        | succ k =>
          rw [← shift]
          exact hretried k (by omega)
      · rw [← shift]
        exact hreleased

theorem sends_first (sends : Nat → SendAttempt) (retries attempt : Nat) (saw : Bool) :
    ∃ o events, (sendLoop sends retries attempt saw).1 = .send o :: events := by
  have hattempt : ∃ o events saw' result, sendAttempt sends attempt saw = (.send o :: events, saw', result) := by
    unfold sendAttempt
    dsimp only
    repeat' split
    all_goals exact ⟨_, _, _, _, rfl⟩
  obtain ⟨o, events, saw', result, hattempt⟩ := hattempt
  cases result with
  | ok signature => exact ⟨o, events, by rw [sendLoop_ok hattempt]⟩
  | error error =>
    rcases sendLoop_error hattempt with ⟨-, hloop⟩ | ⟨-, hloop⟩
    · exact ⟨o, events, by rw [hloop]⟩
    · exact ⟨o, events ++ (sendLoop sends (retries - 1) (attempt + 1) saw').1, by rw [hloop]; rfl⟩

theorem isPreflight_of_map {error : SendError} {mapped : Thrown} (h : mapPreflightError error = some mapped) :
    (SendOutcome.rejected error).isPreflight = true := by
  cases error with
  | preflight => rfl
  | other => cases h

theorem send_not_mem_events (r : ReleaseOutcome) (o : SendOutcome) : .send o ∉ r.events := by
  unfold ReleaseOutcome.events
  split <;> simp

theorem RetriedPreflight.mapped {a : SendAttempt} {error : SendError} (h : RetriedPreflight a)
    (ho : a.outcome = .rejected error) :
    ∃ mapped, mapPreflightError error = some mapped ∧ isTransientRpcError mapped = true ∧ a.late = false := by
  obtain ⟨error', mapped, herror, h⟩ := h
  rw [ho] at herror
  cases herror
  exact ⟨mapped, h⟩

/-- The loop from an attempt on refunds safely unless it retries a refund, and its definite errors are right. -/
def LoopSafe (sends : Nat → SendAttempt) (retries attempt : Nat) : Prop :=
  (RefundSafe (sendLoop sends retries attempt false).1 ↔ ¬ RefundRetried sends retries attempt) ∧
    DefiniteSafe (sendLoop sends retries attempt false).1 (sendLoop sends retries attempt false).2

theorem loopSafe_of_not_retried {retries attempt : Nat} (hnot : ¬ RetriedPreflight (sends attempt))
    (hreleased : .released ∉ (sendLoop sends retries attempt false).1)
    (hdefinite : ∀ error, (sendLoop sends retries attempt false).2 = .error error →
      isDefiniteSubmissionError error = false) : LoopSafe sends retries attempt := by
  refine ⟨⟨fun _ h => hnot (refundRetried_iff.mp h).2.1, fun _ => refundSafe_of_not_mem hreleased⟩, ?_⟩
  intro error herror hd
  rw [hdefinite error herror] at hd
  cases hd

theorem loopSafe_accepted {retries attempt : Nat} {signature : String}
    (ho : (sends attempt).outcome = .accepted signature) : LoopSafe sends retries attempt := by
  refine loopSafe_of_not_retried ?_ ?_ ?_
  · rintro ⟨error, mapped, herror, -⟩
    rw [ho] at herror
    cases herror
  · rw [sendLoop_ok (sendAttempt_accepted ho false)]
    simp
  · rw [sendLoop_ok (sendAttempt_accepted ho false)]
    exact nofun

theorem loopSafe_other {retries attempt : Nat} {error : SendError} (ho : (sends attempt).outcome = .rejected error)
    (hmap : mapPreflightError error = none) : LoopSafe sends retries attempt := by
  have hnot : ¬ RetriedPreflight (sends attempt) := by
    intro h
    obtain ⟨mapped, hmapped, -⟩ := h.mapped ho
    rw [hmap] at hmapped
    cases hmapped
  obtain ⟨thrown, saw', hattempt, hdefinite, hsaw⟩ := sendAttempt_other ho (.inr hmap)
  rcases sendLoop_error hattempt with ⟨-, hloop⟩ | ⟨⟨-, htransient, -⟩, hloop⟩
  · refine loopSafe_of_not_retried hnot ?_ ?_
    · rw [hloop]
      simp
    · rw [hloop]
      rintro _ ⟨⟩
      exact hdefinite
  · -- From the next attempt on a transient failure was seen.
    obtain rfl := hsaw htransient
    obtain ⟨hreleased, herror⟩ := sendLoop_saw sends (retries - 1) (attempt + 1)
    refine loopSafe_of_not_retried hnot ?_ ?_
    · rw [hloop]
      simpa using hreleased
    · rw [hloop]
      exact herror

theorem loopSafe_preflight {retries attempt : Nat} {error : SendError} {mapped : Thrown}
    (ho : (sends attempt).outcome = .rejected error) (hmap : mapPreflightError error = some mapped)
    (ih : 0 < retries → LoopSafe sends (retries - 1) (attempt + 1)) : LoopSafe sends retries attempt := by
  have hpreflight := isPreflight_of_map hmap
  unfold LoopSafe
  rw [refundRetried_iff]
  rcases sendLoop_error (sendAttempt_preflight ho hmap) with ⟨hstop, hloop⟩ | ⟨⟨hpos, htransient, hlate⟩, hloop⟩
  · -- The loop ends with the release.
    rw [hloop]
    refine ⟨⟨?_, fun _ => ?_⟩, fun e _ _ o hmem => ?_⟩
    · rintro - ⟨hpos, hretried, -⟩
      obtain ⟨mapped', hmapped, hretry⟩ := hretried.mapped ho
      obtain rfl : mapped = mapped' := Option.some.inj (hmap.symm.trans hmapped)
      exact hstop ⟨hpos, hretry⟩
    · rw [refundSafe_send hpreflight]
      unfold ReleaseOutcome.events
      split
      · exact refundSafe_released.mpr (by simp)
      · exact refundSafe_of_not_mem (by simp)
    · rcases List.mem_cons.mp hmem with h | h
      · cases h
        exact hpreflight
      · exact absurd h (send_not_mem_events _ o)
  · obtain ⟨hsafe, hdefinite⟩ := ih hpos
    have hretried : RetriedPreflight (sends attempt) := ⟨error, mapped, ho, hmap, htransient, hlate⟩
    obtain ⟨o, rest, hrest⟩ := sends_first sends (retries - 1) (attempt + 1) false
    rw [hloop]
    refine ⟨?_, fun e he hd o hmem => ?_⟩
    · simp only [List.cons_append]
      rw [refundSafe_send hpreflight]
      unfold ReleaseOutcome.events
      cases hreleased : (sends attempt).release.released with
      | true =>
        -- The next send comes after the release.
        have hunsafe : ¬ RefundSafe (.released :: (sendLoop sends (retries - 1) (attempt + 1) false).1) := by
          rw [refundSafe_released, hrest]
          exact fun h => h o List.mem_cons_self
        exact ⟨fun h => absurd h hunsafe, fun h => absurd ⟨hpos, hretried, .inl rfl⟩ h⟩
      | false =>
        simp [hsafe, hpos, hretried]
    · rcases List.mem_append.mp hmem with h | h
      · rcases List.mem_cons.mp h with h | h
        · cases h
          exact hpreflight
        · exact absurd h (send_not_mem_events _ o)
      · exact hdefinite e he hd o h

theorem loopSafe (sends : Nat → SendAttempt) (retries attempt : Nat) : LoopSafe sends retries attempt := by
  induction retries using Nat.strong_induction_on generalizing attempt with
  | _ retries ih =>
    cases ho : (sends attempt).outcome with
    | accepted signature => exact loopSafe_accepted ho
    | rejected error =>
      cases hmap : mapPreflightError error with
      | none => exact loopSafe_other ho hmap
      | some mapped =>
        exact loopSafe_preflight ho hmap fun hpos => ih (retries - 1) (Nat.sub_lt hpos one_pos) (attempt + 1)

/-! ## The submission -/

/-- Every call of `prepareOwnedSubmission` succeeded. -/
structure Prepared (o : PrepareOutcomes) : Prop where
  sign : o.sign = none
  markSigned : o.markSigned = .ok .persisted
  persistSigned : o.persistSigned = none
  policies : o.resolveEnabledPolicies = .ok true
  markStarted : o.markStarted = none
  markSubmitted : ∃ result, o.markSubmitted = .ok result ∧ (result = .persisted ∨ o.durablyAdvanced = true)

theorem signed_ok_iff (o : PrepareOutcomes) :
    o.signed = .ok () ↔ o.sign = none ∧ o.markSigned = .ok .persisted ∧ o.persistSigned = none ∧
      o.resolveEnabledPolicies = .ok true := by
  obtain ⟨sign, markSigned, persistSigned, policies, -, -, -, -, -, -⟩ := o
  unfold PrepareOutcomes.signed
  cases sign with
  | some error => exact ⟨nofun, fun h => nomatch h.1⟩
  | none =>
    cases markSigned with
    | error error => exact ⟨nofun, fun h => nomatch h.2.1⟩
    | ok result =>
      cases result with
      | stale | duplicateSignature => exact ⟨nofun, fun h => nomatch h.2.1⟩
      | persisted =>
        cases persistSigned with
        | some error => exact ⟨nofun, fun h => nomatch h.2.2.1⟩
        | none =>
          cases policies with
          | error error => exact ⟨nofun, fun h => nomatch h.2.2.2⟩
          | ok enabled =>
            cases enabled with
            | false => exact ⟨nofun, fun h => nomatch h.2.2.2⟩
            | true => exact ⟨fun _ => ⟨rfl, rfl, rfl, rfl⟩, fun _ => rfl⟩

theorem prepareOwnedSubmission_cases (o : PrepareOutcomes) :
    Prepared o ∧ prepareOwnedSubmission o = ([], .ok ()) ∨
      ¬ Prepared o ∧ ∃ events error, prepareOwnedSubmission o = (events, .error error) ∧
        ∀ outcome, .send outcome ∉ events := by
  have hreleased (error : Thrown) : ∃ events error', o.releaseAndThrow error = (events, .error error') ∧
      ∀ outcome, .send outcome ∉ events :=
    ⟨o.release.events, o.release.error.getD error, rfl, send_not_mem_events o.release⟩
  have hthrows (error : Thrown) : ∃ events error', (([], .error error) :
      List SubmissionEvent × Except Thrown Unit) = (events, .error error') ∧ ∀ outcome, .send outcome ∉ events :=
    ⟨[], error, rfl, by simp⟩
  unfold prepareOwnedSubmission
  cases hsigned : o.signed with
  | error error =>
    refine .inr ⟨fun h => ?_, hreleased error⟩
    rw [(signed_ok_iff o).mpr ⟨h.sign, h.markSigned, h.persistSigned, h.policies⟩] at hsigned
    cases hsigned
  | ok =>
    obtain ⟨hsign, hmarkSigned, hpersist, hpolicies⟩ := (signed_ok_iff o).mp hsigned
    cases hstarted : o.markStarted with
    | some error =>
      refine .inr ⟨fun h => ?_, ?_⟩
      · rw [h.markStarted] at hstarted
        cases hstarted
      · dsimp only
        split
        · exact hreleased error
        · exact hthrows error
        · exact hthrows error
    | none =>
      cases hsubmitted : o.markSubmitted with
      | error error =>
        refine .inr ⟨fun h => ?_, hthrows _⟩
        obtain ⟨result, hresult, -⟩ := h.markSubmitted
        rw [hresult] at hsubmitted
        cases hsubmitted
      | ok result =>
        dsimp only
        split
        · next hlost =>
          refine .inr ⟨fun h => ?_, hthrows _⟩
          obtain ⟨result', hresult, hkept⟩ := h.markSubmitted
          rw [hresult] at hsubmitted
          cases hsubmitted
          exact hkept.elim hlost.1 hlost.2
        · next hkept =>
          refine .inl ⟨⟨hsign, hmarkSigned, hpersist, hpolicies, hstarted, result, hsubmitted, ?_⟩, rfl⟩
          by_contra hlost
          exact hkept (not_or.mp hlost)

/-- A refund is safe and a definite error is right, unless a send that was refunded at preflight is retried for the
text of its error. -/
theorem refunded_submission_not_sent (signature : String) (o : SubmitOutcomes) :
    RefundSafe (submitSignedPaymentTransaction signature o).1 ∧
        DefiniteSafe (submitSignedPaymentTransaction signature o).1 (submitSignedPaymentTransaction signature o).2 ↔
      ¬ (Prepared o.prepare ∧ RefundRetried o.sends transientRpcRetries 0) := by
  unfold submitSignedPaymentTransaction
  rcases prepareOwnedSubmission_cases o.prepare with ⟨hprepared, hok⟩ | ⟨hnot, events, error, herror, hsends⟩
  · rw [hok]
    obtain ⟨hsafe, hdefinite⟩ := loopSafe o.sends transientRpcRetries 0
    simp only [sendLoop] at hsafe hdefinite
    simp only [List.nil_append, hsafe, hprepared, true_and]
    refine and_iff_left fun error herror hd => ?_
    -- The error for another signature is not a definite one.
    generalize withTransientRpcRetry (sendAttempt o.sends) (fun attempt => (o.sends attempt).late)
      transientRpcRetries 0 false = out at hdefinite herror ⊢
    obtain ⟨events, result⟩ := out
    cases result with
    | error e =>
      cases herror
      exact hdefinite error rfl hd
    | ok submittedSignature =>
      by_cases hsame : submittedSignature = signature
      · simp [hsame, bind, Except.bind, pure, Except.pure] at herror
      · simp [hsame, bind, Except.bind, throw, throwThe, MonadExceptOf.throw] at herror
        subst herror
        cases hd
  · rw [herror]
    exact ⟨fun _ h => hnot h.1, fun _ => ⟨refundSafe_of_no_send hsends, fun _ _ _ o ho => absurd ho (hsends o)⟩⟩

/-! ## A text that looks transient -/

def sampleSend (outcome : SendOutcome) : SendAttempt := ⟨outcome, ⟨true, none⟩, false⟩

/-- A program rejects the transfer with its own error 500, and the second send goes through. -/
def customError500 : SubmitOutcomes where
  prepare :=
    { sign := none, markSigned := .ok .persisted, persistSigned := none, resolveEnabledPolicies := .ok true
      markStarted := none, hasStarted := .ok true, markSubmitted := .ok .persisted, durablyAdvanced := true
      accountingUnavailable := ⟨"Owned submission accounting could not be persisted", .plain⟩
      release := ⟨true, none⟩ }
  sends
    | 0 => sampleSend (.rejected (.preflight "Transaction simulation failed"
        (some ⟨"Custom program error: #500 (instruction #1)", some 500⟩)))
    | _ => sampleSend (.accepted "sig_1")

/-- The refunded transaction is sent again and accepted. -/
theorem refunded_submission_sent :
    ¬ ∀ (signature : String) (o : SubmitOutcomes), RefundSafe (submitSignedPaymentTransaction signature o).1 ∧
      DefiniteSafe (submitSignedPaymentTransaction signature o).1 (submitSignedPaymentTransaction signature o).2 := by
  intro h
  have hevents : (submitSignedPaymentTransaction "sig_1" customError500).1 =
      [.send (customError500.sends 0).outcome] ++ .released :: [.send (.accepted "sig_1")] := by decide
  exact ((h "sig_1" customError500).1 _ _ hevents).1 _ List.mem_cons_self

end Sdp.Owned
