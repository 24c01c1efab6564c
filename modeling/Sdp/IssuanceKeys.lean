import Sdp.Code.IssuanceKeys

/-!
# Calls with one key agree

The text that stands for a unique violation is not in PostgreSQL's message, so a call whose insert meets a
row ends in the error of the database. All is well as long as every insert comes before there is a row:
a call that overlaps with the one that creates it, or that cannot see it from its project, breaks this.
-/

open Sdp.Lib

namespace Sdp.IssuanceKeys

variable {s t : System}

/-- No insert meets a row. -/
def uncontested (s : System) : Step → Bool
  | .insert _ => s.rows.isEmpty
  | _ => true

/-- How the call `n` ends when `row` has the key. -/
def Row.answer (row : Row) (n : Nat) (input : Input) : Result := if row.id = n then .created row else input.replays row

/-- What a call may have come to while `row` has the key. -/
def Row.Allows (row : Row) (n : Nat) (input : Input) : Call → Prop
  | .idle | .insert => row.id ≠ n
  | .recover _ => False
  | .insertTransactionStatus row' => row' = row ∧ row.id = n
  | .done result => result = row.answer n input

inductive Invariant (s : System) : Prop
  | free (hrows : s.rows = []) (hcalls : ∀ n, s.calls n = .idle ∨ s.calls n = .insert)
  | taken (row : Row) (hrows : s.rows = [row]) (hcalls : ∀ n, row.Allows n (s.inputs n) (s.calls n))

@[simp] theorem call_setCall (s : System) (n : Nat) (call : Call) (k : Nat) :
    (s.setCall n call).calls k = if k = n then call else s.calls k := by
  simp [System.setCall, Function.update_apply]

theorem invariant_setCall {row : Row} {n : Nat} {call : Call} (hrows : s.rows = [row])
    (hcalls : ∀ n, row.Allows n (s.inputs n) (s.calls n)) (hcall : row.Allows n (s.inputs n) call) :
    Invariant (s.setCall n call) := by
  refine .taken row hrows fun k => ?_
  rw [call_setCall]
  split
  · next hk => exact hk ▸ hcall
  · exact hcalls k

theorem invariant_find {n : Nat} (hs : Invariant s) (h : s.find n = some t) : Invariant t := by
  unfold System.find at h
  split at h
  · next hidle =>
    cases hs with
    | free hrows hcalls =>
      simp only [System.findTransactionByIdempotency, hrows, List.find?_nil] at h
      cases h
      refine .free hrows fun k => ?_
      rw [call_setCall]
      split
      · exact .inr rfl
      · exact hcalls k
    | taken row hrows hcalls =>
      have hne : row.id ≠ n := by simpa [hidle, Row.Allows] using hcalls n
      split at h
      · next found hfound =>
        cases h
        obtain rfl : found = row := by simpa [hrows] using List.mem_of_find?_eq_some hfound
        exact invariant_setCall hrows hcalls (by simp [Row.Allows, Row.answer, hne])
      · cases h
        exact invariant_setCall hrows hcalls hne
  · cases h

theorem invariant_insert {n : Nat} (hs : Invariant s) (hfree : s.rows.isEmpty = true) (h : s.insert n = some t) :
    Invariant t := by
  unfold System.insert at h
  split at h
  · next hcall =>
    rw [if_pos hfree] at h
    cases h
    cases hs with
    | taken row hrows hcalls => simp [hrows] at hfree
    | free hrows hcalls =>
      refine .taken (s.newRow n) rfl fun k => ?_
      rw [call_setCall]
      split
      · next hk => exact ⟨rfl, hk.symm⟩
      · next hk =>
        have hne : (s.newRow n).id ≠ k := fun h => hk h.symm
        rcases hcalls k with hidle | hinsert
        · simpa [hidle, Row.Allows] using hne
        · simpa [hinsert, Row.Allows] using hne
  · cases h

theorem invariant_step {l : Step} (hs : Invariant s) (hok : uncontested s l = true) (h : s.step l = some t) :
    Invariant t := by
  cases l with
  | find n => exact invariant_find hs h
  | insert n => exact invariant_insert hs hok h
  | recover n =>
    simp only [System.step, System.recover] at h
    split at h
    · next message hcall =>
      cases hs with
      | free hrows hcalls => rcases hcalls n with hn | hn <;> simp [hcall] at hn
      | taken row hrows hcalls => simpa [hcall, Row.Allows] using hcalls n
    · cases h
  | insertTransactionStatus n =>
    simp only [System.step, System.insertTransactionStatus] at h
    split at h
    · next row' hcall =>
      cases h
      cases hs with
      | free hrows hcalls => rcases hcalls n with hn | hn <;> simp [hcall] at hn
      | taken row hrows hcalls =>
        have hsame : row' = row ∧ row.id = n := by simpa [hcall, Row.Allows] using hcalls n
        exact invariant_setCall hrows hcalls (by simp [Row.Allows, Row.answer, hsame])
    · cases h

/-- In every run in which no insert meets a row: at most one row has the key; once any call has ended there is one, the
call that created it is about to return it as new or has done so, and every other call that has ended has it as a
replay when the fingerprints agree, else a conflict. -/
theorem calls_agree (h : Reachable System.step System.Initial (fun s l => uncontested s l = true) s) :
    s.rows.length ≤ 1 ∧ ((∃ n result, s.calls n = .done result) → ∃ row, s.rows = [row] ∧
      ((s.calls row.id = .insertTransactionStatus row ∨ s.calls row.id = .done (.created row)) ∧
        ∀ n result, s.calls n = .done result →
          result = if row.id = n then .created row
            else if row.fingerprint = (s.inputs n).fingerprint then .replayed row else .conflict)) := by
  have hs : Invariant s :=
    h.invariant (P := Invariant) (fun s hs => .free hs.rows fun n => .inl (hs.calls n)) fun _ _ _ _ hs hok ht =>
      invariant_step hs hok ht
  cases hs with
  | free hrows hcalls =>
    refine ⟨by simp [hrows], ?_⟩
    rintro ⟨n, result, hdone⟩
    rcases hcalls n with hn | hn <;> simp [hdone] at hn
  | taken row hrows hcalls =>
    refine ⟨by simp [hrows], fun _ => ⟨row, hrows, ?_, fun n result hdone => ?_⟩⟩
    · have hholder := hcalls row.id
      cases hcall : s.calls row.id with
      | idle | insert | recover => simp [hcall, Row.Allows] at hholder
      | insertTransactionStatus row' =>
        simp only [hcall, Row.Allows, and_true] at hholder
        exact .inl (by rw [hholder])
      | done result =>
        simp only [hcall, Row.Allows, Row.answer, if_true] at hholder
        exact .inr (by rw [hholder])
    · simpa [hdone, Row.Allows, Row.answer, Input.replays] using hcalls n

/-- Nothing has the key, and every call is for the same request. -/
def fresh : System := ⟨fun _ => ⟨"payload", some 0, true⟩, [], fun _ => .idle⟩

/-- The second call is for the same request in another project of the organization. -/
def freshAcross : System := ⟨fun n => ⟨"payload", some n, true⟩, [], fun _ => .idle⟩

theorem fresh_initial : fresh.Initial := ⟨rfl, fun _ => rfl⟩

/-- The second of two calls in turn replays the first. -/
theorem second_call_replays :
    ∃ s, Reachable System.step System.Initial (fun s l => uncontested s l = true) s ∧
      s.calls 0 = .done (.created ⟨0, "payload", some 0⟩) ∧ s.calls 1 = .done (.replayed ⟨0, "payload", some 0⟩) ∧
      s.rows.length ≤ 1 := by
  have hrun : (run (fun u l => if uncontested u l then u.step l else none) fresh
      [.find 0, .insert 0, .find 1, .insertTransactionStatus 0]).map (fun s => (s.calls 0, s.calls 1)) =
        some (.done (.created ⟨0, "payload", some 0⟩), .done (.replayed ⟨0, "payload", some 0⟩)) := by decide
  obtain ⟨s, hs, hcalls⟩ := Option.map_eq_some_iff.mp hrun
  have hreach := (Reachable.start fresh_initial).run_checked hs
  simp only [Prod.mk.injEq] at hcalls
  exact ⟨s, hreach, hcalls.1, hcalls.2, (calls_agree hreach).1⟩

/-- Two overlapping calls for the same request: the second ends in the error of the database. So does one that comes
later, when its project is another. -/
theorem losers_see_the_database_error :
    (run System.step fresh [.find 0, .find 1, .insert 0, .insertTransactionStatus 0, .insert 1]).map
        (fun s => (s.calls 0, s.calls 1)) =
      some (.done (.created ⟨0, "payload", some 0⟩), .done (.raised duplicateKey)) ∧
    (run System.step freshAcross [.find 0, .insert 0, .insertTransactionStatus 0, .find 1, .insert 1]).map
        (fun s => (s.calls 0, s.calls 1)) =
      some (.done (.created ⟨0, "payload", some 0⟩), .done (.raised duplicateKey)) := by decide +kernel

end Sdp.IssuanceKeys
