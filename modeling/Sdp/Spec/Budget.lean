import Sdp.Code.BudgetRedis
import Sdp.BudgetLedger
import Mathlib.Algebra.BigOperators.Group.Finset.Basic
import Mathlib.Algebra.BigOperators.Intervals
import Mathlib.Algebra.Order.BigOperators.Group.List

/-!
# What the budget is about

Every attempt of a reservation is created once, by one request, and never changes its terms. A
registry says what they are. All laws hold for every registry.
-/

open Sdp.Lib

namespace Sdp.Budget

/-- What the fingerprint in a reservation id stands for. -/
structure ReservationScope where
  productEnvironment : ProductEnvironment
  organizationId : String
  projectId : Option String
  actorType : String
  actorId : String
  transactionDigest : String
  feePayer : String
  recentBlockhash : String

/-- What the request that creates or reopens an attempt brings. -/
structure AttemptTerms where
  providerConfigFingerprint : String
  reservedLamports : Nat
  hourBucket : String
  dayBucket : String
  policyVersions : List (String × Nat)

/-- The reservations of one deployment. A project belongs to one organization. -/
structure Registry where
  network : SponsorshipNetwork
  scope : String → ReservationScope
  terms : AttemptId → AttemptTerms
  projectOrganization : String → String
  owned : ∀ id p, (scope id).projectId = some p → (scope id).organizationId = projectOrganization p

namespace Registry

variable (reg : Registry)

def input (a : AttemptId) : CreateSponsorshipReservationInput where
  id := a.reservationId
  network := reg.network
  productEnvironment := (reg.scope a.reservationId).productEnvironment
  organizationId := (reg.scope a.reservationId).organizationId
  projectId := (reg.scope a.reservationId).projectId
  actorType := (reg.scope a.reservationId).actorType
  actorId := (reg.scope a.reservationId).actorId
  transactionDigest := (reg.scope a.reservationId).transactionDigest
  feePayer := (reg.scope a.reservationId).feePayer
  providerConfigFingerprint := (reg.terms a).providerConfigFingerprint
  recentBlockhash := (reg.scope a.reservationId).recentBlockhash
  reservedLamports := (reg.terms a).reservedLamports
  hourBucket := (reg.terms a).hourBucket
  dayBucket := (reg.terms a).dayBucket
  policyVersions := (reg.terms a).policyVersions

def fields (a : AttemptId) : List ScopeField :=
  scopeFields (reg.scope a.reservationId).organizationId (reg.scope a.reservationId).projectId

def amount (a : AttemptId) : Nat := (reg.terms a).reservedLamports

def buckets (a : AttemptId) : Buckets := ⟨(reg.terms a).hourBucket, (reg.terms a).dayBucket⟩

/-- The attempt counts in this field of this bucket. -/
def Covers (a : AttemptId) (w : Window) (k : String) (f : ScopeField) : Prop :=
  f ∈ reg.fields a ∧ (reg.buckets a).of w = k

instance (a : AttemptId) (w : Window) (k : String) (f : ScopeField) : Decidable (reg.Covers a w k f) :=
  inferInstanceAs (Decidable (_ ∧ _))

/-- A live reservation of a snapshot. -/
def live (a : AttemptId) : SponsorshipLiveWindowReservation where
  id := a.reservationId
  attempt := a.attempt
  reservedLamports := reg.amount a
  organizationId := (reg.scope a.reservationId).organizationId
  projectId := (reg.scope a.reservationId).projectId

@[simp] theorem live_attemptId (a : AttemptId) : (reg.live a).attemptId = a := rfl

@[simp] theorem live_fields (a : AttemptId) : (reg.live a).fields = reg.fields a := rfl

@[simp] theorem live_reservedLamports (a : AttemptId) : (reg.live a).reservedLamports = reg.amount a := rfl

/-- The window of an attempt's admission. -/
def windowInput (a : AttemptId) : WindowInput where
  network := reg.network
  organizationId := (reg.scope a.reservationId).organizationId
  projectId := (reg.scope a.reservationId).projectId
  hourBucket := (reg.terms a).hourBucket
  dayBucket := (reg.terms a).dayBucket

theorem input_bucket (a : AttemptId) (w : Window) : (reg.input a).bucket w = (reg.buckets a).of w := by
  cases w <;> rfl

theorem windowInput_bucket (a : AttemptId) (w : Window) :
    (reg.windowInput a).bucket w = (reg.buckets a).of w := by
  cases w <;> rfl

/-! ## The scripts at an attempt -/

section scripts

variable (r : Redis) (a : AttemptId)

def seed (snapshot : WindowAdmissionSnapshot) : Redis :=
  initializeScript r (reg.buckets a) (reg.fields a) snapshot

def reserve (policies : SponsorshipBudgetScopeType → SponsorshipBudgetPolicy) : Redis × ReserveReply :=
  reserveScript r (reg.buckets a) a (reg.amount a) ((reg.fields a).map (scopeLimit policies))

def cancel : Redis × CancelReply := cancelScript r (reg.buckets a) a (reg.fields a)

def settle (actual : Nat) (detectMissingReservation : Bool) : Redis × SettleReply :=
  settleScript r (reg.buckets a) a (reg.amount a) actual (reg.fields a) detectMissingReservation

end scripts

end Registry

def ReservationRow.attemptId (r : ReservationRow) : AttemptId := ⟨r.id, r.attempt⟩

/-- Every row says what its attempt was created with. -/
def Conforms (reg : Registry) (l : Ledger) : Prop :=
  ∀ id r, l.find? id = some r →
    r.Consistent ∧ r.toCreateSponsorshipReservationInput = reg.input r.attemptId

/-- The durable usage of one field of one bucket, less one reservation. -/
def windowUsage (l : Ledger) (excludeReservationId : Option String) (w : Window) (k : String)
    (f : ScopeField) : Nat :=
  l.sum fun r =>
    if r.status ≠ .released ∧ r.bucket w = k ∧ f ∈ scopeFields r.organizationId r.projectId ∧
        excludeReservationId ≠ some r.id then
      r.lamports
    else 0

/-! ## The fields of a scope -/

theorem scopeFields_nodup (organizationId : String) (projectId : Option String) :
    (scopeFields organizationId projectId).Nodup := by
  unfold scopeFields
  cases projectId.filter (· ≠ "") <;> simp

@[simp] theorem global_mem_scopeFields (organizationId : String) (projectId : Option String) :
    .global ∈ scopeFields organizationId projectId := by
  simp [scopeFields]

@[simp] theorem organization_mem_scopeFields (id organizationId : String) (projectId : Option String) :
    .organization id ∈ scopeFields organizationId projectId ↔ id = organizationId := by
  simp [scopeFields]

@[simp] theorem project_mem_scopeFields (id organizationId : String) (projectId : Option String) :
    .project id ∈ scopeFields organizationId projectId ↔ projectId = some id ∧ id ≠ "" := by
  cases projectId with
  | none => simp [scopeFields]
  | some p =>
    simp [scopeFields]

theorem Registry.fields_nodup (reg : Registry) (a : AttemptId) : (reg.fields a).Nodup := scopeFields_nodup ..

/-! ## Snapshots -/

/-- A snapshot taken for the fields of an admission: it lists attempts of the registry, each once and in
its bucket, and its usage counts all that it lists. -/
structure SnapshotOf (reg : Registry) (b : Buckets) (fields : List ScopeField)
    (snapshot : WindowAdmissionSnapshot) (listed : Window → List AttemptId) : Prop where
  live : ∀ w, snapshot.liveReservations w = (listed w).map reg.live
  nodup : ∀ w, (listed w).Nodup
  bucket : ∀ w, ∀ a ∈ listed w, (reg.buckets a).of w = b.of w
  usage : ∀ w, ∀ f ∈ fields,
    ((listed w).map fun a => if f ∈ reg.fields a then reg.amount a else 0).sum ≤ (snapshot.usage w).of f

theorem Conforms.fields {reg : Registry} {l : Ledger} (hl : Conforms reg l) {id : String} {r : ReservationRow}
    (hr : l.find? id = some r) : scopeFields r.organizationId r.projectId = reg.fields r.attemptId := by
  have := (hl id r hr).2
  rw [this]
  rfl

theorem getWindowUsage_of {reg : Registry} {l : Ledger} (hl : Conforms reg l) (a : AttemptId)
    (exclude : Option String) (w : Window) {f : ScopeField} (hf : f ∈ reg.fields a) :
    (getWindowUsage l (reg.windowInput a) exclude w).of f =
      windowUsage l exclude w ((reg.buckets a).of w) f := by
  have hbucket := reg.windowInput_bucket a w
  -- The two window clauses are implied by the bucket of the sum.
  have hin : ∀ id r, l.find? id = some r → r.bucket w = (reg.buckets a).of w →
      (inWindows (reg.windowInput a) exclude r ↔ exclude ≠ some r.id) := by
    intro id r hr hb
    have hnet : r.network = reg.network := by rw [(hl id r hr).2]; rfl
    have hwin : r.hourBucket = (reg.windowInput a).hourBucket ∨ r.dayBucket = (reg.windowInput a).dayBucket := by
      cases w
      · exact .inl hb
      · exact .inr hb
    have hnet' : r.network = (reg.windowInput a).network := hnet
    simp only [inWindows, hnet', hwin, true_and, decide_eq_true_eq]
  have hsum : ∀ scope : ReservationRow → Bool,
      (∀ id r, l.find? id = some r → (scope r ↔ f ∈ scopeFields r.organizationId r.projectId)) →
      (l.sum fun r =>
        if inWindows (reg.windowInput a) exclude r ∧ r.status ≠ .released then
          if r.bucket w = (reg.windowInput a).bucket w ∧ scope r then r.lamports else 0
        else 0) = windowUsage l exclude w ((reg.buckets a).of w) f := by
    intro scope hscope
    refine Table.sum_congr fun id r hr => ?_
    by_cases hb : r.bucket w = (reg.buckets a).of w
    · simp only [hin id r hr hb, hbucket, hb, hscope id r hr, true_and]
      by_cases hs : r.status = .released <;> by_cases he : exclude = some r.id <;> simp [hs, he]
    · simp [hbucket, hb]
  cases f with
  | global => exact hsum _ fun id r hr => by simp
  | organization o =>
    obtain rfl : o = (reg.scope a.reservationId).organizationId := by simpa [Registry.fields] using hf
    refine hsum _ fun id r hr => ?_
    rw [organization_mem_scopeFields, decide_eq_true_eq]
    exact eq_comm
  | project p =>
    obtain ⟨hp, hne⟩ : (reg.scope a.reservationId).projectId = some p ∧ p ≠ "" := by
      simpa [Registry.fields] using hf
    refine hsum _ fun id r hr => ?_
    -- A row of the project is a row of its organization.
    have horg : r.projectId = some p → r.organizationId = (reg.scope a.reservationId).organizationId := by
      intro hrp
      have hrow := (hl id r hr).2
      rw [hrow] at hrp ⊢
      exact (reg.owned _ _ hrp).trans (reg.owned _ _ hp).symm
    simp only [Registry.windowInput, hp, decide_eq_true_eq, project_mem_scopeFields, hne, ne_eq,
      not_false_eq_true, and_true]
    exact ⟨fun h => h.2, fun h => ⟨horg h, h⟩⟩

/-- The attempts that the snapshot lists as live. -/
def listedAttempts (l : Ledger) (input : WindowInput) (exclude : Option String) (w : Window) : List AttemptId :=
  ((l.rows.filter fun r => inWindows input exclude r ∧ r.status ∈ [.reserved, .signed, .submitted]).filter
    fun r => r.bucket w = input.bucket w).map ReservationRow.attemptId

theorem mem_listedAttempts {l : Ledger} {input : WindowInput} {exclude : Option String} {w : Window}
    {a : AttemptId} (h : a ∈ listedAttempts l input exclude w) :
    ∃ r, l.find? a.reservationId = some r ∧ r.attemptId = a ∧ r.bucket w = input.bucket w ∧
      (r.status = .reserved ∨ r.status = .signed ∨ r.status = .submitted) ∧ exclude ≠ some r.id := by
  obtain ⟨r, hr, rfl⟩ := List.mem_map.mp h
  simp only [List.mem_filter, decide_eq_true_eq, inWindows, List.mem_cons, List.not_mem_nil, or_false] at hr
  obtain ⟨⟨hmem, ⟨-, -, hex⟩, hs⟩, hb⟩ := hr
  exact ⟨r, Table.mem_rows_iff.mp hmem, rfl, hb, hs, hex⟩

theorem sum_map_filter {α : Type} (l : List α) (p : α → Bool) (g : α → Nat) :
    ((l.filter p).map g).sum = (l.map fun x => if p x then g x else 0).sum := by
  induction l with
  | nil => rfl
  | cons x l ih => by_cases hp : p x <;> simp [hp, ih]

theorem sum_map_filter_le {α : Type} (l : List α) (p : α → Bool) (g h : α → Nat)
    (hle : ∀ x ∈ l, p x → g x ≤ h x) : ((l.filter p).map g).sum ≤ (l.map h).sum := by
  rw [sum_map_filter]
  refine List.sum_le_sum fun x hx => ?_
  split
  · next hp => exact hle x hx hp
  · exact Nat.zero_le _

theorem ReservationRow.Consistent.lamports {r : ReservationRow} (hr : r.Consistent)
    (hs : r.status = .reserved ∨ r.status = .signed ∨ r.status = .submitted) :
    r.lamports = r.reservedLamports := by
  have hnone : r.actualLamports = none := by
    have hnt : ¬ r.Terminal := by rcases hs with h | h | h <;> simp [Terminal, h]
    simpa using mt hr.actual.mp hnt
  simp [ReservationRow.lamports, hnone]

/-- What an admission reads of a ledger is a snapshot. -/
theorem Conforms.snapshotOf {reg : Registry} {l : Ledger} (hl : Conforms reg l) (a : AttemptId)
    (exclude : Option String) :
    SnapshotOf reg (reg.buckets a) (reg.fields a) (loadWindowAdmissionSnapshot l (reg.windowInput a) exclude)
      (listedAttempts l (reg.windowInput a) exclude) where
  live w := by
    simp only [loadWindowAdmissionSnapshot, listLiveWindowReservations, listedAttempts, List.map_map]
    refine List.map_congr_left fun r hr => ?_
    have hmem := List.mem_of_mem_filter (List.mem_of_mem_filter hr)
    have hrow := (hl r.id r (Table.mem_rows_iff.mp hmem)).2
    simp only [Function.comp_apply, ReservationRow.live, hrow]
    rfl
  nodup w := by
    unfold listedAttempts
    refine List.Nodup.of_map AttemptId.reservationId ?_
    rw [List.map_map]
    refine List.Nodup.sublist (List.Sublist.map _ ?_) l.primaryKey
    exact List.filter_sublist.trans List.filter_sublist
  bucket w b hb := by
    obtain ⟨r, hr, rfl, hbucket, -⟩ := mem_listedAttempts hb
    have hrow := (hl _ r hr).2
    rw [← reg.input_bucket, ← hrow, hbucket, reg.windowInput_bucket]
  usage w f hf := by
    rw [show (loadWindowAdmissionSnapshot l (reg.windowInput a) exclude).usage w =
      getWindowUsage l (reg.windowInput a) exclude w from rfl, getWindowUsage_of hl a exclude w hf]
    simp only [listedAttempts, List.map_map, List.filter_filter]
    refine sum_map_filter_le _ _ _ _ fun r hr hlisted => ?_
    have hfind := Table.mem_rows_iff.mp hr
    simp only [Bool.and_eq_true, decide_eq_true_eq, inWindows, List.mem_cons, List.not_mem_nil,
      or_false] at hlisted
    obtain ⟨hb, ⟨-, -, hex⟩, hs⟩ := hlisted
    have hopen : r.status ≠ .released := by rcases hs with h | h | h <;> simp [h]
    have hamount : r.reservedLamports = reg.amount r.attemptId := by rw [(hl _ r hfind).2]; rfl
    rw [reg.windowInput_bucket] at hb
    simp only [Function.comp_apply, ← hl.fields hfind, hopen, hb, hex, ne_eq, not_false_eq_true, and_true,
      true_and, (hl _ r hfind).1.lamports hs, hamount, le_refl]

end Sdp.Budget
