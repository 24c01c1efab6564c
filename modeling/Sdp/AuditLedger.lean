import Sdp.Code.AuditLedger
import Mathlib.Data.List.Perm.Subperm
import Mathlib.Tactic.Push

/-!
# What verification certifies

A ledger that passes is a chain of sealed rows with an anchor for each, and the external checkpoint
names its length and its last hash. That is enough to know every row of it.
-/

open Sdp.Lib

namespace Sdp.Audit

variable {pg : Postgres} {l : AuditLedger}

/-! ## Payloads -/

theorem nullable_inj {a b : Option String} (h : nullable a = nullable b) : a = b := by
  cases a <;> cases b <;> simp_all [nullable]

/-- No two rows have the same payload: no column is left out, and none runs into the next. -/
theorem payload_inj {s s' : Int} {e e' : AuditEntry} {p p' : Option String} (h : payload s e p = payload s' e' p') :
    s = s' ∧ e = e' ∧ p = p' := by
  have hitems := Json.arrayText_inj h
  simp only [List.cons.injEq, Json.Scalar.num.injEq, Json.Scalar.str.injEq, and_true] at hitems
  obtain ⟨hs, hid, horg, huser, hkey, haction, htype, hresource, hmetadata, hip, hagent, hrequest, hstatus, hcreated,
    hprevious⟩ := hitems
  refine ⟨hs, ?_, nullable_inj hprevious⟩
  cases e
  cases e'
  simp only [AuditEntry.mk.injEq]
  exact ⟨hid, nullable_inj horg, nullable_inj huser, nullable_inj hkey, haction, htype, nullable_inj hresource,
    nullable_inj hmetadata, nullable_inj hip, nullable_inj hagent, nullable_inj hrequest, hstatus, hcreated⟩

def AuditLogRow.payload (r : AuditLogRow) : String := Audit.payload r.ledgerSequence r.entry r.previousEntryHash

/-- SHA-256 takes the payloads of the rows to different hashes. -/
def NoCollision (pg : Postgres) (rows : List AuditLogRow) : Prop :=
  ∀ r ∈ rows, ∀ r' ∈ rows, pg.sha256 r.payload = pg.sha256 r'.payload → r.payload = r'.payload

/-! ## The checks -/

/-- What the rows and the anchors of a ledger that passes are like. -/
structure Certified (pg : Postgres) (l : AuditLedger) : Prop where
  chained : (links pg).Chained none l.logs
  anchored : ∀ row ∈ l.logs, (l.anchorAt row.ledgerSequence).map (·.entryHash) = some row.entryHash
  count : l.anchors.length = l.logs.length
  last : l.anchorHead?.map (·.ledgerSequence) = if l.logs.length = 0 then none else some (l.logs.length : Int)
  head : l.anchorHead?.map (·.entryHash) = (links pg).head none l.logs

theorem verifyRows_of_chained {rows : List AuditLogRow} {checked : Nat} {previous : Option String}
    (hchained : (links pg).Chained previous rows)
    (hanchored : ∀ row ∈ rows, (l.anchorAt row.ledgerSequence).map (·.entryHash) = some row.entryHash) :
    verifyRows pg l checked previous rows = .ok (checked + rows.length, (links pg).head previous rows) := by
  induction rows generalizing checked previous with
  | nil => rfl
  | cons row rows ih =>
    obtain ⟨hprevious, hhash, hrest⟩ := hchained
    have hsealed : ¬(row.previousEntryHash ≠ previous ∨
        row.entryHash ≠ auditLogHash pg row.ledgerSequence row.entry previous) :=
      not_or.mpr ⟨not_not.mpr hprevious, not_not.mpr hhash⟩
    have hnext : verifyRows pg l (checked + 1) (some row.entryHash) rows =
        .ok (checked + 1 + rows.length, (links pg).head (some row.entryHash) rows) :=
      ih hrest fun r hr => hanchored r (List.mem_cons_of_mem _ hr)
    rw [verifyRows, if_neg hsealed, if_neg (not_not.mpr (hanchored row List.mem_cons_self)), hnext, Links.head_cons,
      List.length_cons, Nat.add_right_comm]
    rfl

theorem verifyRows_ok {rows : List AuditLogRow} {checked : Nat} {previous : Option String} {result : Nat × Option String}
    (h : verifyRows pg l checked previous rows = .ok result) :
    (links pg).Chained previous rows ∧
      ∀ row ∈ rows, (l.anchorAt row.ledgerSequence).map (·.entryHash) = some row.entryHash := by
  induction rows generalizing checked previous with
  | nil => exact ⟨trivial, by simp⟩
  | cons row rows ih =>
    unfold verifyRows at h
    split at h
    · cases h
    · next hsealed =>
      split at h
      · cases h
      · next hanchor =>
        obtain ⟨hprevious, hhash⟩ := not_or.mp hsealed
        obtain ⟨hchained, hanchored⟩ := ih h
        refine ⟨⟨not_not.mp hprevious, not_not.mp hhash, hchained⟩, ?_⟩
        intro r hr
        rcases List.mem_cons.mp hr with rfl | hr
        · exact not_not.mp hanchor
        · exact hanchored r hr

theorem verifyRows_error {rows : List AuditLogRow} {checked : Nat} {previous : Option String}
    {verdict : LedgerVerification} (h : verifyRows pg l checked previous rows = .error verdict) :
    verdict.valid = false := by
  induction rows generalizing checked previous with
  | nil => cases h
  | cons row rows ih =>
    unfold verifyRows at h
    split at h
    · cases h
      rfl
    · split at h
      · cases h
        rfl
      · exact ih h

theorem verifyAuditLedger_of_chained (now sequence : Int) (hash : Option String)
    (hchained : (links pg).Chained none l.logs)
    (hanchored : ∀ row ∈ l.logs, (l.anchorAt row.ledgerSequence).map (·.entryHash) = some row.entryHash) :
    (verifyAuditLedger pg l now sequence hash).checkedEntries = l.logs.length ∧
    (verifyAuditLedger pg l now sequence hash).headHash = (links pg).head none l.logs ∧
    ((verifyAuditLedger pg l now sequence hash).valid = true ↔
      Certified pg l ∧ (sequence = l.logs.length ∧ hash = (links pg).head none l.logs) ∧
        unresolvedIntents pg now l.logs = []) := by
  unfold verifyAuditLedger
  rw [verifyRows_of_chained hchained hanchored, Nat.zero_add]
  by_cases hanchors : l.anchors.length = l.logs.length ∧
      l.anchorHead?.map (·.ledgerSequence) = (if l.logs.length = 0 then none else some (l.logs.length : Int)) ∧
      l.anchorHead?.map (·.entryHash) = (links pg).head none l.logs
  · have hcertified : Certified pg l := ⟨hchained, hanchored, hanchors.1, hanchors.2.1, hanchors.2.2⟩
    simp only []
    rw [if_neg (by simpa only [ne_eq, not_or, not_not] using hanchors)]
    by_cases hexternal : sequence = l.logs.length ∧ hash = (links pg).head none l.logs
    · rw [if_neg (by simpa only [ne_eq, not_or, not_not] using hexternal)]
      simp [hcertified, hexternal]
    · rw [if_pos (by simpa only [ne_eq, ← not_and_or] using hexternal)]
      simp [hexternal]
  · have hcertified : ¬ Certified pg l := fun h => hanchors ⟨h.count, h.last, h.head⟩
    simp only []
    rw [if_pos (by simpa only [ne_eq, ← not_and_or] using hanchors)]
    simp [hcertified]

theorem verifyAuditLedger_valid {now sequence : Int} {hash : Option String} :
    (verifyAuditLedger pg l now sequence hash).valid = true ↔
      Certified pg l ∧ (sequence = l.logs.length ∧ hash = (links pg).head none l.logs) ∧
        unresolvedIntents pg now l.logs = [] := by
  refine ⟨fun h => ?_, fun h => (verifyAuditLedger_of_chained _ _ _ h.1.chained h.1.anchored).2.2.mpr h⟩
  cases hrows : verifyRows pg l 0 none l.logs with
  | error verdict =>
    rw [verifyAuditLedger, hrows] at h
    rw [verifyRows_error hrows] at h
    cases h
  | ok result =>
    obtain ⟨hchained, hanchored⟩ := verifyRows_ok hrows
    exact (verifyAuditLedger_of_chained _ _ _ hchained hanchored).2.2.mp h

theorem verifyIntegrity_valid {external : Option CheckpointValue} {now : Int}
    (h : (verifyIntegrity pg external l now).valid = true) :
    Certified pg l ∧ (parseCheckpoint external).sequence = l.logs.length ∧
      (if (parseCheckpoint external).headHash = "" then none else some (parseCheckpoint external).headHash) =
        (links pg).head none l.logs := by
  obtain ⟨hcertified, hexternal, -⟩ := verifyAuditLedger_valid.mp (Bool.and_eq_true_iff.mp h).1
  exact ⟨hcertified, hexternal⟩

theorem verifyIntegrity_of_certified {c : AuditLedgerCheckpoint} {now : Int} (hcertified : Certified pg l)
    (hvalid : isValidCheckpoint c = true) (hsequence : c.sequence = l.logs.length)
    (hhead : (links pg).head none l.logs = some c.headHash) (hresolved : unresolvedIntents pg now l.logs = []) :
    (verifyIntegrity pg (some (.finalized c)) l now).valid = true := by
  have hparsed : parseCheckpoint (some (.finalized c)) = c := if_pos hvalid
  simp only [isValidCheckpoint, Bool.and_eq_true, decide_eq_true_eq] at hvalid
  have hnonempty : c.headHash ≠ "" := by
    intro hempty
    rw [hempty] at hvalid
    exact absurd hvalid.2 (by decide +kernel)
  obtain ⟨hchecked, hhash, hiff⟩ := verifyAuditLedger_of_chained now c.sequence (some c.headHash)
    hcertified.chained hcertified.anchored
  have hpositive : l.logs.length ≠ 0 := by omega
  simp only [verifyIntegrity, hparsed, if_neg hnonempty, Bool.and_eq_true, decide_eq_true_eq]
  refine ⟨hiff.mpr ⟨hcertified, ⟨hsequence, hhead.symm⟩, hresolved⟩, ?_⟩
  rw [hchecked, hhash, hhead, if_neg hpositive, ← hsequence]
  rfl

/-! ## What is certified is determined -/

theorem Certified.anchors_eq (h : Certified pg l) : l.anchors = l.logs.map (·.anchor) := by
  have hmem : l.logs.map (·.anchor) ⊆ l.anchors := by
    intro a ha
    obtain ⟨row, hrow, rfl⟩ := List.mem_map.mp ha
    obtain ⟨anchor, hanchor, hhash⟩ := Option.map_eq_some_iff.mp (h.anchored row hrow)
    unfold AuditLedger.anchorAt at hanchor
    have hsequence : anchor.ledgerSequence = row.ledgerSequence := by simpa using List.find?_some hanchor
    have heq : anchor = row.anchor := by
      cases anchor
      exact congrArg₂ AuditLedgerAnchor.mk hsequence hhash
    rw [← heq]
    exact List.mem_of_find?_eq_some hanchor
  have hsorted : (l.logs.map (·.anchor)).Pairwise (·.ledgerSequence < ·.ledgerSequence) :=
    List.pairwise_map.mpr (List.pairwise_map.mp l.logsUnique)
  have hsorted' : l.anchors.Pairwise (·.ledgerSequence < ·.ledgerSequence) := List.pairwise_map.mp l.anchorsUnique
  have hnodup : (l.logs.map (·.anchor)).Nodup := hsorted.imp fun hlt heq => Int.ne_of_lt hlt (congrArg _ heq)
  have hperm : l.anchors.Perm (l.logs.map (·.anchor)) :=
    ((hnodup.subperm hmem).perm_of_length_le (Nat.le_of_eq (h.count.trans (List.length_map _).symm))).symm
  exact hperm.eq_of_pairwise (fun a b _ _ hab hba => absurd hab (Int.lt_asymm hba)) hsorted' hsorted

theorem row_eq_of_hash {rows rows' : List AuditLogRow} {p p' : Option String} (hchained : (links pg).Chained p rows)
    (hchained' : (links pg).Chained p' rows') (hcollision : NoCollision pg (rows ++ rows')) {r r' : AuditLogRow}
    (hr : r ∈ rows) (hr' : r' ∈ rows') (h : r.entryHash = r'.entryHash) : r = r' := by
  have hsealed : r.entryHash = pg.sha256 r.payload := Links.hash_of_mem hchained hr
  have hsealed' : r'.entryHash = pg.sha256 r'.payload := Links.hash_of_mem hchained' hr'
  have hpayload := hcollision r (List.mem_append_left _ hr) r' (List.mem_append_right _ hr')
    (hsealed.symm.trans (h.trans hsealed'))
  obtain ⟨hsequence, hentry, hprevious⟩ := payload_inj hpayload
  cases r
  cases r'
  simp only [AuditLogRow.mk.injEq]
  exact ⟨hsequence, hentry, hprevious, h⟩

theorem eq_of_certified {m : AuditLedger} (hl : Certified pg l) (hm : Certified pg m)
    (hlength : l.logs.length = m.logs.length) (hhead : (links pg).head none l.logs = (links pg).head none m.logs)
    (hcollision : NoCollision pg (l.logs ++ m.logs)) : l = m := by
  have hlogs : l.logs = m.logs := Links.eq_of_head hl.chained hm.chained hlength hhead fun r hr r' hr' h =>
    row_eq_of_hash hl.chained hm.chained hcollision hr hr' h
  have hanchors : l.anchors = m.anchors := by rw [hl.anchors_eq, hm.anchors_eq, hlogs]
  cases l
  cases m
  simp only [AuditLedger.mk.injEq]
  exact ⟨hlogs, hanchors⟩

/-- One external checkpoint accepts one ledger, of the length that it says. -/
theorem ledger_determined (pg : Postgres) (external : Option CheckpointValue) (l m : AuditLedger) (now now' : Int)
    (hcollision : NoCollision pg (l.logs ++ m.logs)) (hl : (verifyIntegrity pg external l now).valid = true) :
    ((verifyIntegrity pg external m now').valid = true →
      l = m ∧ (l.logs.length : Int) = (parseCheckpoint external).sequence) ∧
    (l ≠ m → (verifyIntegrity pg external m now').valid = false) := by
  obtain ⟨hl, hlength, hhead⟩ := verifyIntegrity_valid hl
  have hsame (hm : (verifyIntegrity pg external m now').valid = true) : l = m := by
    obtain ⟨hm, hlength', hhead'⟩ := verifyIntegrity_valid hm
    have hlengths : l.logs.length = m.logs.length := by omega
    exact eq_of_certified hl hm hlengths (hhead.symm.trans hhead') hcollision
  refine ⟨fun hm => ⟨hsame hm, hlength.symm⟩, fun hne => ?_⟩
  exact Bool.eq_false_iff.mpr fun hm => hne (hsame hm)

/-! ## A ledger of two entries -/

def tokenEntry (id action status : String) : AuditEntry where
  id := id
  organizationId := some "org_1"
  userId := none
  apiKeyId := some "key_1"
  action := action
  resourceType := "token"
  resourceId := none
  metadata := none
  ipAddress := none
  userAgent := none
  requestId := none
  status := status
  createdAt := "2026-01-01 00:00:00"

def createdHash : String := "fcfee6f7c109b81681507f981a44b07df7a566f2a7c479ad6facabd38402d03c"

def deletedHash : String := "c3ebca55b69963ed19950a16df92349b8af52f135040458bfefbc03598ace6fe"

def failedHash : String := "c044e0b6918e524119c45ca8806d0f37c61b15117f7aab599548c021166defa1"

/-- SHA-256 where the two entries, and the second with another status, need it. -/
def recordedHashes : List (String × String) :=
  [(payload 1 (tokenEntry "aud_1" "create" "success") none, createdHash),
    (payload 2 (tokenEntry "aud_2" "delete" "success") (some createdHash), deletedHash),
    (payload 2 (tokenEntry "aud_2" "delete" "failure") (some createdHash), failedHash)]

def zeroHash : String := String.ofList (List.replicate 64 '0')

def recordedPostgres : Postgres where
  sha256 text := ((recordedHashes.find? (·.1 = text)).map (·.2)).getD zeroHash
  sha256_isHash text := by
    have hall : ∀ recorded ∈ recordedHashes, isHash recorded.2 = true := by decide +kernel
    cases h : recordedHashes.find? (·.1 = text) with
    | none => exact (by decide +kernel : isHash zeroHash = true)
    | some recorded => exact hall recorded (List.mem_of_find?_eq_some h)
  jsonb _ := none
  timestamptz _ := 0

def twoEntries (status : String) : AuditLedger where
  logs := [⟨1, tokenEntry "aud_1" "create" "success", none, createdHash⟩,
    ⟨2, tokenEntry "aud_2" "delete" status, some createdHash, deletedHash⟩]
  anchors := [⟨1, createdHash⟩, ⟨2, deletedHash⟩]
  logsUnique := by simp
  anchorsUnique := by decide

theorem payload_eq_iff {s s' : Int} {e e' : AuditEntry} {p p' : Option String} :
    payload s e p = payload s' e' p' ↔ s = s' ∧ e = e' ∧ p = p' :=
  ⟨payload_inj, by rintro ⟨rfl, rfl, rfl⟩; rfl⟩

theorem sha256_created :
    recordedPostgres.sha256 (payload 1 (tokenEntry "aud_1" "create" "success") none) = createdHash := by
  simp [recordedPostgres, recordedHashes]

theorem sha256_deleted :
    recordedPostgres.sha256 (payload 2 (tokenEntry "aud_2" "delete" "success") (some createdHash)) = deletedHash := by
  simp [recordedPostgres, recordedHashes, payload_eq_iff]

theorem sha256_failed :
    recordedPostgres.sha256 (payload 2 (tokenEntry "aud_2" "delete" "failure") (some createdHash)) = failedHash := by
  simp [recordedPostgres, recordedHashes, payload_eq_iff, tokenEntry]

theorem twoEntries_certified : Certified recordedPostgres (twoEntries "success") where
  chained := by simp [twoEntries, Links.Chained, links, auditLogHash, sha256_created, sha256_deleted]
  anchored := by simp [twoEntries, AuditLedger.anchorAt]
  count := rfl
  last := rfl
  head := rfl

theorem twoEntries_valid :
    (verifyIntegrity recordedPostgres (some (.finalized ⟨2, deletedHash⟩)) (twoEntries "success") 0).valid = true := by
  have hhash : isHash deletedHash = true := by decide +kernel
  have hresolved : unresolvedIntents recordedPostgres 0 (twoEntries "success").logs = [] := by
    simp [unresolvedIntents, twoEntries, AuditLogRow.metadata, tokenEntry]
  exact verifyIntegrity_of_certified twoEntries_certified
    (by simp [isValidCheckpoint, isSafeInteger, hhash]) rfl rfl hresolved

theorem twoEntries_noCollision :
    NoCollision recordedPostgres ((twoEntries "success").logs ++ (twoEntries "failure").logs) := by
  have hdeleted : createdHash ≠ deletedHash := by simp [createdHash, deletedHash]
  have hfailed : createdHash ≠ failedHash := by simp [createdHash, failedHash]
  have hboth : deletedHash ≠ failedHash := by simp [deletedHash, failedHash]
  simp [NoCollision, twoEntries, AuditLogRow.payload, sha256_created, sha256_deleted, sha256_failed, hdeleted, hfailed,
    hboth, hdeleted.symm, hfailed.symm, hboth.symm]

theorem changed_status_is_reported :
    (verifyIntegrity recordedPostgres (some (.finalized ⟨2, deletedHash⟩)) (twoEntries "success") 0).valid = true ∧
    (verifyIntegrity recordedPostgres (some (.finalized ⟨2, deletedHash⟩)) (twoEntries "failure") 0).valid = false := by
  have hne : twoEntries "success" ≠ twoEntries "failure" := by
    simp [twoEntries, tokenEntry]
  exact ⟨twoEntries_valid, (ledger_determined _ _ _ _ 0 0 twoEntries_noCollision twoEntries_valid).2 hne⟩

end Sdp.Audit
