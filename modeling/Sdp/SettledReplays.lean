import Sdp.Code.SettledReplays

/-!
# Replays of settled operations

Whatever part of the evidence survives, a replay answers with the settled transaction and the bookkeeping is
done once, as long as the handler gets to the lookup of the key: a mint, a burn, a force burn, a freeze and
an unfreeze are first checked against the token as it is at the replay.
-/

open Sdp.Lib
open Sdp.Issuance (TransactionStatus RowWrite)

namespace Sdp.Replays

variable {op : Operation} {receipt : Receipt op} {w w' : World op} {row : Row} {storage : Storage}

/-! ## Evidence -/

/-- The row holds the evidence. -/
structure Row.Holds (receipt : Receipt op) (row : Row) : Prop where
  signature : row.signature = some receipt.signature
  slot : row.slot = some receipt.slot
  tokenAccount : op = .mint → row.tokenAccount = receipt.tokenAccount

theorem parseEvidence_of_holds (h : row.Holds receipt) :
    parseEvidence op row.signature row.slot row.tokenAccount = some receipt := by
  obtain ⟨signature, slot, tokenAccount, hsignature, hslot, hmint⟩ := receipt
  unfold parseEvidence
  rw [h.signature, h.slot]
  simp only [dif_pos (And.intro hsignature hslot)]
  by_cases hop : op = .mint
  · have haccount : row.tokenAccount = tokenAccount := h.tokenAccount hop
    rw [if_pos hop] at hmint
    subst haccount
    rw [dif_pos hop, dif_pos hmint]
  · rw [if_neg hop] at hmint
    simp [hop, hmint]

theorem holds_journal (receipt : Receipt op) (row : Row) : (row.journal receipt).Holds receipt := by
  refine ⟨rfl, rfl, fun hop => ?_⟩
  have hmint := receipt.tokenAccount_mint
  rw [if_pos hop] at hmint
  cases haccount : receipt.tokenAccount with
  | none => simp [haccount] at hmint
  | some account => simp [Row.journal, haccount]

theorem holds_settle (receipt : Receipt op) (row : Row) : (row.settle receipt).Holds receipt :=
  ⟨rfl, rfl, (holds_journal receipt row).tokenAccount⟩

theorem journal_settle (receipt : Receipt op) (row : Row) : (row.settle receipt).journal receipt = row.settle receipt := by
  cases h : receipt.tokenAccount <;> simp [Row.settle, Row.journal, h]

theorem persist_cases (row : Row) (receipt : Receipt op) (storage : Storage) :
    (persistSettledTransactionWithDurability row receipt storage).1 = row ∨
      (persistSettledTransactionWithDurability row receipt storage).1 = row.journal receipt ∨
      (persistSettledTransactionWithDurability row receipt storage).1 = row.settle receipt := by
  unfold persistSettledTransactionWithDurability
  cases storage.settle with
  | done => exact .inr (.inr rfl)
  | rowOnly =>
    refine .inr (.inr ?_)
    simp only [journal_settle, ite_self]
  | lost =>
    simp only
    split
    · exact .inr (.inl rfl)
    · exact .inl rfl

theorem holds_of_durable (h : (persistSettledTransactionWithDurability row receipt storage).2 = true) :
    (persistSettledTransactionWithDurability row receipt storage).1.Holds receipt := by
  unfold persistSettledTransactionWithDurability at h ⊢
  cases hsettle : storage.settle with
  | done => exact holds_settle receipt row
  | rowOnly =>
    simp only [journal_settle, ite_self]
    exact holds_settle receipt row
  | lost =>
    simp only [hsettle, decide_eq_true_eq] at h
    simp only [h, RowWrite.changesRow, if_true]
    exact holds_journal receipt row

/-! ## The invariant -/

/-- The operations whose bookkeeping asks for a confirmed row. -/
def Operation.isLifecycle : Operation → Bool
  | .freeze | .unfreeze | .pause | .unpause => true
  | .mint | .burn | .forceBurn => false

/-- What the attempts leave behind, once there is evidence. -/
structure Invariant (receipt : Receipt op) (w : World op) : Prop where
  status : w.transaction.status = .pending ∨ w.transaction.status = .confirmed ∧ w.transaction.Holds receipt
  row : w.transaction.signature = none ∨ w.transaction.Holds receipt
  outcome : w.outcome = none ∨ w.outcome = some receipt
  stored : w.transaction.Holds receipt ∨ w.outcome = some receipt
  applied : w.applied = if op = .mint ∨ w.transaction.bookkeepingApplied = true then 1 else 0
  lifecycle : op.isLifecycle = true → w.transaction.bookkeepingApplied = true → w.transaction.status = .confirmed
  account : op = .unfreeze ∨ op = .freeze ∧ w.transaction.bookkeepingApplied = true → w.account.row = true

theorem invariant_persist (hs : Invariant receipt w) (storage : Storage) :
    Invariant receipt
      { w with transaction := (persistSettledTransactionWithDurability w.transaction receipt storage).1 } := by
  rcases persist_cases w.transaction receipt storage with h | h | h <;> rw [h]
  · exact hs
  · have hholds := holds_journal receipt w.transaction
    exact ⟨hs.status.imp_right fun hstatus => ⟨hstatus.1, hholds⟩, .inr hholds, hs.outcome, .inl hholds, hs.applied,
      hs.lifecycle, hs.account⟩
  · have hholds := holds_settle receipt w.transaction
    exact ⟨.inr ⟨rfl, hholds⟩, .inr hholds, hs.outcome, .inl hholds, hs.applied, fun _ _ => rfl, hs.account⟩

theorem evidence_found (hs : Invariant receipt w) :
    (parseEvidence op w.transaction.signature w.transaction.slot w.transaction.tokenAccount).or w.outcome =
      some receipt := by
  by_cases hholds : w.transaction.Holds receipt
  · rw [parseEvidence_of_holds hholds]
    rfl
  · have hnone : w.transaction.signature = none := hs.row.resolve_right hholds
    simp [parseEvidence, hnone, hs.stored.resolve_left hholds]

/-- A replay answers with the receipt of its transaction. -/
theorem recover_spec (hs : Invariant receipt w) (storage : Storage) :
    (recoverSettledTransactionReplay w storage).1 = confirmedWith receipt ∧
      Invariant receipt (w.withRow (recoverSettledTransactionReplay w storage).2) := by
  unfold recoverSettledTransactionReplay
  rcases hs.status with hpending | ⟨hconfirmed, hholds⟩
  · simp only [hpending, ne_eq, not_true_eq_false, if_false, evidence_found hs]
    exact ⟨trivial, invariant_persist hs storage⟩
  · simp only [hconfirmed, ne_eq, reduceCtorEq, not_false_eq_true, if_true]
    exact ⟨by rw [Row.response, hconfirmed, hholds.signature, hholds.slot, confirmedWith], hs⟩

/-- A replay settles the row when the storage works. -/
theorem recover_settles (hs : Invariant receipt w) :
    (recoverSettledTransactionReplay w .works).2.status = .confirmed := by
  unfold recoverSettledTransactionReplay
  rcases hs.status with hpending | ⟨hconfirmed, -⟩
  · simp only [hpending, ne_eq, not_true_eq_false, if_false, evidence_found hs]
    rfl
  · simp only [hconfirmed, ne_eq, reduceCtorEq, not_false_eq_true, if_true]

/-! ## Bookkeeping -/

theorem promote_of_holds (hstatus : row.status = .confirmed) (h : row.Holds receipt) : promote row = some row := by
  simp [promote, hstatus, h.slot]

theorem holds_of_promote (hs : Invariant receipt w) (h : promote w.transaction = some row) :
    row = { w.transaction with status := .confirmed } ∧ w.transaction.Holds receipt := by
  unfold promote at h
  rcases hs.status with hpending | ⟨hconfirmed, hholds⟩
  · simp only [hpending] at h
    split at h
    · next hevidence =>
      cases h
      refine ⟨rfl, hs.row.resolve_left fun hnone => ?_⟩
      simp [hnone] at hevidence
    · cases h
  · simp only [hconfirmed] at h
    split at h <;> cases h
    exact ⟨by rw [← hconfirmed], hholds⟩

theorem invariant_promote (hs : Invariant receipt w) (h : promote w.transaction = some row) :
    Invariant receipt { w with transaction := row } ∧ row.status = .confirmed ∧
      row.bookkeepingApplied = w.transaction.bookkeepingApplied := by
  obtain ⟨rfl, hholds⟩ := holds_of_promote hs h
  have hholds' : Row.Holds receipt { w.transaction with status := .confirmed } :=
    ⟨hholds.signature, hholds.slot, hholds.tokenAccount⟩
  exact ⟨⟨.inr ⟨rfl, hholds'⟩, .inr hholds', hs.outcome, .inl hholds', hs.applied, fun _ _ => rfl, hs.account⟩, rfl, rfl⟩

theorem invariant_mark (hs : Invariant receipt w) (hunmarked : w.transaction.bookkeepingApplied = false)
    (hop : op ≠ .mint) (hlifecycle : op.isLifecycle = true → w.transaction.status = .confirmed)
    (haccount : op = .unfreeze ∨ op = .freeze → w.account.row = true) :
    Invariant receipt (w.mark w.transaction) ∧ (w.mark w.transaction).applied = 1 := by
  have happlied : w.applied = 0 := by simpa [hop, hunmarked] using hs.applied
  have hkeeps {row : Row} (h : row.Holds receipt) : Row.Holds receipt { row with bookkeepingApplied := true } :=
    ⟨h.signature, h.slot, h.tokenAccount⟩
  refine ⟨⟨hs.status.imp_right fun h => ⟨h.1, hkeeps h.2⟩, hs.row.imp_right hkeeps, hs.outcome,
    hs.stored.imp_left hkeeps, ?_, fun h _ => hlifecycle h, fun h => haccount (h.imp_right And.left)⟩, ?_⟩
  · simp [World.mark, happlied]
  · simp [World.mark, happlied]

theorem applied_of_marked (hs : Invariant receipt w) (h : w.transaction.bookkeepingApplied = true) : w.applied = 1 := by
  simpa [h] using hs.applied

theorem invariant_burnSupply (hs : Invariant receipt w) (hop : op = .burn ∨ op = .forceBurn)
    (h : w.applySettledBurnSupply = some w') : Invariant receipt w' ∧ w'.applied = 1 ∧ w'.submitted = w.submitted := by
  unfold World.applySettledBurnSupply at h
  split at h
  · next hmarked =>
    cases h
    exact ⟨hs, applied_of_marked hs hmarked, rfl⟩
  · next hunmarked =>
    cases h
    have hmark := invariant_mark hs (by simpa using hunmarked) (by rcases hop with rfl | rfl <;> nofun)
      (by rcases hop with rfl | rfl <;> nofun) (by rcases hop with rfl | rfl <;> simp)
    exact ⟨hmark.1, hmark.2, rfl⟩

theorem invariant_tokenStatus (hs : Invariant receipt w) (hop : op = .pause ∨ op = .unpause)
    (h : w.applySettledTokenStatus = some w') : Invariant receipt w' ∧ w'.applied = 1 ∧ w'.submitted = w.submitted := by
  unfold World.applySettledTokenStatus at h
  split at h
  · next hmarked =>
    split at h <;> cases h
    exact ⟨hs, applied_of_marked hs hmarked, rfl⟩
  · next hunmarked =>
    obtain ⟨row, hrow, rfl⟩ := Option.map_eq_some_iff.mp h
    obtain ⟨hpromoted, hconfirmed, hmarker⟩ := invariant_promote hs hrow
    have hmark := invariant_mark hpromoted (by rw [hmarker]; simpa using hunmarked)
      (by rcases hop with rfl | rfl <;> nofun) (fun _ => hconfirmed) (by rcases hop with rfl | rfl <;> simp)
    exact ⟨hmark.1, hmark.2, rfl⟩

theorem invariant_account (account : Account) (hs : Invariant receipt w) (h : w.account.row = true → account.row = true) :
    Invariant receipt { w with account } :=
  ⟨hs.status, hs.row, hs.outcome, hs.stored, hs.applied, hs.lifecycle, fun hop => h (hs.account hop)⟩

theorem invariant_freezeState (hs : Invariant receipt w) {frozen : Bool} (hop : op = .freeze ∨ op = .unfreeze)
    (h : w.applySettledAccountFreezeState frozen = some w') :
    Invariant receipt w' ∧ w'.applied = 1 ∧ w'.submitted = w.submitted := by
  unfold World.applySettledAccountFreezeState at h
  split at h
  · next hmarked =>
    split at h <;> cases h
    exact ⟨hs, applied_of_marked hs hmarked, rfl⟩
  · next hunmarked =>
    split at h
    · cases h
    · next row hrow =>
      obtain ⟨hpromoted, hconfirmed, hmarker⟩ := invariant_promote hs hrow
      have hunmarked' : row.bookkeepingApplied = false := by rw [hmarker]; simpa using hunmarked
      have hmint : op ≠ .mint := by rcases hop with rfl | rfl <;> nofun
      split at h
      · cases h
        have hrow := invariant_account { w.account with row := true } hpromoted fun _ => rfl
        have hmark := invariant_mark hrow hunmarked' hmint (fun _ => hconfirmed) fun _ => rfl
        exact ⟨hmark.1, hmark.2, rfl⟩
      · split at h
        · next hexisting =>
          cases h
          have hmark := invariant_mark hpromoted hunmarked' hmint (fun _ => hconfirmed) fun _ => hexisting
          exact ⟨hmark.1, hmark.2, rfl⟩
        · cases h

theorem invariant_bookkeep (hs : Invariant receipt w) (h : w.bookkeep storage = some w') :
    Invariant receipt w' ∧ w'.applied = 1 ∧ w'.submitted = w.submitted := by
  unfold World.bookkeep at h
  split at h
  · next hop =>
    cases h
    exact ⟨hs, by simpa [hop] using hs.applied, rfl⟩
  · next hop =>
    split at h
    · cases op with
      | mint => exact absurd rfl hop
      | burn => exact invariant_burnSupply hs (.inl rfl) h
      | forceBurn => exact invariant_burnSupply hs (.inr rfl) h
      | freeze => exact invariant_freezeState hs (.inl rfl) h
      | unfreeze => exact invariant_freezeState hs (.inr rfl) h
      | pause => exact invariant_tokenStatus hs (.inl rfl) h
      | unpause => exact invariant_tokenStatus hs (.inr rfl) h
    · cases h

/-- A newer change of the account is confirmed, and the account has no row yet. -/
def World.superseded (w : World op) : Prop := op = .freeze ∧ w.account.newer = true ∧ w.account.row = false

theorem bookkeep_isSome (hs : Invariant receipt w) (hconfirmed : w.transaction.status = .confirmed) :
    (w.bookkeep .works).isSome = true ↔ ¬ w.superseded := by
  have hholds : w.transaction.Holds receipt :=
    hs.status.elim (fun h => by simp [h] at hconfirmed) And.right
  have hpromote := promote_of_holds hconfirmed hholds
  unfold World.bookkeep World.superseded
  cases op with
  | mint => simp
  | burn | forceBurn =>
    cases hmarked : w.transaction.bookkeepingApplied <;> simp [Storage.works, World.applySettledBurnSupply, hmarked]
  | pause | unpause =>
    cases hmarked : w.transaction.bookkeepingApplied <;>
      simp [Storage.works, World.applySettledTokenStatus, hconfirmed, hpromote, hmarked]
  | freeze =>
    simp only [Storage.works, World.applySettledAccountFreezeState, hconfirmed, hpromote]
    cases hmarked : w.transaction.bookkeepingApplied with
    | true => simp [hs.account (.inr ⟨rfl, hmarked⟩)]
    | false => cases hnewer : w.account.newer <;> cases hrow : w.account.row <;> simp
  | unfreeze =>
    have hrow := hs.account (.inl rfl)
    cases hmarked : w.transaction.bookkeepingApplied <;>
      simp [Storage.works, World.applySettledAccountFreezeState, hconfirmed, hpromote, hrow, hmarked]

/-! ## Admission -/

/-- The destination of a mint may receive it, and is on the list on chain if there is one. -/
def MintsTo (token : Token) (reads : Reads) : Prop :=
  if mutatesOnChainAllowlist token then reads.revoked = false ∧ reads.onChainList = true
  else if token.requiresAllowlist then reads.onControlList = true
  else token.supportsBlocklist = true → reads.onControlList = false

/-- What the handler asks of the token, the request and the world before it looks the key up. -/
def Operation.Admits (op : Operation) (token : Token) (amount : Nat) (reads : Reads) : Prop :=
  token.deployed = true ∧ reads.signer = true ∧
    match op with
    | .mint => token.status = .active ∧ token.isMintable = true ∧ (∀ cap, token.maxSupply = some cap →
        token.totalSupply + amount ≤ cap) ∧ reads.policy = true ∧ MintsTo token reads
    | .burn => token.status = .active
    | .forceBurn => token.status = .active ∧ reads.authority = true
    | .freeze => token.isFreezable = true ∧ reads.authority = true ∧ reads.target = true
    | .unfreeze => reads.authority = true ∧ reads.target = true
    | .pause | .unpause => reads.authority = true

theorem bind_ok_iff {x y : Except ErrorCode Unit} : (x >>= fun _ => y) = .ok () ↔ x = .ok () ∧ y = .ok () := by
  cases x with
  | error code => exact ⟨nofun, nofun⟩
  | ok u => exact ⟨fun h => ⟨rfl, h⟩, And.right⟩

theorem check_ok {ok : Bool} {code : ErrorCode} : check ok code = .ok () ↔ ok = true := by
  cases ok <;> simp [check]

theorem require_ok {ok : Bool} : require ok = .ok () ↔ ok = true := check_ok

theorem allowsOperation_ok {token : Token} : assertTokenAllowsOperation token = .ok () ↔ token.status = .active := by
  unfold assertTokenAllowsOperation
  cases token.status <;> simp

theorem isDeployed_ok {token : Token} : assertTokenIsDeployed token = .ok () ↔ token.deployed = true := check_ok

theorem resolveMint_ok {token : Token} {amount : Nat} : resolveMintOperationAmount token amount = .ok () ↔
    token.status = .active ∧ token.deployed = true ∧ token.isMintable = true ∧
      ∀ cap, token.maxSupply = some cap → token.totalSupply + amount ≤ cap := by
  unfold resolveMintOperationAmount
  simp only [bind_ok_iff, allowsOperation_ok, isDeployed_ok, check_ok]
  cases token.maxSupply <;> simp

theorem controlList_ok {token : Token} {reads : Reads} (h : mutatesOnChainAllowlist token = false) :
    assertControlList token reads = .ok () ↔ MintsTo token reads := by
  unfold assertControlList MintsTo
  simp only [h, Bool.false_eq_true, if_false]
  unfold assertDestinationAllowedByControlList
  split
  · exact check_ok
  · rw [check_ok]
    cases token.supportsBlocklist <;> simp

theorem syncDestination_eq {reads : Reads} :
    syncDestinationToOnChainAllowlist reads = (false, .ok ()) ↔ reads.revoked = false ∧ reads.onChainList = true := by
  unfold syncDestinationToOnChainAllowlist
  cases reads.revoked <;> cases reads.onChainList <;> simp

theorem admitMint_iff {token : Token} {amount : Nat} {reads : Reads} :
    admitMint token amount reads = (false, .ok ()) ↔ Operation.Admits .mint token amount reads := by
  have hextract : extractMintPolicyCandidate token amount reads = .ok () ↔
      (token.status = .active ∧ token.deployed = true ∧ token.isMintable = true ∧
        ∀ cap, token.maxSupply = some cap → token.totalSupply + amount ≤ cap) ∧
      assertControlList token reads = .ok () ∧ reads.signer = true ∧ reads.policy = true := by
    unfold extractMintPolicyCandidate
    simp only [bind_ok_iff, resolveMint_ok, require_ok]
  have hlist : (assertControlList token reads = .ok () ∧ if mutatesOnChainAllowlist token then
      syncDestinationToOnChainAllowlist reads = (false, .ok ()) else True) ↔ MintsTo token reads := by
    cases hmutates : mutatesOnChainAllowlist token with
    | false => simp [controlList_ok hmutates]
    | true => simp [assertControlList, MintsTo, hmutates, syncDestination_eq]
  unfold admitMint Operation.Admits
  rw [← hlist]
  cases hex : extractMintPolicyCandidate token amount reads with
  | error code =>
    simp only [hex, reduceCtorEq, false_iff] at hextract
    simp only [Prod.mk.injEq, reduceCtorEq, and_false, false_iff]
    rintro ⟨hdeployed, hsigner, hactive, hmintable, hcap, hpolicy, hcontrol, -⟩
    exact hextract ⟨⟨hactive, hdeployed, hmintable, hcap⟩, hcontrol, hsigner, hpolicy⟩
  | ok u =>
    obtain ⟨⟨hactive, hdeployed, hmintable, hcap⟩, hcontrol, hsigner, hpolicy⟩ := hextract.mp hex
    simp only [hactive, hdeployed, hmintable, hcontrol, hsigner, hpolicy, true_and]
    cases mutatesOnChainAllowlist token
    · simpa using hcap
    · simpa using fun _ => hcap

theorem admit_iff {op : Operation} {token : Token} {amount : Nat} {reads : Reads} :
    op.admit token amount reads = (false, .ok ()) ↔ op.Admits token amount reads := by
  cases op with
  | mint => exact admitMint_iff
  | burn =>
    simp only [ Operation.admit, admitBurn, Prod.mk.injEq, true_and, bind_ok_iff, allowsOperation_ok, isDeployed_ok,
      require_ok, Operation.Admits]
    tauto
  | forceBurn =>
    simp only [ Operation.admit, admitForceBurn, Prod.mk.injEq, true_and, bind_ok_iff, allowsOperation_ok, isDeployed_ok,
      require_ok, Operation.Admits]
    tauto
  | freeze =>
    simp only [ Operation.admit, admitFreeze, Prod.mk.injEq, true_and, bind_ok_iff, isDeployed_ok, require_ok,
      Operation.Admits]
    tauto
  | unfreeze =>
    simp only [ Operation.admit, admitUnfreeze, Prod.mk.injEq, true_and, bind_ok_iff, isDeployed_ok, require_ok,
      Operation.Admits]
    tauto
  | pause | unpause =>
    simp only [ Operation.admit, admitPause, Prod.mk.injEq, true_and, bind_ok_iff, isDeployed_ok, require_ok,
      Operation.Admits]
    tauto

/-! ## Attempts -/

theorem isConfirmed_confirmedWith (receipt : Receipt op) : (confirmedWith receipt).isConfirmed = true := rfl

theorem invariant_sent (hs : Invariant receipt w) (sent : Bool) : Invariant receipt (w.sent sent) :=
  ⟨hs.status, hs.row, hs.outcome, hs.stored, hs.applied, hs.lifecycle, hs.account⟩

theorem answerReplay_eq (hs : Invariant receipt w) (storage : Storage) : ∃ row, Invariant receipt (w.withRow row) ∧
    row = (recoverSettledTransactionReplay w storage).2 ∧
    answerReplay w storage = match (w.withRow row).bookkeep storage with
      | some w' => (confirmedWith receipt, w')
      | none => (.error, w.withRow row) := by
  obtain ⟨hresponse, hrecovered⟩ := recover_spec hs storage
  refine ⟨_, hrecovered, rfl, ?_⟩
  unfold answerReplay
  split
  · next response row hrecover =>
    simp only [hrecover] at hresponse hrecovered ⊢
    rw [hresponse]
    exact if_pos (isConfirmed_confirmedWith receipt)

/-- A replay keeps what is left, however the storage behaves. -/
theorem invariant_replay (hs : Invariant receipt w) (amount : Nat) (reads : Reads) (storage : Storage) :
    Invariant receipt (replay w amount reads storage).2 := by
  unfold replay
  split
  · exact invariant_sent hs _
  · next sent hadmitted =>
    have hsent := invariant_sent hs sent
    split
    · obtain ⟨row, hrow, -, heq⟩ := answerReplay_eq hsent storage
      rw [heq]
      split
      · next w' hbook => exact (invariant_bookkeep hrow hbook).1
      · exact hrow
    · exact hsent

theorem invariant_step {amount : Nat} {l : Step} (hs : Invariant receipt w) (h : w.step amount l = some w') :
    Invariant receipt w' := by
  cases l with
  | replay reads storage =>
    cases h
    exact invariant_replay hs amount reads storage
  | change token account =>
    simp only [World.step] at h
    split at h
    · cases h
    · next hrow =>
      cases h
      have hmono : w.account.row = true → account.row = true := fun h => by simpa [h] using hrow
      have haccount := invariant_account _ hs hmono
      exact ⟨haccount.status, haccount.row, haccount.outcome, haccount.stored, haccount.applied, haccount.lifecycle,
        haccount.account⟩

/-- A signature and a slot in the row, or a successful outcome in the audit log. -/
def World.Evidence (receipt : Receipt op) (w : World op) : Prop :=
  w.transaction.signature = some receipt.signature ∧ w.transaction.slot = some receipt.slot ∨ w.outcome = some receipt

theorem invariant_persisted {amount : Nat} {token : Token} {account : Account}
    (h : ((landed op amount token account).persisted receipt storage).Evidence receipt) :
    Invariant receipt ((landed op amount token account).persisted receipt storage) := by
  have houtcome : (if storage.outcome then some receipt else none) = none ∨
      (if storage.outcome then some receipt else none) = some receipt := by
    cases storage.outcome <;> simp
  have haccount : op = .unfreeze → (landed op amount token account).account.row = true := by
    rintro rfl
    rfl
  have happlied : (landed op amount token account).applied = if op = .mint ∨ false = true then 1 else 0 := by
    simp [landed]
  unfold World.Evidence World.persisted at h
  unfold World.persisted
  rcases persist_cases (landed op amount token account).transaction receipt storage with hrow | hrow | hrow <;>
    rw [hrow] at h ⊢
  · refine ⟨.inl rfl, .inl rfl, houtcome, .inr (h.resolve_left nofun), happlied, nofun, fun hop => ?_⟩
    exact hop.elim haccount (fun h => absurd h.2 nofun)
  · have hholds := holds_journal receipt (landed op amount token account).transaction
    refine ⟨.inl rfl, .inr hholds, houtcome, .inl hholds, happlied, nofun, fun hop => ?_⟩
    exact hop.elim haccount (fun h => absurd h.2 nofun)
  · have hholds := holds_settle receipt (landed op amount token account).transaction
    refine ⟨.inr ⟨rfl, hholds⟩, .inr hholds, houtcome, .inl hholds, happlied, nofun, fun hop => ?_⟩
    exact hop.elim haccount (fun h => absurd h.2 nofun)

theorem evidence_of_holds (h : w.transaction.Holds receipt) : w.Evidence receipt := .inl ⟨h.signature, h.slot⟩

theorem invariant_complete {amount : Nat} {token : Token} {account : Account}
    (h : (complete (landed op amount token account) receipt storage).1 = confirmedWith receipt ∨
      (complete (landed op amount token account) receipt storage).2.Evidence receipt) :
    Invariant receipt (complete (landed op amount token account) receipt storage).2 := by
  unfold complete at h ⊢
  split at h
  · next hdurable =>
    rw [if_pos hdurable]
    have hevidence : ((landed op amount token account).persisted receipt storage).Evidence receipt := by
      rcases Bool.or_eq_true_iff.mp hdurable with hdurable | houtcome
      · exact evidence_of_holds (holds_of_durable hdurable)
      · exact .inr (by simp [World.persisted, houtcome])
    have hs := invariant_persisted hevidence
    split
    · next w' hbook => exact (invariant_bookkeep hs hbook).1
    · exact hs
  · next hdurable =>
    rw [if_neg hdurable]
    exact invariant_persisted (h.resolve_left nofun)

theorem answerReplay_submitted (hs : Invariant receipt w) (storage : Storage) :
    (answerReplay w storage).2.submitted = w.submitted := by
  obtain ⟨row, hrow, -, heq⟩ := answerReplay_eq hs storage
  rw [heq]
  split
  · next w' hbook => exact (invariant_bookkeep hrow hbook).2.2
  · rfl

/-- The transaction is returned as confirmed with its receipt, the bookkeeping was applied once, and nothing is sent. -/
def Recovers (receipt : Receipt op) (w : World op) (answer : Response × World op) : Prop :=
  answer.1 = confirmedWith receipt ∧ answer.2.applied = 1 ∧ answer.2.submitted = w.submitted

theorem answerReplay_recovers (hs : Invariant receipt w) :
    Recovers receipt w (answerReplay w .works) ↔ ¬ w.superseded := by
  obtain ⟨row, hrow, rfl, heq⟩ := answerReplay_eq hs .works
  have hsome : ((w.withRow (recoverSettledTransactionReplay w .works).2).bookkeep .works).isSome = true ↔
      ¬ w.superseded := bookkeep_isSome hrow (recover_settles hs)
  rw [heq, ← hsome]
  cases hbook : (w.withRow (recoverSettledTransactionReplay w .works).2).bookkeep .works with
  | none => exact iff_of_false (fun h => nomatch h.1) (by simp)
  | some w' =>
    obtain ⟨-, happlied, hsubmitted⟩ := invariant_bookkeep hrow hbook
    exact iff_of_true ⟨rfl, happlied, hsubmitted⟩ rfl

/-- After an effect on chain, whatever of the writes that follow it gets lost, as long as the request was answered or
evidence was stored: after any number of replays on any storage and any changes of the token, a replay while the
storage works recovers if and only if the handler admits it and no newer change of its account has overtaken it. -/
theorem replay_recovers_iff {amount : Nat} {token : Token} {account : Account} {first : Storage}
    (hevidence : (complete (landed op amount token account) receipt first).1 = confirmedWith receipt ∨
      (complete (landed op amount token account) receipt first).2.Evidence receipt)
    (h : Reachable (World.step amount) (· = (complete (landed op amount token account) receipt first).2) anyStep w)
    (reads : Reads) :
    Recovers receipt w (replay w amount reads .works) ↔ op.Admits w.token amount reads ∧ ¬ w.superseded := by
  have hs : Invariant receipt w := by
    refine h.invariant (P := Invariant receipt) ?_ fun w l w' _ hs _ hw => invariant_step hs hw
    rintro _ rfl
    exact invariant_complete hevidence
  unfold replay
  rw [← admit_iff]
  split
  · next sent code hadmitted =>
    rw [hadmitted]
    exact iff_of_false (fun h => nomatch h.1) (fun h => by simp at h)
  · next sent hadmitted =>
    rw [hadmitted]
    cases sent with
    | false => simpa [World.sent, Storage.works] using answerReplay_recovers hs
    | true =>
      refine iff_of_false (fun h => ?_) (fun h => by simp at h)
      have hsent : w.submitted + 1 = w.submitted :=
        (answerReplay_submitted (invariant_sent hs true) .works).symm.trans h.2.2
      omega

/-- A capped token. -/
def capped : Token := ⟨.active, true, true, true, 0, some 100, false, false, false⟩

def allowed : Reads := ⟨true, true, true, true, true, false, true, true⟩

def minted : Receipt .mint := ⟨"signature", 7, some "account", by decide, by decide, by decide⟩

def burned : Receipt .burn := ⟨"signature", 7, none, by decide, by decide, rfl⟩

/-- The update and the narrower write are lost, and the bookkeeping fails. -/
def outage : Storage := ⟨true, .lost, .lost, true, false⟩

/-- A burn that is known from the audit log alone is recovered, and subtracted once. -/
theorem burn_recovered_from_audit :
    (complete (landed .burn 60 capped ⟨false, false⟩) burned outage).1 = .error ∧
      Recovers burned (complete (landed .burn 60 capped ⟨false, false⟩) burned outage).2
        (replay (complete (landed .burn 60 capped ⟨false, false⟩) burned outage).2 60 allowed .works) := by
  refine ⟨by decide, (replay_recovers_iff (.inr (.inr (by decide))) (.start rfl) allowed).mpr ⟨?_, nofun⟩⟩
  exact ⟨rfl, rfl, rfl⟩

/-- The replay of a mint of more than half the cap, right after its success, is refused for exceeding the cap, and the
replay of a burn is refused once the token is paused. -/
theorem settled_replays_are_refused :
    Operation.admit .mint capped 60 allowed = (false, .ok ()) ∧
      (complete (landed .mint 60 capped ⟨false, false⟩) minted .works).1 = confirmedWith minted ∧
      (replay (complete (landed .mint 60 capped ⟨false, false⟩) minted .works).2 60 allowed .works).1 = .error ∧
      Operation.admit .mint (landed .mint 60 capped ⟨false, false⟩).token 60 allowed =
        (false, .error .maxSupplyExceeded) ∧
      (complete (landed .burn 60 capped ⟨false, false⟩) burned .works).1 = confirmedWith burned ∧
      (run (World.step 60) (complete (landed .burn 60 capped ⟨false, false⟩) burned .works).2
        [.change { capped with status := .paused } ⟨false, false⟩]).map
          (fun w => (replay w 60 allowed .works).1) = some .error := by decide

end Sdp.Replays
