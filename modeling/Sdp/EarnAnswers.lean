import Sdp.EarnKeys

/-!
# Answers of the Earn ledger

What the end of a request says about the row that has its key, and which tables a request that gets no row has
changed.
-/

open Sdp.Lib

namespace Sdp.Earn

variable {s t : System} {n k : Nat}

/-! ## Programs -/

/-- A program has one holding, of its own organization. -/
structure Programs (s : System) : Prop where
  owner : ∀ id p wallet, s.positions.find? id = some p → p.holding = .program wallet →
    ∃ program, s.programs wallet = some program ∧ program.organizationId = p.organizationId
  unique : ∀ id id' p p' wallet, s.positions.find? id = some p → s.positions.find? id' = some p' →
    p.holding = .program wallet → p'.holding = .program wallet → id = id'

theorem findProgramPosition_some {wallet : Nat} {p : Position} (h : s.findProgramPosition wallet = some p) :
    s.positions.find? p.id = some p ∧ p.holding = .program wallet :=
  ⟨Table.mem_rows_iff.mp (List.mem_of_find?_eq_some h), by simpa using List.find?_some h⟩

theorem findProgramPosition_none {wallet : Nat} (h : s.findProgramPosition wallet = none) {id : Nat} {p : Position}
    (hp : s.positions.find? id = some p) : p.holding ≠ .program wallet := by
  have hall := List.find?_eq_none.mp h p (Table.find?_eq_some_iff.mp hp).1
  simpa using hall

theorem Programs.find (hs : Programs s) {id wallet : Nat} {p : Position} (hp : s.positions.find? id = some p)
    (hholding : p.holding = .program wallet) : s.findProgramPosition wallet = some p := by
  cases hfind : s.findProgramPosition wallet with
  | none => exact absurd hholding (findProgramPosition_none hfind hp)
  | some p' =>
    obtain ⟨hp', hholding'⟩ := findProgramPosition_some hfind
    obtain rfl := hs.unique _ _ p p' wallet hp hp' hholding hholding'
    exact hp'.symm.trans hp

theorem programs_of_move (h : Move s n t) : t.programs = s.programs := by cases h <;> rfl

theorem program_of_move (hs : Wf s) (h : Move s n t) {id wallet : Nat} {p : Position}
    (hp : t.positions.find? id = some p) (hholding : p.holding = .program wallet) :
    (∃ p₀, s.positions.find? id = some p₀ ∧ p₀.Same p) ∨
      id = n ∧ s.findProgramPosition wallet = none ∧ ∃ program, s.programs wallet = some program ∧
        p = program.position n wallet := by
  have hold : s.positions.find? id = some p → ∃ p₀, s.positions.find? id = some p₀ ∧ p₀.Same p :=
    fun hp => ⟨p, hp, rfl⟩
  cases h with
  | commit hstage =>
    have hp : ((s.calls n).position.elim s.positions s.positions.upsert).find? id = some p := hp
    cases hown : (s.calls n).position with
    | none => exact .inl (hold (by simpa [hown] using hp))
    | some p' =>
      rw [hown, Option.elim_some, Table.find?_upsert] at hp
      split at hp
      · next hid =>
        cases hp
        cases (hs.owns n).based p hown with
        | new _ _ hvault => exact absurd hholding (hvault wallet)
        | old p₀ hp₀ hsame => exact .inl ⟨p₀, by rw [hid, hp₀], hsame⟩
      · exact .inl (hold hp)
  | @mint input program hrequest hstage hnone hprogram =>
    have hp : (s.positions.upsert (program.position n input.providerWalletId)).find? id = some p := hp
    rw [Table.find?_upsert] at hp
    split at hp
    · next hid =>
      cases hp
      obtain rfl : input.providerWalletId = wallet := by simpa [Program.position] using hholding
      exact .inr ⟨hid, hnone, program, hprogram, rfl⟩
    · exact .inl (hold hp)
  | _ => exact .inl (hold hp)

theorem keeps_programs (hs : Wf s) (hp : Programs s) (h : Move s n t) : Programs t where
  owner id p wallet hfind hholding := by
    rw [programs_of_move h]
    rcases program_of_move hs h hfind hholding with ⟨p₀, hp₀, hsame⟩ | ⟨-, -, program, hprogram, rfl⟩
    · obtain ⟨hcolumn, horganization⟩ := hsame.columns
      obtain ⟨program, hprogram, howner⟩ := hp.owner id p₀ wallet hp₀ (hcolumn ▸ hholding)
      exact ⟨program, hprogram, howner.trans horganization.symm⟩
    · exact ⟨program, hprogram, rfl⟩
  unique id id' p p' wallet hfind hfind' hholding hholding' := by
    rcases program_of_move hs h hfind hholding with ⟨p₀, hp₀, hsame⟩ | ⟨hid, hnone, -⟩
    · have hcolumn := hsame.columns.1
      rcases program_of_move hs h hfind' hholding' with ⟨p₀', hp₀', hsame'⟩ | ⟨-, hnone, -⟩
      · exact hp.unique id id' p₀ p₀' wallet hp₀ hp₀' (hcolumn ▸ hholding) (hsame'.columns.1 ▸ hholding')
      · exact absurd (hcolumn ▸ hholding) (findProgramPosition_none hnone hp₀)
    · rcases program_of_move hs h hfind' hholding' with ⟨p₀', hp₀', hsame'⟩ | ⟨hid', -⟩
      · exact absurd (hsame'.columns.1 ▸ hholding') (findProgramPosition_none hnone hp₀')
      · rw [hid, hid']

theorem programs_initial (h : s.Initial) : Programs s where
  owner := by simp [h.positions]
  unique := by simp [h.positions]

/-! ## Answers -/

/-- The row answers the intent: it is of its request, its project, its fingerprint and, where that is looked at, its
direction. -/
structure VaultIntent.Answer (intent : VaultIntent) (row : Movement) : Prop where
  ofRequest : row.OfRequest intent.common.organizationId intent.common.requestId
  project : row.projectId = some intent.common.projectId
  fingerprint : row.idempotencyFingerprint = intent.common.idempotencyFingerprint
  direction : intent.acceptsDirection row.direction = true

/-- The row has the request of the intent at its program. -/
structure CustodialIntent.Holds (s : System) (input : CustodialIntent) (row : Movement) : Prop where
  position : ∃ p, s.positions.find? row.positionId = some p ∧ p.holding = .program input.providerWalletId
  organization : row.organizationId = input.organizationId
  request : row.requestId = input.requestId
  model : row.executionModel = .custodial

/-- What a result says of the ledger. -/
def Answered (s : System) : Request → Result → Prop
  | .vault intent, .written row | .vault intent, .replayed row => intent.Answer row ∧ s.movements.Seen Movement.Later row
  | .vault intent, .conflict message =>
    (message = VaultIntent.positionMismatch ∧ ∃ input, intent = .deposit input) ∨
      message = idempotencyConflict ∧ ∃ row, s.movements.find? row.id = some row ∧
        row.OfRequest intent.common.organizationId intent.common.requestId ∧ ¬ intent.Answer row
  | .vault _, .missed | .vault _, .failed _ => False
  | .custodial input, .written row | .custodial input, .replayed row =>
    input.Holds s row ∧ row.idempotencyFingerprint = input.idempotencyFingerprint ∧
      s.movements.Seen Movement.Later row
  | .custodial input, .conflict message => message = idempotencyConflict ∧ ∃ row, s.movements.find? row.id = some row ∧
      input.Holds s row ∧ row.idempotencyFingerprint ≠ input.idempotencyFingerprint
  | .custodial input, .missed | .custodial input, .failed _ =>
    ∀ program, s.programs input.providerWalletId = some program → program.organizationId ≠ input.organizationId
  | _, _ => True

theorem Movement.Later.answer {intent : VaultIntent} {m m' : Movement} (h : m.Later m') :
    intent.Answer m' ↔ intent.Answer m := by
  have hcolumns := h.column (fun m => (m.projectId, m.idempotencyFingerprint, m.direction)) fun _ => rfl
  simp only [Prod.mk.injEq] at hcolumns
  obtain ⟨hproject, hfingerprint, hdirection⟩ := hcolumns
  constructor
  · rintro ⟨hof, hp, hf, hd⟩
    exact ⟨h.ofRequest.mp hof, hproject ▸ hp, hfingerprint ▸ hf, hdirection ▸ hd⟩
  · rintro ⟨hof, hp, hf, hd⟩
    exact ⟨h.ofRequest.mpr hof, hproject ▸ hp, hfingerprint ▸ hf, hdirection ▸ hd⟩

/-- The rows of a ledger and of a later one. -/
structure Grown (s t : System) : Prop where
  programs : t.programs = s.programs
  rows : s.movements.Evolves Movement.Later t.movements
  holdings : s.positions.Evolves Position.Same t.positions

theorem grown_of_move (hs : Wf s) (h : Move s n t) : Grown s t :=
  ⟨programs_of_move h, rows_of_move hs h, holdings_of_move hs h⟩

theorem CustodialIntent.Holds.later {input : CustodialIntent} {m m' : Movement} (h : input.Holds s m)
    (hgrown : Grown s t) (hlater : m.Later m') : input.Holds t m' := by
  obtain ⟨⟨p, hp, hholding⟩, horganization, hrequest, hmodel⟩ := h
  obtain ⟨p', hp', hsame⟩ := hgrown.holdings _ p hp
  obtain ⟨hmodel', hposition', hrequest'⟩ := hlater.custodialKey
  have horganization' := hlater.column (fun m => m.organizationId) fun _ => rfl
  exact ⟨⟨p', by rw [hposition', hp'], hsame.columns.1.trans hholding⟩, horganization'.trans horganization,
    hrequest'.trans hrequest, hmodel'.trans hmodel⟩

theorem Answered.later {r : Request} {result : Result} (h : Answered s r result) (hgrown : Grown s t) :
    Answered t r result := by
  cases r with
  | vault intent =>
    cases result with
    | written row | replayed row => exact ⟨h.1, h.2.evolves hgrown.rows⟩
    | conflict message =>
      rcases h with hposition | ⟨hmessage, row, hrow, hof, hanswer⟩
      · exact .inl hposition
      · obtain ⟨row', hrow', hlater⟩ := hgrown.rows _ row hrow
        refine .inr ⟨hmessage, row', ?_, hlater.ofRequest.mpr hof, fun h => hanswer (hlater.answer.mp h)⟩
        rw [Table.key_of_find? hrow', hrow']
    | missed | failed => exact h
    | refused | aborted => trivial
  | custodial input =>
    cases result with
    | written row | replayed row => exact ⟨h.1.later hgrown (Std.Refl.refl row), h.2.1, h.2.2.evolves hgrown.rows⟩
    | conflict message =>
      obtain ⟨hmessage, row, hrow, hholds, hfingerprint⟩ := h
      obtain ⟨row', hrow', hlater⟩ := hgrown.rows _ row hrow
      have hcolumn := hlater.column (fun m => m.idempotencyFingerprint) fun _ => rfl
      refine ⟨hmessage, row', ?_, hholds.later hgrown hlater, by rwa [hcolumn]⟩
      rw [Table.key_of_find? hrow', hrow']
    | missed | failed =>
      intro program hprogram
      rw [hgrown.programs] at hprogram
      exact h program hprogram
    | refused | aborted => trivial
  | advance | reconcile => cases result <;> trivial

/-! ## What a call has found -/

theorem Finds.later {r : Request} {stage : Stage} (h : Finds s r stage) (hgrown : Grown s t) (hp : Programs t) :
    Finds t r stage := by
  have hprogram : ∀ {wallet p}, s.findProgramPosition wallet = some p →
      ∃ p', t.findProgramPosition wallet = some p' ∧ p'.id = p.id := by
    intro wallet p hfind
    obtain ⟨hfind, hholding⟩ := findProgramPosition_some hfind
    obtain ⟨p', hp', hsame⟩ := hgrown.holdings _ p hfind
    exact ⟨p', hp.find hp' (hsame.columns.1.trans hholding), hsame.id⟩
  cases r with
  | vault intent =>
    cases stage with
    | resolve =>
      obtain ⟨row, hrow⟩ := h
      obtain ⟨hfind, hof⟩ := findVaultMovementByRequest_some hrow
      obtain ⟨row', hrow', hlater⟩ := hgrown.rows _ row hfind
      refine Option.ne_none_iff_exists'.mp fun hnone => ?_
      exact findVaultMovementByRequest_none.mp hnone _ row' hrow' (hlater.ofRequest.mpr hof)
    | _ => trivial
  | custodial input =>
    cases stage with
    | insertCustodial minted =>
      cases minted with
      | true =>
        obtain ⟨p, hfind⟩ := h
        obtain ⟨p', hp', -⟩ := hprogram hfind
        exact ⟨p', hp'⟩
      | false => trivial
    | recover =>
      obtain ⟨p, m, hfind, hm, hposition, hrequest, hmodel⟩ := h
      obtain ⟨p', hp', hid⟩ := hprogram hfind
      obtain ⟨m', hm', hlater⟩ := hgrown.rows _ m hm
      obtain ⟨hmodel', hposition', hrequest'⟩ := hlater.custodialKey
      refine ⟨p', m', hp', ?_, ?_, hrequest'.trans hrequest, hmodel'.trans hmodel⟩
      · rw [Table.key_of_find? hm', hm']
      · rw [hposition', hposition, hid]
    | _ => trivial
  | advance | reconcile => cases stage <;> trivial

/-! ## The invariant -/

structure Replies (s : System) : Prop where
  programs : Programs s
  finds : ∀ n, Finds s (s.requests n) (s.calls n).stage
  own : ∀ n intent m, s.requests n = .vault intent → (s.calls n).movement = some m →
    ∃ positionId, m = intent.vaultMovement n positionId
  replaying : ∀ n row, (s.calls n).stage = .commit (.replayed row) → Answered s (s.requests n) (.replayed row)
  answered : ∀ n result, (s.calls n).stage = .done result → Answered s (s.requests n) result

theorem vaultMovement_answer (intent : VaultIntent) (id positionId : Nat) :
    intent.Answer (intent.vaultMovement id positionId) := by
  refine ⟨vaultMovement_ofRequest intent id positionId, ?_, ?_, ?_⟩
  all_goals cases intent <;> rfl

theorem answered_resolveReplay (hs : Wf s) {intent : VaultIntent} {prior : Movement}
    (hprior : s.findVaultMovementByRequest intent.common.organizationId intent.common.requestId = some prior) :
    Answered s (.vault intent) (s.resolveReplay intent prior) := by
  obtain ⟨hfind, hof⟩ := findVaultMovementByRequest_some hprior
  have hother : ¬ intent.Answer prior → Answered s (.vault intent) (.conflict idempotencyConflict) :=
    fun hanswer => .inr ⟨rfl, prior, hfind, hof, hanswer⟩
  unfold System.resolveReplay assertMovementIsOwnReplay
  split
  · next message herror =>
    split at herror <;> cases herror
    next hdiffers =>
    refine hother fun hanswer => ?_
    rcases hdiffers with hproject | hfingerprint
    · exact hproject hanswer.project
    · exact hfingerprint hanswer.fingerprint
  · next hown =>
    split at hown
    · cases hown
    · next hsame =>
      obtain ⟨hproject, hfingerprint⟩ := not_or.mp hsame
      split
      · next hdirection =>
        obtain ⟨p, hp, hhome⟩ := hs.housed _ prior hfind
        have hscope : s.requireMovementPosition prior = some p := by
          simp only [Position.identifies, Bool.and_eq_true, decide_eq_true_eq] at hhome
          rw [System.requireMovementPosition, hp, Option.filter_some, if_pos (by simp [hhome.1.1.1.2, hhome.1.1.2])]
        rw [hscope]
        exact ⟨⟨hof, not_not.mp hproject, not_not.mp hfingerprint, hdirection⟩, Table.seen_of_find? hfind⟩
      · next hdirection => exact hother fun hanswer => hdirection hanswer.direction

theorem holds_of_find {input : CustodialIntent} {row : Movement}
    (h : s.findCustodialMovementByRequestId input = some row) :
    s.movements.find? row.id = some row ∧ input.Holds s row := by
  obtain ⟨p, hp, hrow⟩ := Option.bind_eq_some_iff.mp h
  obtain ⟨hfind, hholding⟩ := findProgramPosition_some hp
  have hwhere := List.find?_some hrow
  simp only [Bool.and_eq_true, decide_eq_true_eq] at hwhere
  obtain ⟨⟨⟨hposition, horganization⟩, hrequest⟩, hmodel⟩ := hwhere
  exact ⟨Table.mem_rows_iff.mp (List.mem_of_find?_eq_some hrow),
    ⟨p, by rw [hposition, hfind], hholding⟩, horganization, hrequest, hmodel⟩

theorem answered_resolveCustodial {input : CustodialIntent} {row : Movement}
    (h : s.findCustodialMovementByRequestId input = some row) :
    Answered s (.custodial input) (System.resolveCustodial input row) := by
  obtain ⟨hfind, hholds⟩ := holds_of_find h
  unfold System.resolveCustodial
  split
  · next hsame => exact ⟨hholds, hsame, Table.seen_of_find? hfind⟩
  · next hdiffers => exact ⟨rfl, row, hfind, hholds, hdiffers⟩

theorem not_owner_of_loses (hs : Wf s) (hr : Replies s) {input : CustodialIntent}
    (hrequest : s.requests n = .custodial input) (h : Loses s (.custodial input) (s.calls n).stage) :
    ∀ program, s.programs input.providerWalletId = some program → program.organizationId ≠ input.organizationId := by
  have hfinds := hr.finds n
  rw [hrequest] at hfinds
  intro program hprogram howner
  rcases h with hnone | ⟨hstage, hnone⟩ | ⟨hstage, hnone⟩
  · cases hnone.symm.trans hprogram
  · rw [hstage] at hfinds
    obtain ⟨p, hp⟩ := hfinds
    cases hnone.symm.trans hp
  · rw [hstage] at hfinds
    obtain ⟨p, m, hp, hm, hposition, hrequest, hmodel⟩ := hfinds
    obtain ⟨hfind, hholding⟩ := findProgramPosition_some hp
    obtain ⟨p₀, hp₀, hhome⟩ := hs.housed _ m hm
    rw [hposition, hfind] at hp₀
    cases hp₀
    obtain ⟨program', hprogram', howner'⟩ := hr.programs.owner _ p _ hfind hholding
    cases hprogram.symm.trans hprogram'
    have horganization : m.organizationId = input.organizationId := by
      rw [← identifies_organization hhome, ← howner', howner]
    rw [System.findCustodialMovementByRequestId, hp, Option.bind_some, List.find?_eq_none] at hnone
    have hmiss := hnone m (Table.find?_eq_some_iff.mp hm).1
    simp [hposition, horganization, hrequest, hmodel] at hmiss

theorem answered_of_gaveUp (hs : Wf s) (hr : Replies s) {result : Result} (hsilent : result.silent = true)
    (hlost : result.lost = true → Loses s (s.requests n) (s.calls n).stage) : Answered s (s.requests n) result := by
  have hfinds := hr.finds n
  cases hrequest : s.requests n with
  | vault intent =>
    rw [hrequest] at hlost hfinds
    have hnever : result.lost = true → False := by
      intro h
      obtain ⟨hstage, hnone⟩ := hlost h
      rw [hstage] at hfinds
      obtain ⟨row, hrow⟩ := hfinds
      cases hnone.symm.trans hrow
    cases result with
    | written | replayed | conflict => cases hsilent
    | missed | failed => exact hnever rfl
    | refused | aborted => trivial
  | custodial input =>
    rw [hrequest] at hlost
    cases result with
    | written | replayed | conflict => cases hsilent
    | missed | failed => exact not_owner_of_loses hs hr hrequest (hlost rfl)
    | refused | aborted => trivial
  | advance | reconcile => cases result <;> trivial

theorem finds_done (r : Request) (result : Result) : Finds s r (.done result) := by cases r <;> trivial

theorem finds_commit (r : Request) (result : Result) : Finds s r (.commit result) := by cases r <;> trivial

theorem finds_of_move (hs : Wf s) (hr : Replies s) (h : Move s n t) :
    Finds t (s.requests n) (t.calls n).stage := by
  have hgrown := grown_of_move hs h
  have hp := keeps_programs hs hr.programs h
  cases h with
  | gaveUp | mismatched | answered | custodialAnswered | advanceAlone | insertCustodial =>
    simpa using finds_done _ _
  | commit => simpa [System.commit] using finds_done _ _
  | goOn _ _ _ _ _ hfinds =>
    rw [call_goto_self]
    exact hfinds.later hgrown hp
  | lost hrequest hstage hkey =>
    rw [hrequest, call_goto_self]
    exact ⟨_, hkey⟩
  | replaying => simpa using finds_commit _ _
  | fundOwn | fund | activate => simpa using finds_commit _ _
  | claimNew hrequest | claimOld hrequest | insert hrequest =>
    rw [hrequest, call_setCall_self]
    trivial
  | project =>
    rw [call_goto_self]
    cases s.requests n <;> trivial
  | lock | deactivate =>
    rw [call_setCall_self]
    cases s.requests n <;> trivial
  | update =>
    rw [call_setCall_self]
    unfold Advance.next
    repeat' split
    all_goals cases s.requests n <;> trivial
  | @mint input program hrequest hstage hnone hprogram =>
    rw [hrequest, call_goto_self]
    have hfind : (s.positions.upsert (program.position n input.providerWalletId)).find? n =
        some (program.position n input.providerWalletId) := (Table.find?_upsert ..).trans (if_pos rfl)
    exact ⟨program.position n input.providerWalletId, hp.find hfind rfl⟩

theorem own_of_move (hs : Wf s) (hr : Replies s) (h : Move s n t) {intent : VaultIntent} {m : Movement}
    (hrequest : s.requests n = .vault intent) (hm : (t.calls n).movement = some m) :
    ∃ positionId, m = intent.vaultMovement n positionId := by
  have hold := hr.own n intent m hrequest
  cases h with
  | gaveUp | mismatched | answered | custodialAnswered | advanceAlone | insertCustodial => simp at hm
  | commit => simp [System.commit] at hm
  | claimNew | claimOld | lock => simp at hm
  | replaying | goOn | lost | project | mint =>
    rw [call_goto_self] at hm
    exact hold hm
  | fundOwn hstage hown | fund hstage hown | deactivate hstage hown | activate hstage hown =>
    rw [call_setCall_self] at hm
    exact hold (hown.trans hm)
  | @insert intent' positionId row hrequest' hstage hrow =>
    rw [call_setCall_self] at hm
    cases hm
    cases hrequest.symm.trans hrequest'
    exact ⟨positionId, hrow⟩
  | update hstage =>
    have hadvances := advances_of_update hs hstage
    rw [hrequest] at hadvances
    cases hadvances

theorem replaying_of_move (hs : Wf s) (h : Move s n t) {row : Movement}
    (hstage : (t.calls n).stage = .commit (.replayed row)) : Answered t (s.requests n) (.replayed row) := by
  have hgrown := grown_of_move hs h
  cases h with
  | @replaying intent prior row' hrequest hresolve hprior hreplay =>
    rw [call_goto_self] at hstage
    cases hstage
    have hanswer := answered_resolveReplay hs hprior
    rw [hreplay] at hanswer
    rw [hrequest]
    exact hanswer.later hgrown
  | goOn _ _ _ hopen =>
    rw [call_goto_self] at hstage
    obtain rfl := hstage
    cases hopen
  | update =>
    rw [call_setCall_self] at hstage
    unfold Advance.next at hstage
    repeat' split at hstage
    all_goals cases hstage
  | commit => simp [System.commit] at hstage
  | _ => simp at hstage

theorem answered_of_commit (hs : Wf s) (hr : Replies s) {result : Result} (hstage : (s.calls n).stage = .commit result) :
    Answered (s.commit n result) (s.requests n) result := by
  have hmove : Move s n (s.commit n result) := .commit hstage
  have hwf := hs.stage n
  have hfits := hs.fits n
  rw [hstage] at hwf hfits
  cases result with
  | written row =>
    obtain ⟨hm, -⟩ := hwf
    cases hrequest : s.requests n with
    | vault intent =>
      obtain ⟨positionId, rfl⟩ := hr.own n intent row hrequest hm
      refine ⟨vaultMovement_answer intent n positionId, Table.seen_of_find? (k := n) ?_⟩
      change (s.visible n).find? n = _
      rw [System.visible, hm, Option.elim_some, Table.find?_upsert, if_pos (vaultMovement_id ..).symm]
    | custodial input =>
      rw [hrequest] at hfits
      cases hfits
    | advance | reconcile => trivial
  | replayed row => exact (hr.replaying n row hstage).later (grown_of_move hs hmove)
  | _ => exact hwf.elim

theorem answered_of_move (hs : Wf s) (hr : Replies s) (h : Move s n t) {result : Result}
    (hstage : (t.calls n).stage = .done result) : Answered t (s.requests n) result := by
  have hgrown := grown_of_move hs h
  cases h with
  | gaveUp hactive hsilent hcheck hlost =>
    obtain rfl : _ = result := by simpa using hstage
    exact (answered_of_gaveUp hs hr hsilent hlost).later hgrown
  | mismatched hrequest =>
    obtain rfl : _ = result := by simpa using hstage
    rw [hrequest]
    exact .inl ⟨rfl, _, rfl⟩
  | answered hrequest hactive hprior =>
    obtain rfl : _ = result := by simpa using hstage
    rw [hrequest]
    exact (answered_resolveReplay hs hprior).later hgrown
  | custodialAnswered hrequest hactive hfind =>
    obtain rfl : _ = result := by simpa using hstage
    rw [hrequest]
    exact (answered_resolveCustodial hfind).later hgrown
  | commit hcommit =>
    obtain rfl : _ = result := by simpa [System.commit] using hstage
    exact answered_of_commit hs hr hcommit
  | advanceAlone hadvances =>
    cases hrequest : s.requests n with
    | vault | custodial =>
      rw [hrequest] at hadvances
      cases hadvances
    | advance | reconcile => cases result <;> trivial
  | @insertCustodial input p minted hrequest hinsert hp hchecks hkey hhome =>
    obtain rfl : _ = result := by simpa using hstage
    obtain ⟨hfind, hholding⟩ := findProgramPosition_some hp
    rw [hrequest]
    refine ⟨⟨⟨p, hfind, hholding⟩, rfl, rfl, rfl⟩, rfl, Table.seen_of_find? (k := n) ?_⟩
    exact (Table.find?_upsert ..).trans (if_pos rfl)
  | goOn _ _ _ hopen =>
    rw [call_goto_self] at hstage
    obtain rfl := hstage
    cases hopen
  | update =>
    rw [call_setCall_self] at hstage
    unfold Advance.next at hstage
    repeat' split at hstage
    all_goals cases hstage
  | _ => simp at hstage

theorem replies_of_move (hs : Wf s) (hr : Replies s) (h : Move s n t) : Replies t := by
  have hgrown := grown_of_move hs h
  have hp := keeps_programs hs hr.programs h
  have hrequests : t.requests = s.requests := (frame_of_move hs h (Nat.succ_ne_self n)).requests
  refine ⟨hp, fun k => ?_, fun k intent m hrequest hm => ?_, fun k row hstage => ?_, fun k result hstage => ?_⟩
  all_goals
    rw [hrequests] at *
    by_cases hk : k = n
  · subst hk
    exact finds_of_move hs hr h
  · rw [call_of_move h hk]
    exact (hr.finds k).later hgrown hp
  · subst hk
    exact own_of_move hs hr h hrequest hm
  · rw [call_of_move h hk] at hm
    exact hr.own k intent m hrequest hm
  · subst hk
    exact replaying_of_move hs h hstage
  · rw [call_of_move h hk] at hstage
    exact (hr.replaying k row hstage).later hgrown
  · subst hk
    exact answered_of_move hs hr h hstage
  · rw [call_of_move h hk] at hstage
    exact (hr.answered k result hstage).later hgrown

theorem replies_initial (h : s.Initial) : Replies s where
  programs := programs_initial h
  finds n := by
    rw [h.calls n]
    cases s.requests n <;> trivial
  own := by simp [h.calls]
  replaying := by simp [h.calls]
  answered := by simp [h.calls]

theorem invariants_of_reachable (h : Reachable System.step System.Initial anyStep s) : Keys s ∧ Replies s := by
  refine h.invariant (P := fun s => Keys s ∧ Replies s) (fun s hs => ⟨keys_initial hs, replies_initial hs⟩) ?_
  intro s l t hreach ⟨hk, hr⟩ _ ht
  have hs := wf_of_reachable hreach
  have hmove := move_of_step hs ht
  exact ⟨keys_of_move hs hk hmove, replies_of_move hs hr hmove⟩

/-! ## Requests that get no row -/

theorem movements_of_move (hs : Wf s) (h : Move s n t) :
    t.movements = s.movements ∨ ∃ row, (t.calls n).stage = .done (.written row) := by
  cases h with
  | @commit result hstage =>
    have hwf := hs.stage n
    rw [hstage] at hwf
    cases result with
    | written row => exact .inr ⟨row, by simp [System.commit]⟩
    | replayed row =>
      have hnone : (s.calls n).movement = none := hwf
      refine .inl ?_
      change s.visible n = s.movements
      rw [System.visible, hnone, Option.elim_none]
    | _ => exact hwf.elim
  | advanceAlone | insertCustodial => exact .inr ⟨_, congrArg Call.stage (call_finish_self _)⟩
  | _ => exact .inl rfl

theorem positions_of_move (hs : Wf s) (h : Move s n t) {intent : VaultIntent} (hrequest : s.requests n = .vault intent) :
    t.positions = s.positions ∨
      ∃ row, (t.calls n).stage = .done (.written row) ∨ (t.calls n).stage = .done (.replayed row) := by
  cases h with
  | @commit result hstage =>
    have hwf := hs.stage n
    rw [hstage] at hwf
    cases result with
    | written row => exact .inr ⟨row, .inl (by simp [System.commit])⟩
    | replayed row => exact .inr ⟨row, .inr (by simp [System.commit])⟩
    | _ => exact hwf.elim
  | mint hcustodial => cases hcustodial.symm.trans hrequest
  | _ => exact .inl rfl

/-- In every state of every run, one vault row has an organization's request, and one custodial row a position's. A
vault intent that is over has that row exactly if it is of its project, its fingerprint and, for a withdrawal, its
direction, unless a deposit does not fit its position, the row's own columns are refused or the database has aborted
it. A custodial intent is answered by the row of its program, by fingerprint. Only a call that ends with a row has
changed movements, and of the vault intents only such a one positions. -/
theorem intents_are_idempotent (h : Reachable System.step System.Initial anyStep s) :
    (∀ m m', s.movements.find? m.id = some m → s.movements.find? m'.id = some m' →
      m.executionModel = .vaultDirect → m'.OfRequest m.organizationId m.requestId → m = m') ∧
    (∀ m m', s.movements.find? m.id = some m → s.movements.find? m'.id = some m' → m.executionModel = .custodial →
      m'.executionModel = .custodial → m'.positionId = m.positionId → m'.requestId = m.requestId → m = m') ∧
    (∀ n result, (s.calls n).stage = .done result → Answered s (s.requests n) result) ∧
    ∀ l t, s.step l = some t →
      (t.movements = s.movements ∨ ∃ row, (t.calls l.call).stage = .done (.written row)) ∧
      ∀ intent, s.requests l.call = .vault intent → t.positions = s.positions ∨
        ∃ row, (t.calls l.call).stage = .done (.written row) ∨ (t.calls l.call).stage = .done (.replayed row) := by
  have hs := wf_of_reachable h
  obtain ⟨hk, hr⟩ := invariants_of_reachable h
  have hsame : ∀ m m' : Movement, s.movements.find? m.id = some m → s.movements.find? m'.id = some m' →
      m.id = m'.id → m = m' := by
    intro m m' hm hm' hid
    rw [hid, hm'] at hm
    exact (Option.some.inj hm).symm
  refine ⟨fun m m' hm hm' hvault hof => ?_, fun m m' hm hm' hmodel hmodel' hposition hrequest => ?_, hr.answered,
    fun l t ht => ?_⟩
  · exact hsame m m' hm hm' (hk.vault _ _ m m' hm hm' hvault hof)
  · exact hsame m m' hm hm' (hk.custodial _ _ m m' hm hm' hmodel hmodel' hposition hrequest)
  · have hmove := move_of_step hs ht
    exact ⟨movements_of_move hs hmove, fun _ => positions_of_move hs hmove⟩

/-- Two deposits of one request race, and a third request reuses it with another fingerprint. -/
theorem one_deposit_of_two : ∃ s row, Reachable System.step System.Initial anyStep s ∧
    s.calls 0 = ⟨.done (.written row), none, none⟩ ∧ s.calls 1 = ⟨.done (.replayed row), none, none⟩ ∧
    s.calls 2 = ⟨.done (.conflict idempotencyConflict), none, none⟩ ∧
    Answered s (s.requests 1) (.replayed row) ∧
    Answered s (s.requests 2) (.conflict idempotencyConflict) := by
  let requests : Nat → Request
    | 0 => .vault (.deposit someDeposit)
    | 1 => .vault (.deposit { someDeposit with signature := "other" })
    | _ => .vault (.deposit { someDeposit with signature := "third", idempotencyFingerprint := "other" })
  let row := someDeposit.vaultMovement 0 0
  have hrun : ((run System.step (.fresh requests fun _ => none)
      [.next 0, .next 1, .next 0, .next 0, .next 0, .next 0, .next 0, .next 1, .next 1, .next 1, .next 1,
        .next 2]).map fun s => (s.calls 0, s.calls 1, s.calls 2)) =
      some (⟨.done (.written row), none, none⟩, ⟨.done (.replayed row), none, none⟩,
        ⟨.done (.conflict idempotencyConflict), none, none⟩) := by decide +kernel
  obtain ⟨s, hs, hcalls⟩ := Option.map_eq_some_iff.mp hrun
  simp only [Prod.mk.injEq] at hcalls
  obtain ⟨hfirst, hsecond, hthird⟩ := hcalls
  have hreach := (Reachable.start (System.fresh_initial requests fun _ => none)).run hs
  obtain ⟨-, -, hanswered, -⟩ := intents_are_idempotent hreach
  exact ⟨s, row, hreach, hfirst, hsecond, hthird, hanswered 1 _ (by rw [hsecond]), hanswered 2 _ (by rw [hthird])⟩

/-- A withdrawal of the first program's holding. -/
def someCustodial : CustodialIntent where
  organizationId := 1
  projectId := 1
  environment := .sandbox
  provider := "portfolio"
  providerWalletId := 1
  amountRequestedUsd := "5"
  payoutToken := "usdc"
  requestId := "key"
  idempotencyFingerprint := "print"
  now := 1

/-- One request at two programs has two rows. A withdrawal with the project and the fingerprint of the row is turned
down, for the row is a deposit. A deposit and a withdrawal of one request wait for each other, and neither gets a row
or a conflict. And a custodial intent that ends in a conflict has opened the holding of its program. -/
theorem one_request_is_not_one_answer :
    (∃ s m m', Reachable System.step System.Initial anyStep s ∧ s.movements.rows = [m, m'] ∧ m ≠ m' ∧
      m.organizationId = m'.organizationId ∧ m.requestId = m'.requestId) ∧
    (∃ s row, Reachable System.step System.Initial anyStep s ∧ s.movements.rows = [row] ∧
      row.projectId = some someWithdrawal.projectId ∧
      row.idempotencyFingerprint = someWithdrawal.idempotencyFingerprint ∧
      s.calls 1 = ⟨.done (.conflict idempotencyConflict), none, none⟩) ∧
    (∃ s, Reachable System.step System.Initial anyStep s ∧ (s.next 1).isNone ∧ (s.next 2).isNone ∧
      (s.calls 1).stage = .insert 0 ∧ (s.calls 2).stage = .projecting (some "wallet") 1) ∧
    ∃ s, Reachable System.step System.Initial anyStep s ∧
      s.calls 0 = ⟨.done (.conflict idempotencyConflict), none, none⟩ ∧ s.positions.rows.map Position.id = [0] := by
  let program : Program := ⟨1, .sandbox, "portfolio", "Portfolio"⟩
  refine ⟨?_, ?_, ?_, ?_⟩
  · let requests : Nat → Request
      | 0 => .custodial someCustodial
      | _ => .custodial { someCustodial with providerWalletId := 2 }
    have hrun : ((run System.step (.fresh requests fun _ => some program)
        [.next 0, .next 0, .next 0, .next 0, .next 1, .next 1, .next 1, .next 1]).map fun s => s.movements.rows) =
        some [someCustodial.movement 0 0, someCustodial.movement 1 1] := by decide +kernel
    obtain ⟨s, hs, hrows⟩ := Option.map_eq_some_iff.mp hrun
    exact ⟨s, _, _, (Reachable.start (System.fresh_initial requests _)).run hs, hrows, by decide, rfl, rfl⟩
  · let requests : Nat → Request
      | 0 => .vault (.deposit someDeposit)
      | _ => .vault (.withdrawal { someWithdrawal with requestId := "key" })
    have hrun : ((run System.step (.fresh requests fun _ => none)
        [.next 0, .next 0, .next 0, .next 0, .next 0, .next 0, .next 1]).map fun s =>
          (s.movements.rows, s.calls 1)) =
        some ([someDeposit.vaultMovement 0 0], ⟨.done (.conflict idempotencyConflict), none, none⟩) := by
      decide +kernel
    obtain ⟨s, hs, hrows⟩ := Option.map_eq_some_iff.mp hrun
    simp only [Prod.mk.injEq] at hrows
    exact ⟨s, _, (Reachable.start (System.fresh_initial requests _)).run hs, hrows.1, rfl, rfl, hrows.2⟩
  · let requests : Nat → Request
      | 0 => .vault (.deposit someDeposit)
      | 1 => .vault (.deposit { someDeposit with signature := "second", requestId := "exit" })
      | _ => .vault (.withdrawal someWithdrawal)
    have hrun : ((run System.step (.fresh requests fun _ => none)
        [.next 0, .next 0, .next 0, .next 0, .next 0, .next 0, .next 1, .next 1, .next 2, .next 2, .next 2]).map
          fun s => ((s.next 1).isNone, (s.next 2).isNone, (s.calls 1).stage, (s.calls 2).stage)) =
        some (true, true, .insert 0, .projecting (some "wallet") 1) := by decide +kernel
    obtain ⟨s, hs, hstages⟩ := Option.map_eq_some_iff.mp hrun
    simp only [Prod.mk.injEq] at hstages
    obtain ⟨hfirst, hsecond, hinsert, hprojecting⟩ := hstages
    exact ⟨s, (Reachable.start (System.fresh_initial requests _)).run hs, hfirst, hsecond, hinsert, hprojecting⟩
  · let requests : Nat → Request
      | 0 => .custodial someCustodial
      | _ => .custodial { someCustodial with idempotencyFingerprint := "other" }
    have hrun : ((run System.step (.fresh requests fun _ => some program)
        [.next 0, .next 0, .next 0, .next 1, .next 1, .next 0, .next 0]).map fun s =>
          (s.calls 0, s.positions.rows.map Position.id)) =
        some (⟨.done (.conflict idempotencyConflict), none, none⟩, [0]) := by decide +kernel
    obtain ⟨s, hs, hcalls⟩ := Option.map_eq_some_iff.mp hrun
    simp only [Prod.mk.injEq] at hcalls
    exact ⟨s, (Reachable.start (System.fresh_initial requests _)).run hs, hcalls.1, hcalls.2⟩

end Sdp.Earn
