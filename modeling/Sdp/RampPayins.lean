import Sdp.RampSettlements

/-!
# Pay-ins and the transfers that they settle

A pay-in has no reference to a transfer. A delivery of it settles the only transfer that matches, and
what keeps a second delivery from settling another one is not the same for both providers.
-/

open Sdp.Lib

namespace Sdp.Ramps

open Payments (PaymentTransferStatus PaymentTransferType)

/-! ## Matching -/

/-- The statuses of the transfers that a pay-in is matched with. -/
def liveFor : Payin → List PaymentTransferStatus
  | .bvnk _ => liveStatuses
  | .mural _ => [.awaitingPayment]

/-- The match without the status. -/
def columnsMatch (numeric : String → Option ℚ) (counterparty : CounterpartyRow) (payin : Payin) (r : PaymentTransferRow) :
    Bool :=
  payinMatches numeric counterparty payin { r with status := .awaitingPayment }

section Matching

variable {numeric : String → Option ℚ} {counterparty : CounterpartyRow} {payin : Payin} {r r' : PaymentTransferRow}

theorem payinMatches_iff : payinMatches numeric counterparty payin r = true ↔
    columnsMatch numeric counterparty payin r = true ∧ r.status ∈ liveFor payin := by
  have hlive : PaymentTransferStatus.awaitingPayment ∈ liveStatuses := by decide
  cases payin with
  | bvnk p =>
    simp only [columnsMatch, payinMatches, belongsTo, liveFor, hlive, decide_eq_true_eq, true_and]
    tauto
  | mural e =>
    simp only [columnsMatch, payinMatches, belongsTo, liveFor, List.mem_singleton, decide_eq_true_eq, true_and]
    tauto

theorem not_terminal_of_liveFor (h : r.status ∈ liveFor payin) : ¬ Terminal r := by
  refine not_terminal_of_live ?_
  cases payin with
  | bvnk p => exact h
  | mural e =>
    rw [List.mem_singleton.mp h]
    decide

theorem columnsMatch_congr (h : Follows r r') (hopen : ¬ Terminal r') :
    columnsMatch numeric counterparty payin r' = columnsMatch numeric counterparty payin r := by
  obtain ⟨hfiat, hdata⟩ := h.open_ hopen
  cases payin <;>
    simp [columnsMatch, payinMatches, belongsTo, h.organizationId, h.projectId, h.counterpartyId, h.provider, h.type,
      hfiat, hdata]

end Matching

theorem mem_matchingIds {t : TransferTable} {p : PaymentTransferRow → Bool} {id : String} :
    id ∈ matchingIds t p ↔ ∃ r, t.find? id = some r ∧ p r = true := by
  simp only [matchingIds, List.mem_map, List.mem_filter]
  constructor
  · rintro ⟨r, ⟨hmem, hp⟩, hid⟩
    exact ⟨r, Table.find?_eq_some_iff.mpr ⟨hmem, hid⟩, hp⟩
  · rintro ⟨r, hr, hp⟩
    obtain ⟨hmem, hid⟩ := Table.find?_eq_some_iff.mp hr
    exact ⟨r, ⟨hmem, hp⟩, hid⟩

theorem nodup_matchingIds (t : TransferTable) (p : PaymentTransferRow → Bool) : (matchingIds t p).Nodup :=
  t.primaryKey.sublist (List.filter_sublist.map _)

theorem mem_liveMatches {s : System} {payin : Payin} {id : String} : id ∈ s.liveMatches payin ↔
    ∃ counterparty r, s.counterparty? payin = some counterparty ∧ s.transfers.find? id = some r ∧
      payinMatches s.numeric counterparty payin r = true := by
  unfold System.liveMatches
  cases s.counterparty? payin with
  | none => simp
  | some counterparty => simp [mem_matchingIds]

theorem nodup_liveMatches (s : System) (payin : Payin) : (s.liveMatches payin).Nodup := by
  unfold System.liveMatches
  cases s.counterparty? payin with
  | none => exact List.nodup_nil
  | some counterparty => exact nodup_matchingIds _ _

theorem liveMatches_eq_singleton {s : System} {payin : Payin} {id : String} (hmem : id ∈ s.liveMatches payin)
    (honly : ∀ x ∈ s.liveMatches payin, x = id) : s.liveMatches payin = [id] := by
  have hnodup := nodup_liveMatches s payin
  generalize s.liveMatches payin = ids at hmem honly hnodup
  cases ids with
  | nil => cases hmem
  | cons a ids =>
    obtain rfl := honly a List.mem_cons_self
    cases ids with
    | nil => rfl
    | cons b ids =>
      obtain rfl := honly b (by simp)
      simp at hnodup

theorem sole_eq_some {α : Type} {l : List α} {a : α} : sole l = some a ↔ l = [a] := by
  unfold sole
  split
  · simp
  · next h =>
    simp only [reduceCtorEq, false_iff]
    exact h a

/-! ## Steps and matches -/

theorem step_static {s t : System} {l : Step} (h : s.step l = some t) :
    t.counterparties = s.counterparties ∧ t.numeric = s.numeric := by
  cases l with
  | elapse ms =>
    cases h
    exact ⟨rfl, rfl⟩
  | deliver n delivery =>
    unfold System.step at h
    dsimp only at h
    split at h <;> cases h
    exact ⟨rfl, rfl⟩
  | next n =>
    cases next_cases h with
    | applies hn =>
      unfold System.applySettlement
      split <;> exact ⟨rfl, rfl⟩
    | claims hn hclaimed hfree =>
      unfold System.claimCredit
      split <;> exact ⟨rfl, rfl⟩
    | _ => exact ⟨rfl, rfl⟩
  | createOnrampQuote q =>
    unfold System.step at h
    dsimp only at h
    split at h <;> cases h
    exact ⟨rfl, rfl⟩
  | cancelRampTransfer provider reference organizationId projectId =>
    unfold System.step at h
    dsimp only at h
    split at h <;> cases h
    exact ⟨rfl, rfl⟩

theorem counterparty?_congr {s t : System} (h : t.counterparties = s.counterparties) (payin : Payin) :
    t.counterparty? payin = s.counterparty? payin := by
  unfold System.counterparty?
  rw [h]

/-- The pay-in and the transfer of a delivery that is between its match and its write. -/
def inFlight : Handler → Option (Payin × String)
  | .matched payin _ id => some (payin, id)
  | .loaded payin transfer => some (payin, transfer.id)
  | _ => none

/-- A BVNK pay-in that has settled a transfer is not delivered again while exactly one matches it. No transfer comes to
match a pay-in whose delivery is between its match and its write. -/
def attributable (s : System) : Step → Prop
  | .next n =>
    match s.handlers n with
    | .found (.bvnk p) counterparty =>
      (∃ e ∈ s.payins, e.payin = .bvnk p) →
        sole (matchingIds s.transfers (payinMatches s.numeric counterparty (.bvnk p))) = none
    | .applying .awaitingPayment transfer =>
      ∀ m e id counterparty r, inFlight (s.handlers m) = some (.mural e, id) →
        s.counterparty? (.mural e) = some counterparty → s.transfers.find? transfer.id = some r →
        guarded transfer [.pending] r = true →
        payinMatches s.numeric counterparty (.mural e) { r with status := .awaitingPayment } = false
    | _ => True
  | .createOnrampQuote q =>
    ∀ m payin id counterparty, inFlight (s.handlers m) = some (payin, id) → s.counterparty? payin = some counterparty →
      payinMatches s.numeric counterparty payin (q.row s.now) = false
  | _ => True

section Kept

variable {s t : System} {payin : Payin}

/-- Another state of the same system, with the transfers that match the pay-in among those that matched before. -/
structure Kept (s t : System) (payin : Payin) : Prop where
  counterparty? : t.counterparty? payin = s.counterparty? payin
  numeric : t.numeric = s.numeric
  kept : ∀ id ∈ t.liveMatches payin, id ∈ s.liveMatches payin

theorem kept_of_rows (hcounterparty : t.counterparty? payin = s.counterparty? payin) (hnumeric : t.numeric = s.numeric)
    (hrows : ∀ counterparty id r', s.counterparty? payin = some counterparty → t.transfers.find? id = some r' →
      payinMatches s.numeric counterparty payin r' = true →
      ∃ r, s.transfers.find? id = some r ∧ payinMatches s.numeric counterparty payin r = true) : Kept s t payin := by
  refine ⟨hcounterparty, hnumeric, fun id hid => ?_⟩
  obtain ⟨counterparty, r', hc, hr', hmatch⟩ := mem_liveMatches.mp hid
  rw [hcounterparty] at hc
  rw [hnumeric] at hmatch
  obtain ⟨r, hr, hmatch⟩ := hrows counterparty id r' hc hr' hmatch
  exact mem_liveMatches.mpr ⟨counterparty, r, hc, hr, hmatch⟩

theorem kept_of_transfers (hcounterparties : t.counterparties = s.counterparties) (hnumeric : t.numeric = s.numeric)
    (htransfers : t.transfers = s.transfers) : Kept s t payin := by
  refine kept_of_rows (counterparty?_congr hcounterparties payin) hnumeric fun counterparty id r' _ hr' hmatch => ?_
  rw [htransfers] at hr'
  exact ⟨r', hr', hmatch⟩

theorem kept_of_update {id : String} {guard : PaymentTransferRow → Bool} {u : TransferUpdate}
    (hcounterparties : t.counterparties = s.counterparties) (hnumeric : t.numeric = s.numeric)
    (htransfers : t.transfers = s.transfers.update id guard u.set fun _ => rfl)
    (hback : ∀ counterparty r, s.counterparty? payin = some counterparty → s.transfers.find? id = some r →
      guard r = true → payinMatches s.numeric counterparty payin (u.set r) = true →
      payinMatches s.numeric counterparty payin r = true) : Kept s t payin := by
  refine kept_of_rows (counterparty?_congr hcounterparties payin) hnumeric fun counterparty id' r' hc hr' hmatch => ?_
  rw [htransfers] at hr'
  obtain ⟨r, hr, rfl | ⟨rfl, hguard, rfl⟩⟩ := Table.row_of_update _ hr'
  · exact ⟨_, hr, hmatch⟩
  · exact ⟨r, hr, hback counterparty r hc hr hguard hmatch⟩

theorem not_matches_set {numeric : String → Option ℚ} {counterparty : CounterpartyRow} {r : PaymentTransferRow}
    {u : TransferUpdate} (hu : u.toStatus ∈ terminalRampTransferStatuses) :
    payinMatches numeric counterparty payin (u.set r) ≠ true := by
  intro hmatch
  exact not_terminal_of_liveFor (payinMatches_iff.mp hmatch).2 hu

theorem kept_applySettlement {n m : Nat} {kind : RampSettlementKind} {transfer : PaymentTransferRow} {id : String}
    (hn : s.handlers n = .applying kind transfer) (hok : attributable s (.next n))
    (hflight : inFlight (s.handlers m) = some (payin, id)) : Kept s (s.applySettlement n kind transfer) payin := by
  have hrest : (s.applySettlement n kind transfer).counterparties = s.counterparties ∧
      (s.applySettlement n kind transfer).numeric = s.numeric ∧ (s.applySettlement n kind transfer).transfers =
        s.transfers.update transfer.id (guarded transfer kind.sources) (settlementUpdate kind transfer s.now).set
          fun _ => rfl := by
    unfold System.applySettlement
    split <;> exact ⟨rfl, rfl, rfl⟩
  refine kept_of_update hrest.1 hrest.2.1 hrest.2.2 fun counterparty r hc hr hguard hmatch => ?_
  have hfollows : Follows r ((settlementUpdate kind transfer s.now).set r) := follows_settlement hguard
  have hsource := (guarded_iff.mp hguard).2.2
  obtain ⟨hcolumns, hstatus⟩ := payinMatches_iff.mp hmatch
  rw [columnsMatch_congr hfollows (not_terminal_of_liveFor hstatus)] at hcolumns
  cases kind with
  | awaitingPayment =>
    cases payin with
    | bvnk p =>
      refine payinMatches_iff.mpr ⟨hcolumns, ?_⟩
      rw [List.mem_singleton.mp hsource]
      exact List.mem_cons_self
    | mural e =>
      simp only [attributable, hn] at hok
      exact absurd hcolumns (Bool.eq_false_iff.mp (hok m e id counterparty r hflight hc hr hguard))
  | settling =>
    cases payin with
    | bvnk p =>
      refine payinMatches_iff.mpr ⟨hcolumns, ?_⟩
      have hlive (h : r.status ∈ [PaymentTransferStatus.pending, .awaitingPayment]) : r.status ∈ liveStatuses :=
        List.mem_append_left [PaymentTransferStatus.settling] h
      exact hlive hsource
    | mural e => cases List.mem_singleton.mp hstatus
  | settled receivedAmount settlement =>
    exact absurd hmatch (not_matches_set (by decide : PaymentTransferStatus.completed ∈ _))
  | failed error settlement =>
    exact absurd hmatch (not_matches_set (by decide : PaymentTransferStatus.failed ∈ _))
  | expired error settlement =>
    exact absurd hmatch (not_matches_set (by decide : PaymentTransferStatus.expired ∈ _))

theorem kept_step {l : Step} {m : Nat} {id : String} (hok : attributable s l) (hstep : s.step l = some t)
    (hflight : inFlight (s.handlers m) = some (payin, id)) : Kept s t payin := by
  obtain ⟨hcounterparties, hnumeric⟩ := step_static hstep
  have hsame (htransfers : t.transfers = s.transfers) : Kept s t payin :=
    kept_of_transfers hcounterparties hnumeric htransfers
  cases l with
  | elapse ms =>
    cases hstep
    exact hsame rfl
  | deliver n delivery =>
    unfold System.step at hstep
    dsimp only at hstep
    split at hstep <;> cases hstep
    exact hsame rfl
  | next n =>
    cases next_cases hstep with
    | applies hn => exact kept_applySettlement hn hok hflight
    | @channels e id' hn hid =>
      refine kept_of_update hcounterparties hnumeric rfl fun counterparty r hc hr hguard hmatch => ?_
      -- Channel transactions are of off-ramps, and pay-ins of on-ramps.
      simp only [System.channelGuard, decide_eq_true_eq] at hguard
      cases payin <;>
        simp [payinMatches, belongsTo, TransferUpdate.set, hguard.2.1] at hmatch
    | completes hn =>
      refine kept_of_update hcounterparties hnumeric rfl fun counterparty r hc hr hguard hmatch => ?_
      exact absurd hmatch (not_matches_set (by decide : PaymentTransferStatus.completed ∈ _))
    | @claims e transfer claimed hn hclaimed hfree =>
      have htransfers : (s.claimCredit n e transfer claimed).transfers = s.transfers.update transfer.id
          (guarded transfer [.awaitingPayment]) (System.creditUpdate e transfer s.now).set fun _ => rfl := by
        unfold System.claimCredit
        split <;> rfl
      refine kept_of_update hcounterparties hnumeric htransfers fun counterparty r hc hr hguard hmatch => ?_
      exact absurd hmatch (not_matches_set (by decide : PaymentTransferStatus.completed ∈ _))
    | _ => exact hsame rfl
  | createOnrampQuote q =>
    unfold System.step at hstep
    dsimp only at hstep
    split at hstep
    · cases hstep
    · cases hstep
      refine kept_of_rows (counterparty?_congr hcounterparties payin) hnumeric fun counterparty id' r' hc hr' hmatch => ?_
      rw [Table.find?_insertNew] at hr'
      split at hr'
      · next hid =>
        cases hold : s.transfers.find? id' with
        | some r =>
          rw [hold] at hr'
          cases hr'
          exact ⟨_, rfl, hmatch⟩
        | none =>
          rw [hold] at hr'
          cases hr'
          rw [hok m payin id counterparty hflight hc] at hmatch
          cases hmatch
      · exact ⟨r', hr', hmatch⟩
  | cancelRampTransfer provider reference organizationId projectId =>
    unfold System.step at hstep
    dsimp only at hstep
    split at hstep
    · cases hstep
    · cases hstep
      refine kept_of_update hcounterparties hnumeric rfl fun counterparty r hc hr hguard hmatch => ?_
      exact absurd hmatch (not_matches_set (by decide : PaymentTransferStatus.canceled ∈ _))

end Kept

/-! ## What a delivery relies on -/

/-- The transfer still matches while it is open, no other one does, and it has ended if a delivery of the same BVNK pay-in
has settled one. -/
structure InFlightOk (s : System) (payin : Payin) (id : String) : Prop where
  row : ∃ counterparty r, s.counterparty? payin = some counterparty ∧ s.transfers.find? id = some r ∧
    (¬ Terminal r → columnsMatch s.numeric counterparty payin r = true)
  only : ∀ x ∈ s.liveMatches payin, x = id
  logged : ∀ p, payin = .bvnk p → (∃ e ∈ s.payins, e.payin = payin) → ∃ r, s.transfers.find? id = some r ∧ Terminal r

def DeliveryOk (s : System) : Handler → Prop
  | .found payin counterparty => s.counterparty? payin = some counterparty
  | .unused e counterparty => s.counterparty? (.mural e) = some counterparty
  | .matched payin _ id => InFlightOk s payin id
  | .loaded payin transfer => InFlightOk s payin transfer.id
  | _ => True

/-- A pay-in in the log has settled one transfer, which has ended and was its only match. -/
structure PayinInv (s : System) : Prop where
  handlers : ∀ n, DeliveryOk s (s.handlers n)
  sole : ∀ e ∈ s.payins, e.matching = [e.transferId]
  once : s.payins.Pairwise fun e e' => e.payin ≠ e'.payin
  settled : ∀ e ∈ s.payins, ∃ r, s.transfers.find? e.transferId = some r ∧ Terminal r ∧
    ∀ c, e.payin = .mural c → r.provider = some .mural ∧ r.deliveryId = some c.deliveryId

section Later

variable {s t : System}

theorem terminal_later (hevolves : Table.Evolves Follows s.transfers t.transfers) {id : String} {r : PaymentTransferRow}
    (hr : s.transfers.find? id = some r) (hterminal : Terminal r) : t.transfers.find? id = some r := by
  obtain ⟨r', hr', hfollows⟩ := hevolves id r hr
  rw [hr', hfollows.terminal hterminal]

theorem InFlightOk.later {payin : Payin} {id : String} (h : InFlightOk s payin id) (hkept : Kept s t payin)
    (hevolves : Table.Evolves Follows s.transfers t.transfers)
    (hlogged : ∀ e ∈ t.payins, e.payin = payin → e ∈ s.payins ∨ ∃ r, t.transfers.find? id = some r ∧ Terminal r) :
    InFlightOk t payin id := by
  obtain ⟨counterparty, r, hc, hr, hcolumns⟩ := h.row
  obtain ⟨r', hr', hfollows⟩ := hevolves id r hr
  refine ⟨⟨counterparty, r', hkept.counterparty?.trans hc, hr', fun hopen => ?_⟩, fun x hx => h.only x (hkept.kept x hx),
    fun p hp hlog => ?_⟩
  · rw [hkept.numeric, columnsMatch_congr hfollows hopen]
    exact hcolumns (hfollows.of_terminal hopen)
  · obtain ⟨e, he, hpayin⟩ := hlog
    rcases hlogged e he hpayin with hold | hended
    · obtain ⟨r₀, hr₀, hterminal⟩ := h.logged p hp ⟨e, hold, hpayin⟩
      exact ⟨r₀, terminal_later hevolves hr₀ hterminal, hterminal⟩
    · exact hended

theorem DeliveryOk.later {n : Nat} (h : DeliveryOk s (s.handlers n)) (hcounterparties : t.counterparties = s.counterparties)
    (hevolves : Table.Evolves Follows s.transfers t.transfers)
    (hkept : ∀ payin id, inFlight (s.handlers n) = some (payin, id) → Kept s t payin)
    (hlogged : ∀ payin id, InFlightOk s payin id → ∀ e ∈ t.payins, e.payin = payin →
      e ∈ s.payins ∨ ∃ r, t.transfers.find? id = some r ∧ Terminal r) : DeliveryOk t (s.handlers n) := by
  generalize s.handlers n = handler at h hkept
  cases handler with
  | found payin counterparty => exact (counterparty?_congr hcounterparties payin).trans h
  | unused e counterparty => exact (counterparty?_congr hcounterparties (.mural e)).trans h
  | matched payin counterparty id => exact InFlightOk.later h (hkept payin id rfl) hevolves (hlogged payin id h)
  | loaded payin transfer =>
    exact InFlightOk.later h (hkept payin transfer.id rfl) hevolves (hlogged payin transfer.id h)
  | _ => trivial

end Later

/-! ## Steps that settle nothing -/

section Quiet

variable {s t : System} (h : PayinInv s) {l : Step} (hok : attributable s l) (hstep : s.step l = some t)
include h hok hstep

theorem payinInv_quiet (hpayins : t.payins = s.payins)
    (hhandlers : ∀ n, t.handlers n = s.handlers n ∨ DeliveryOk t (t.handlers n)) : PayinInv t where
  handlers := fun n => by
    rcases hhandlers n with heq | hnew
    · rw [heq]
      refine (h.handlers n).later (step_static hstep).1 (evolves_step hstep)
        (fun payin id hflight => kept_step hok hstep hflight) fun payin id _ e he _ => .inl ?_
      rw [hpayins] at he
      exact he
    · exact hnew
  sole := hpayins ▸ h.sole
  once := hpayins ▸ h.once
  settled := fun e he => by
    rw [hpayins] at he
    obtain ⟨r, hr, hterminal, hmural⟩ := h.settled e he
    exact ⟨r, terminal_later (evolves_step hstep) hr hterminal, hterminal, hmural⟩

theorem payinInv_moves {n : Nat} {handler : Handler} (hpayins : t.payins = s.payins)
    (hhandlers : t.handlers = Function.update s.handlers n handler) (hself : DeliveryOk t handler) : PayinInv t := by
  refine payinInv_quiet h hok hstep hpayins fun m => ?_
  rw [hhandlers]
  by_cases hm : m = n
  · rw [hm, Function.update_self]
    exact .inr hself
  · exact .inl (Function.update_of_ne hm _ _)

end Quiet

/-! ## Settling a transfer -/

theorem InFlightOk.mem {s : System} {payin : Payin} {id : String} (h : InFlightOk s payin id) {r : PaymentTransferRow}
    (hr : s.transfers.find? id = some r) (hlive : r.status ∈ liveFor payin) : id ∈ s.liveMatches payin := by
  obtain ⟨counterparty, r₀, hc, hr₀, hcolumns⟩ := h.row
  obtain rfl := Option.some.inj (hr₀.symm.trans hr)
  have hmatch := payinMatches_iff.mpr ⟨hcolumns (not_terminal_of_liveFor hlive), hlive⟩
  exact mem_liveMatches.mpr ⟨counterparty, r₀, hc, hr, hmatch⟩

theorem find?_returning {s : System} {id : String} {guard : PaymentTransferRow → Bool} {u : TransferUpdate}
    {row : PaymentTransferRow} (h : s.returning id guard u = some row) :
    (s.transfers.update id guard u.set fun _ => rfl).find? id = some row := by
  have hset (r : PaymentTransferRow) : (u.set r).id = r.id := rfl
  exact Table.find?_update_returning hset h

section Settle

variable {s t : System} (h : PayinInv s) {n : Nat} (hok : attributable s (.next n)) (hstep : s.step (.next n) = some t)
include h hok hstep

theorem payinInv_settle {payin : Payin} {transfer r r' : PaymentTransferRow} (hn : s.handlers n = .loaded payin transfer)
    (hr : s.transfers.find? transfer.id = some r) (hlive : r.status ∈ liveFor payin)
    (hr' : t.transfers.find? transfer.id = some r') (hterminal : Terminal r')
    (hmural : ∀ c, payin = .mural c → r'.provider = some .mural ∧ r'.deliveryId = some c.deliveryId)
    (hfresh : ∀ e ∈ s.payins, payin ≠ e.payin)
    (hpayins : t.payins = ⟨payin, transfer.id, s.liveMatches payin⟩ :: s.payins)
    (hothers : ∀ m, m ≠ n → t.handlers m = s.handlers m) (hself : DeliveryOk t (t.handlers n)) : PayinInv t := by
  have hflight := h.handlers n
  rw [hn] at hflight
  have hmem := hflight.mem hr hlive
  refine ⟨fun m => ?_, ?_, ?_, ?_⟩
  · by_cases hm : m = n
    · rw [hm]
      exact hself
    · rw [hothers m hm]
      refine (h.handlers m).later (step_static hstep).1 (evolves_step hstep)
        (fun payin' id hflight' => kept_step hok hstep hflight') fun payin' id hflight' e he hpayin => ?_
      rw [hpayins] at he
      rcases List.mem_cons.mp he with rfl | hold
      · -- The other delivery of the same pay-in has the same transfer, and this one has ended it.
        obtain rfl : payin = payin' := hpayin
        obtain rfl := hflight'.only transfer.id hmem
        exact .inr ⟨r', hr', hterminal⟩
      · exact .inl hold
  · rw [hpayins]
    refine List.forall_mem_cons.mpr ⟨?_, h.sole⟩
    exact liveMatches_eq_singleton hmem hflight.only
  · rw [hpayins]
    exact List.pairwise_cons.mpr ⟨hfresh, h.once⟩
  · rw [hpayins]
    refine List.forall_mem_cons.mpr ⟨⟨r', hr', hterminal, hmural⟩, fun e he => ?_⟩
    obtain ⟨r₀, hr₀, hterminal₀, hmural₀⟩ := h.settled e he
    exact ⟨r₀, terminal_later (evolves_step hstep) hr₀ hterminal₀, hterminal₀, hmural₀⟩

theorem payinInv_completePayin {p : BvnkPayin} {transfer : PaymentTransferRow}
    (hn : s.handlers n = .loaded (.bvnk p) transfer) (ht : t = s.completePayin n p transfer) : PayinInv t := by
  have hdone : DeliveryOk t .done := trivial
  have hself : t.handlers n = .done := by
    rw [ht]
    exact Function.update_self ..
  have hothers (m : Nat) (hm : m ≠ n) : t.handlers m = s.handlers m := by
    rw [ht]
    exact Function.update_of_ne hm _ _
  have hpayins : t.payins = (s.returning transfer.id (guarded transfer liveStatuses)
      (System.payinUpdate p s.now)).toList.map (fun r => ⟨.bvnk p, r.id, s.liveMatches (.bvnk p)⟩) ++ s.payins := by
    rw [ht]
    rfl
  cases hreturned : s.returning transfer.id (guarded transfer liveStatuses) (System.payinUpdate p s.now) with
  | none =>
    rw [hreturned] at hpayins
    exact payinInv_moves h hok hstep hpayins (by rw [ht]; rfl) hdone
  | some row =>
    obtain ⟨r, hr, hguard, rfl⟩ := Table.returning_eq_some.mp hreturned
    have hlive := (guarded_iff.mp hguard).2.2
    have hr' : t.transfers.find? transfer.id = some ((System.payinUpdate p s.now).set r) := by
      rw [ht]
      exact find?_returning hreturned
    have hflight := h.handlers n
    rw [hn] at hflight
    rw [hreturned] at hpayins
    refine payinInv_settle h hok hstep hn hr hlive hr' (by decide : PaymentTransferStatus.completed ∈ _) nofun ?_ ?_
      hothers (by rw [hself]; exact hdone)
    · intro e he hpayin
      obtain ⟨r₀, hr₀, hterminal⟩ := hflight.logged p rfl ⟨e, he, hpayin.symm⟩
      obtain rfl := Option.some.inj (hr₀.symm.trans hr)
      exact not_terminal_of_live hlive hterminal
    · rw [hpayins, ← Table.key_of_find? hr]
      rfl

theorem payinInv_claimCredit {e : MuralCredit} {transfer claimed : PaymentTransferRow}
    (hn : s.handlers n = .loaded (.mural e) transfer)
    (hclaimed : s.returning transfer.id (guarded transfer [.awaitingPayment]) (System.creditUpdate e transfer s.now) =
      some claimed)
    (hfree : System.deliveryTaken s.transfers transfer.id e.deliveryId = false)
    (ht : t = s.claimCredit n e transfer claimed) : PayinInv t := by
  obtain ⟨r, hr, hguard, rfl⟩ := Table.returning_eq_some.mp hclaimed
  have hlive := (guarded_iff.mp hguard).2.2
  obtain ⟨handler, hdelivery, hstate⟩ : ∃ handler, DeliveryOk t handler ∧ t = ((s.logPayin (.mural e)
      (some ((System.creditUpdate e transfer s.now).set r))).write n transfer.id (guarded transfer [.awaitingPayment])
        (System.creditUpdate e transfer s.now)).setHandler n handler := by
    rw [ht]
    unfold System.claimCredit
    split
    · exact ⟨.done, trivial, rfl⟩
    · exact ⟨.announcing _, trivial, rfl⟩
  have hr' : t.transfers.find? transfer.id = some ((System.creditUpdate e transfer s.now).set r) := by
    rw [hstate]
    exact find?_returning hclaimed
  have hself : t.handlers n = handler := by
    rw [hstate]
    exact Function.update_self ..
  have hothers (m : Nat) (hm : m ≠ n) : t.handlers m = s.handlers m := by
    rw [hstate]
    exact Function.update_of_ne hm _ _
  have hflight := h.handlers n
  rw [hn] at hflight
  have hprovider : r.provider = some .mural := by
    obtain ⟨counterparty, r₀, -, hr₀, hmatch⟩ := mem_liveMatches.mp (hflight.mem hr hlive)
    obtain rfl := Option.some.inj (hr₀.symm.trans hr)
    simp only [payinMatches, belongsTo, decide_eq_true_eq] at hmatch
    exact hmatch.1.2.2.2.1
  refine payinInv_settle h hok hstep hn hr hlive hr' (by decide : PaymentTransferStatus.completed ∈ _) ?_ ?_ ?_ hothers
    (by rw [hself]; exact hdelivery)
  · rintro c ⟨⟩
    exact ⟨hprovider, rfl⟩
  · intro e' he' hpayin
    -- The earlier settlement left the delivery's id in its row, which the index would have seen.
    obtain ⟨r₀, hr₀, hterminal, hmural⟩ := h.settled e' he'
    obtain ⟨hmem, hid⟩ := Table.find?_eq_some_iff.mp hr₀
    obtain ⟨hprovider₀, hdelivery₀⟩ := hmural e hpayin.symm
    have hsame : r₀.id = transfer.id := by
      by_contra hne
      have hnot := List.any_eq_false.mp hfree r₀ hmem
      simp [hne, hprovider₀, hdelivery₀] at hnot
    rw [← hid, hsame] at hr₀
    obtain rfl := Option.some.inj (hr₀.symm.trans hr)
    have hopen : r₀.status ∈ liveFor (.mural e) := hlive
    exact not_terminal_of_liveFor hopen hterminal
  · rw [hstate]
    show (⟨.mural e, r.id, s.liveMatches (.mural e)⟩ : PayinSettlement) :: s.payins = _
    rw [Table.key_of_find? hr]

end Settle

/-! ## Every step -/

section Step

variable {s t : System} (h : PayinInv s)
include h

theorem payinInv_next {n : Nat} (hok : attributable s (.next n)) (hstep : s.step (.next n) = some t)
    (hnext : Next s n t) : PayinInv t := by
  have hset {handler : Handler} (ht : t = s.setHandler n handler) (hself : DeliveryOk s handler) : PayinInv t := by
    subst ht
    have hsame : DeliveryOk (s.setHandler n handler) handler := by
      cases handler with
      | matched payin counterparty id => exact ⟨hself.row, hself.only, hself.logged⟩
      | loaded payin transfer => exact ⟨hself.row, hself.only, hself.logged⟩
      | _ => exact hself
    exact payinInv_moves h hok hstep rfl rfl hsame
  have hself := h.handlers n
  cases hnext with
  | quits hn => exact hset rfl trivial
  | reads hn => exact hset rfl trivial
  | finds hn hcounterparty => exact hset rfl hcounterparty
  | isUnused hn hunused =>
    rw [hn] at hself
    exact hset rfl hself
  | @matchesOne payin counterparty id hn hsole =>
    have hcounterparty : s.counterparty? payin = some counterparty := by
      rcases hn with hn | ⟨e, rfl, hn⟩ <;> rw [hn] at hself <;> exact hself
    have hids : s.liveMatches payin = [id] := by
      unfold System.liveMatches
      rw [hcounterparty]
      exact sole_eq_some.mp hsole
    obtain ⟨counterparty', r, hc, hr, hmatch⟩ := mem_liveMatches.mp (hids ▸ List.mem_singleton_self id)
    refine hset rfl ⟨⟨counterparty', r, hc, hr, fun _ => (payinMatches_iff.mp hmatch).1⟩, fun x hx => ?_, ?_⟩
    · rw [hids] at hx
      exact List.mem_singleton.mp hx
    · rintro p rfl hlog
      rcases hn with hn | ⟨e, he, -⟩
      · simp only [attributable, hn] at hok
        rw [hok hlog] at hsole
        cases hsole
      · cases he
  | loads hn hget =>
    rw [hn] at hself
    rw [getTransferById, Option.filter_eq_some_iff] at hget
    refine hset rfl ?_
    show InFlightOk s _ _
    rw [Table.key_of_find? hget.1]
    exact hself
  | @applies kind transfer hn =>
    have hstate : ∃ handler, DeliveryOk (s.applySettlement n kind transfer) handler ∧
        (s.applySettlement n kind transfer).payins = s.payins ∧
        (s.applySettlement n kind transfer).handlers = Function.update s.handlers n handler := by
      unfold System.applySettlement
      split
      · exact ⟨.announcing _, trivial, rfl, rfl⟩
      · exact ⟨.done, trivial, rfl, rfl⟩
    obtain ⟨handler, hdelivery, hpayins, hhandlers⟩ := hstate
    exact payinInv_moves h hok hstep hpayins hhandlers hdelivery
  | channels hn hid => exact payinInv_moves h hok hstep rfl rfl (by trivial)
  | completes hn => exact payinInv_completePayin h hok hstep hn rfl
  | claims hn hclaimed hfree => exact payinInv_claimCredit h hok hstep hn hclaimed hfree rfl
  | announces hn => exact payinInv_moves h hok hstep rfl rfl (by trivial)

theorem payinInv_step {l : Step} (hok : attributable s l) (hstep : s.step l = some t) : PayinInv t := by
  cases l with
  | elapse ms =>
    refine payinInv_quiet h hok hstep ?_ fun m => .inl ?_ <;> cases hstep <;> rfl
  | deliver n delivery =>
    have hstate := hstep
    unfold System.step at hstate
    dsimp only at hstate
    split at hstate
    · cases hstate
      exact payinInv_moves h hok hstep rfl rfl (by trivial)
    · cases hstate
  | next n => exact payinInv_next h hok hstep (next_cases hstep)
  | createOnrampQuote q =>
    have hstate := hstep
    unfold System.step at hstate
    dsimp only at hstate
    split at hstate <;> cases hstate
    exact payinInv_quiet h hok hstep rfl fun m => .inl rfl
  | cancelRampTransfer provider reference organizationId projectId =>
    have hstate := hstep
    unfold System.step at hstate
    dsimp only at hstate
    split at hstate <;> cases hstate
    exact payinInv_quiet h hok hstep rfl fun m => .inl rfl

end Step

/-! ## Every run -/

/-- Nothing has been delivered. -/
structure Undelivered (s : System) : Prop where
  handlers : ∀ n, s.handlers n = .idle
  payins : s.payins = []

theorem payinInv_reachable {s : System} (h : Reachable System.step Undelivered attributable s) : PayinInv s := by
  refine h.invariant (fun s hs => ⟨fun n => ?_, ?_, ?_, ?_⟩) fun _ _ _ _ hinv hok hstep => payinInv_step hinv hok hstep
  · rw [hs.handlers]
    trivial
  all_goals rw [hs.payins]
  · simp
  · exact List.Pairwise.nil
  · simp

/-- No pay-in settles two transfers, and the one that it settles is the only one that matches it at that moment. -/
theorem payin_settles_one {s : System} (h : Reachable System.step Undelivered attributable s) :
    (s.payins.Pairwise fun e e' => e.payin ≠ e'.payin) ∧ ∀ e ∈ s.payins, e.matching = [e.transferId] := by
  have hinv := payinInv_reachable h
  exact ⟨hinv.once, hinv.sole⟩

/-! A pay-in is delivered twice, and a second quote of the same amount is made. -/

def bvnkPayin : BvnkPayin := ⟨"payment", some "customer", some "wallet", some "COMPLETED", some "100.00"⟩

def secondQuote : OnrampQuote where
  transferId := "c"
  organizationId := "organization"
  projectId := "project"
  counterpartyId := "counterparty"
  token := "USDC"
  provider := .bvnk
  quoteId := "c"
  status := .awaitingPayment
  fiatCurrency := some "USD"
  fiatAmount := "100"
  fundingWalletId := some "wallet"
  muralAccountId := none

theorem ramps_undelivered : Undelivered ramps := ⟨fun _ => rfl, rfl⟩

/-- Both deliveries come before the second quote. -/
theorem redelivered_before_quote : ∃ s, run System.step ramps [.deliver 0 (.payin bvnkPayin), .next 0, .next 0, .next 0,
      .next 0, .deliver 1 (.payin bvnkPayin), .next 1, .next 1, .createOnrampQuote secondQuote] = some s ∧
    (s.payins.map (·.transferId) = ["b"]) ∧
    (s.payins.Pairwise fun e e' => e.payin ≠ e'.payin) ∧ ∀ e ∈ s.payins, e.matching = [e.transferId] := by
  have hstart : Reachable System.step Undelivered attributable ramps := .start ramps_undelivered
  have hdelivered := Reachable.step (l := .deliver 0 (.payin bvnkPayin)) hstart (by exact trivial) rfl
  have hfound := Reachable.step (l := .next 0) hdelivered (by exact trivial) rfl
  have hmatched := Reachable.step (l := .next 0) hfound (by rintro ⟨e, he, -⟩; cases he) rfl
  have hloaded := Reachable.step (l := .next 0) hmatched (by exact trivial) rfl
  have hsettled := Reachable.step (l := .next 0) hloaded (by exact trivial) rfl
  have hagain := Reachable.step (l := .deliver 1 (.payin bvnkPayin)) hsettled (by exact trivial) rfl
  have hfound₁ := Reachable.step (l := .next 1) hagain (by exact trivial) rfl
  have hnone := Reachable.step (l := .next 1) hfound₁ (by exact fun _ => rfl) rfl
  have hquoted := Reachable.step (l := .createOnrampQuote secondQuote) hnone (by rintro (_ | _ | m) payin id counterparty ⟨⟩) rfl
  exact ⟨_, rfl, by decide, payin_settles_one hquoted⟩

/-- The second delivery comes after the second quote and settles it too. A quote that is made between the match and the
write of a delivery matches as well when the first one is settled. -/
theorem payin_settles_two :
    (∃ s, Reachable System.step Undelivered anyStep s ∧
      s.payins.map (fun e => (e.payin, e.transferId)) = [(.bvnk bvnkPayin, "c"), (.bvnk bvnkPayin, "b")]) ∧
    ∃ s, Reachable System.step Undelivered anyStep s ∧
      s.payins.map (fun e => (e.transferId, e.matching)) = [("b", ["b", "c"])] := by
  constructor
  · exact ⟨_, .run (.start ramps_undelivered)
      (by rfl : run System.step _ [.deliver 0 (.payin bvnkPayin), .next 0, .next 0, .next 0, .next 0,
        .createOnrampQuote secondQuote, .deliver 1 (.payin bvnkPayin), .next 1, .next 1, .next 1, .next 1] = some _),
      by decide⟩
  · exact ⟨_, .run (.start ramps_undelivered)
      (by rfl : run System.step _ [.deliver 0 (.payin bvnkPayin), .next 0, .next 0,
        .createOnrampQuote secondQuote, .next 0, .next 0] = some _), by decide⟩

end Sdp.Ramps
